import SourceCheck.Main
import SourceCheck.Tree.Equivalence
import SourceCheck.Proofs.Filling.Programs
import SourceCheck.Proofs.Layout.Alignment
import SourceCheck.Proofs.Layout.Erasure
import SourceCheck.Proofs.Layout.TokenOrder
import SourceCheck.Proofs.Operators.Canonical
import SourceCheck.Proofs.Operators.Following
import SourceCheck.Proofs.Operators.Reading
import SourceCheck.Proofs.Operators.Sources
import SourceCheck.Proofs.Resolution.Declaring
import SourceCheck.Proofs.Resolution.Layout
import SourceCheck.Proofs.Resolution.Program
import SourceCheck.Proofs.Resolution.Sources
import SourceCheck.Proofs.Lexing.Division
import SourceCheck.Proofs.Lexing.Rules
import SourceCheck.Proofs.Lexing.Scanner
import SourceCheck.Proofs.Syntax.Spans
import SourceCheck.Proofs.Lexing.Appending
import SourceCheck.Proofs.Resolution.Appending
import SourceCheck.Proofs.Typing.Programs
import SourceCheck.Proofs.Typing.Propagation
import SourceCheck.Proofs.Scoping.Mirror
import SourceCheck.Proofs.Syntax.Balance
import SourceCheck.Proofs.Syntax.Progress
import SourceCheck.Proofs.Syntax.Coverage
import SourceCheck.Proofs.Safety.Compile
import SourceCheck.Proofs.Lexing.Respacing
import SourceCheck.Proofs.Typing.Assignability
import SourceCheck.Proofs.Layout.Diagnostics
import SourceCheck.Proofs.Typing.Intersections
import SourceCheck.Proofs.Literals.Integers
import SourceCheck.Proofs.Literals.Strings
import SourceCheck.Proofs.Literals.Templates
import SourceCheck.Proofs.Equivalence.Contexts
import SourceCheck.Proofs.Syntax.Endings
import SourceCheck.Proofs.Layout.Carets
import SourceCheck.Proofs.Annotations.Roundtrip
import SourceCheck.Proofs.Scoping.Redefinitions
import SourceCheck.Proofs.Resolution.Spelling
import SourceCheck.Proofs.Resolution.Stacks
import SourceCheck.Proofs.Resolution.ImportOrder
import SourceCheck.Proofs.Syntax.Lookahead
import SourceCheck.Proofs.Scoping.Chains
