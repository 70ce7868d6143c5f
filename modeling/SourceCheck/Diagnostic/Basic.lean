import SourceCheck.Source.Position
import SourceCheck.Text.Quoted

/-
  What can be wrong with a program.

  A `Problem` is one mistake with the texts that describe
  it; a `Diagnostic` is a problem at a place.

  Key definitions include:
    * `Category`
    * `Problem`
    * `Problem.category`
    * `Problem.name`
    * `Problem.message`
    * `Problem.tip?`
    * `Diagnostic`
    * `Diagnostic.text`
-/

namespace SourceCheck

------------------------------------------------------------
-- Categories
------------------------------------------------------------

/- What a problem concerns. -/
inductive Category where
  | form
  | meaning
  | typing
  | internal
deriving DecidableEq

/- A category as it is written in messages. -/
def Category.text : Category → String
  | form => "syntax error"
  | meaning => "semantic error"
  | typing => "type error"
  | internal => "internal error"

------------------------------------------------------------
-- Problems
------------------------------------------------------------

/- A mistake in a program. -/
inductive Problem where
  | unexpectedCharacter (character : String)
  | unexpectedToken (token expected : String)
  | expectedExpression (found : String)
  | invalidIntLiteral (literal : String)
  | invalidEscapeSequence (escape : String)
  | unexpectedStringPart (token : String)
  | templateImportPath
  | importAfterDeclaration
  | expectedTopLevelDeclaration
  | namedAnonymousFunction
  | missingFunctionBody
  | redefinition (name : String)
  | importNotFound (path name : String)
  | importRedefinition (name : String)
  | unresolvedReference (name : String)
  | unknownType (name : String)
  | illegalMemberAccess (type : String)
  | expectedInvocationOrReference
  | nonPublicMember (name : String)
  | propertyOverloadResolution
      (name : String)
      (candidates : Nat)
  | noMatchingFunction (signature : String)
  | cannotInferVariableType (name : String)
  | invalidAssignmentTarget
  | valReassignment (name : String)
  | typeMismatch (expected received : String)
  | invalidOperands (operator left right : String)
  | invalidOperand (operator operand : String)
  | notCallable (type : String)
  | emptyScopeStack
  | unresolvedDefinition (name : String)
deriving DecidableEq, Inhabited

namespace Problem

/- What a problem concerns. -/
def category : Problem → Category
  | unexpectedCharacter _ => .form
  | unexpectedToken _ _ => .form
  | expectedExpression _ => .form
  | invalidIntLiteral _ => .form
  | invalidEscapeSequence _ => .form
  | unexpectedStringPart _ => .form
  | templateImportPath => .form
  | importAfterDeclaration => .form
  | expectedTopLevelDeclaration => .form
  | namedAnonymousFunction => .form
  | missingFunctionBody => .form
  | redefinition _ => .meaning
  | importNotFound _ _ => .meaning
  | importRedefinition _ => .meaning
  | unresolvedReference _ => .meaning
  | unknownType _ => .meaning
  | illegalMemberAccess _ => .meaning
  | expectedInvocationOrReference => .meaning
  | nonPublicMember _ => .meaning
  | propertyOverloadResolution _ _ => .meaning
  | noMatchingFunction _ => .meaning
  | cannotInferVariableType _ => .meaning
  | invalidAssignmentTarget => .meaning
  | valReassignment _ => .meaning
  | typeMismatch _ _ => .typing
  | invalidOperands _ _ _ => .typing
  | invalidOperand _ _ => .typing
  | notCallable _ => .typing
  | emptyScopeStack => .internal
  | unresolvedDefinition _ => .internal

/- The name that a problem is known by. -/
def name : Problem → String
  | unexpectedCharacter _ => "UnexpectedCharacter"
  | unexpectedToken _ _ => "UnexpectedToken"
  | expectedExpression _ => "ExpectedExpression"
  | invalidIntLiteral _ => "InvalidIntLiteral"
  | invalidEscapeSequence _ => "InvalidEscapeSequence"
  | unexpectedStringPart _ => "UnexpectedStringPart"
  | templateImportPath => "TemplateImportPath"
  | importAfterDeclaration => "ImportAfterDeclaration"
  | expectedTopLevelDeclaration =>
      "ExpectedTopLevelDeclaration"
  | namedAnonymousFunction => "NamedAnonymousFunction"
  | missingFunctionBody => "MissingFunctionBody"
  | redefinition _ => "Redefinition"
  | importNotFound _ _ => "ImportNotFound"
  | importRedefinition _ => "ImportRedefinition"
  | unresolvedReference _ => "UnresolvedReference"
  | unknownType _ => "UnknownType"
  | illegalMemberAccess _ => "IllegalMemberAccess"
  | expectedInvocationOrReference =>
      "ExpectedInvocationOrReference"
  | nonPublicMember _ => "NonPublicMember"
  | propertyOverloadResolution _ _ =>
      "PropertyOverloadResolution"
  | noMatchingFunction _ => "NoMatchingFunction"
  | cannotInferVariableType _ => "CannotInferVariableType"
  | invalidAssignmentTarget => "InvalidAssignmentTarget"
  | valReassignment _ => "ValReassignment"
  | typeMismatch _ _ => "TypeMismatch"
  | invalidOperands _ _ _ => "InvalidOperands"
  | invalidOperand _ _ => "InvalidOperand"
  | notCallable _ => "NotCallable"
  | emptyScopeStack => "EmptyScopeStack"
  | unresolvedDefinition _ => "UnresolvedDefinition"

/- What is wrong, in words. -/
def message : Problem → String
  | unexpectedCharacter character =>
      "unexpected character: " ++ quoted character
  | unexpectedToken token expected =>
      "unexpected token " ++ quoted token ++
        ", expected " ++ expected
  | expectedExpression found =>
      "expecting expression, got " ++ quoted found
  | invalidIntLiteral literal =>
      "invalid integer literal: " ++ quoted literal
  | invalidEscapeSequence escape =>
      "invalid escape sequence: " ++ quoted escape
  | unexpectedStringPart token =>
      "unexpected token in string: " ++ quoted token
  | templateImportPath =>
      "only simple strings are allowed as paths"
  | importAfterDeclaration =>
      "'import' must be declared before anything else"
  | expectedTopLevelDeclaration =>
      "expected a top level declaration"
  | namedAnonymousFunction =>
      "anonymous functions with names are prohibited"
  | missingFunctionBody => "function must have a body"
  | redefinition name =>
      "definition with name '" ++ name ++
        "' already exists"
  | importNotFound path name =>
      "unable to find " ++ path ++ "/" ++ name
  | importRedefinition name =>
      "import for " ++ name ++ " already exists"
  | unresolvedReference name =>
      "unresolved reference: " ++ name
  | unknownType name =>
      "unknown type name '" ++ name ++ "'"
  | illegalMemberAccess type =>
      "member access operation is illegal on type: " ++ type
  | expectedInvocationOrReference =>
      "expected invocation or reference"
  | nonPublicMember name =>
      "can't access non public member: " ++ name
  | propertyOverloadResolution name candidates =>
      "property overload resolution error: " ++
        toString candidates ++ " candidates for '" ++
        name ++ "'"
  | noMatchingFunction signature =>
      "no function found with signature: " ++ signature
  | cannotInferVariableType name =>
      "could not infer type of '" ++ name ++ "'"
  | invalidAssignmentTarget => "invalid assignment target"
  | valReassignment name =>
      "val '" ++ name ++ "' cannot be reassigned"
  | typeMismatch expected received =>
      "types do not match: expected " ++ expected ++
        ", received " ++ received
  | invalidOperands operator left right =>
      "operator '" ++ operator ++
        "' cannot be applied to " ++ left ++ " and " ++
        right
  | invalidOperand operator operand =>
      "operator '" ++ operator ++
        "' cannot be applied to " ++ operand
  | notCallable type =>
      "expression of type " ++ type ++ " is not callable"
  | emptyScopeStack =>
      "no table found in the current scopes"
  | unresolvedDefinition name =>
      "definition '" ++ name ++
        "' was referenced before its type was resolved"

/-
  Advice on a problem.  Where there is nothing better to
  say, the message is repeated.
-/
def tip? : Problem → Option String
  | unexpectedCharacter _ => none
  | unexpectedToken token expected =>
      some
        ("Unexpected token: `" ++ token ++
          "`, expected " ++ expected)
  | expectedExpression found =>
      some ("Expecting expression, got `" ++ found ++ "`")
  | invalidIntLiteral literal =>
      some
        ("Invalid integer: `" ++ literal ++
          "`, is it above the integer limit?")
  | nonPublicMember name =>
      some
        ("`" ++ name ++ "` is not public, only public " ++
          "members may be accessed")
  | importAfterDeclaration =>
      some "Move the import above the first declaration"
  | cannotInferVariableType _ =>
      some "Please specify the type explicitly"
  | emptyScopeStack =>
      some "This is a bug in the compiler, not in your code"
  | unresolvedDefinition _ =>
      some "This is a bug in the compiler, not in your code"
  | problem => some problem.message

end Problem

------------------------------------------------------------
-- Diagnostics
------------------------------------------------------------

/- A problem at a place. -/
structure Diagnostic where
  problem : Problem
  position : Position
deriving DecidableEq, Inhabited

/- Category, message and place of a diagnostic. -/
def Diagnostic.text (d : Diagnostic) : String :=
  d.problem.category.text ++ ": " ++ d.problem.message ++
    " (" ++ d.position.text ++ ")"

end SourceCheck
