import SourceCheck.Proofs.Annotations.Reports
import SourceCheck.Tree.Basic

/-
  The names in the written types of a program.

  A program is resolved in an order that is almost that of
  its text: the written types of all parameters come before
  the defaults, and where a function is declared its result
  comes between them.  Of the names that are met in this
  order, the first of each is where it is reported if it is
  unknown.

  Key definitions include:
    * `Mention`
    * `Expr.mentions`
    * `Program.mentions`
    * `firstMentions`
    * `unknownTypes`

  Key theorems include:
    * `firstMentions_concat`
-/

namespace SourceCheck

------------------------------------------------------------
-- Names in written types
------------------------------------------------------------

/- A name in a written type, and its place. -/
structure Mention where
  name : String
  place : Position

mutual

/- The names in a form that starts at the place. -/
def TypeForm.mentions
    (p : Position) :
    TypeForm → List Mention
  | .absent => []
  | .named name => [⟨name, p⟩]
  | .union left right => left.mentions ++ right.mentions
  | .intersection left right =>
      left.mentions ++ right.mentions

/- The names in a written type. -/
def TypeExpr.mentions : TypeExpr → List Mention
  | ⟨form, span, _⟩ => form.mentions span.start

end

/- The names in the written types of parameters. -/
def parametersMentions (ps : List Parameter) : List Mention :=
  ps.flatMap (·.typeExpr.mentions)

------------------------------------------------------------
-- Names in trees
------------------------------------------------------------

mutual

def ExprForm.mentions : ExprForm → List Mention
  | .int _ => []
  | .long _ => []
  | .boolean _ => []
  | .string _ => []
  | .template parts => exprsMentions parts
  | .reference _ _ => []
  | .invocation _ arguments _ => argumentsMentions arguments
  | .call callee arguments =>
      callee.mentions ++ argumentsMentions arguments
  | .access left _ right => left.mentions ++ right.mentions
  | .binary left _ right => left.mentions ++ right.mentions
  | .unary _ operand => operand.mentions
  | .assignment target _ value =>
      target.mentions ++ value.mentions
  | .parenthesized inner => inner.mentions
  | .block statements _ => statementsMentions statements
  | .conditional condition thenBranch elseBranch =>
      condition.mentions ++
        (thenBranch.mentions ++ optionMentions elseBranch)
  | .function parameters returnType body _ =>
      parametersMentions parameters ++
        (defaultsMentions parameters ++
          (returnType.mentions ++ body.mentions))
  | .lambda parameters body _ =>
      parametersMentions parameters ++
        (defaultsMentions parameters ++ body.mentions)
  | .ret value => optionMentions value

/-
  The names in the written types of an expression, in the
  order in which it is resolved.
-/
def Expr.mentions : Expr → List Mention
  | ⟨form, _, _⟩ => form.mentions

def optionMentions : Option Expr → List Mention
  | none => []
  | some e => e.mentions

def exprsMentions : List Expr → List Mention
  | [] => []
  | e :: es => e.mentions ++ exprsMentions es

def argumentsMentions : List Argument → List Mention
  | [] => []
  | ⟨_, value, _⟩ :: others =>
      value.mentions ++ argumentsMentions others

/- The names in the defaults of parameters. -/
def defaultsMentions : List Parameter → List Mention
  | [] => []
  | ⟨_, _, fallback, _, _⟩ :: others =>
      optionMentions fallback ++ defaultsMentions others

def statementsMentions : List Statement → List Mention
  | [] => []
  | x :: others => x.mentions ++ statementsMentions others

def Statement.mentions : Statement → List Mention
  | .expression e => e.mentions
  | .variable v => v.mentions
  | .function f => f.mentions

def VariableDecl.mentions : VariableDecl → List Mention
  | ⟨_, _, typeExpr, initializer, _, _⟩ =>
      typeExpr.mentions ++ optionMentions initializer

def FunctionDecl.mentions : FunctionDecl → List Mention
  | ⟨_, parameters, returnType, body, _, _, _⟩ =>
      parametersMentions parameters ++
        (returnType.mentions ++
          (defaultsMentions parameters ++
            optionMentions body))

end

/- The names in the written types of a declaration. -/
def Declaration.mentions : Declaration → List Mention
  | .function f => f.mentions
  | .property v => v.mentions

/- The names in the written types of a program. -/
def Program.mentions (p : Program) : List Mention :=
  p.declarations.flatMap Declaration.mentions

------------------------------------------------------------
-- First mentions
------------------------------------------------------------

/- Of each name that is mentioned, the first mention. -/
def firstMentions : List Mention → List Mention
  | [] => []
  | m :: ms =>
      m :: (firstMentions ms).filter fun n =>
        n.name ≠ m.name

/- Another mention counts if its name is a new one. -/
theorem firstMentions_concat
    (ms : List Mention)
    (m : Mention) :
    firstMentions (ms ++ [m]) =
      if m.name ∈ ms.map (·.name) then
        firstMentions ms
      else
        firstMentions ms ++ [m] := by
  induction ms with
  | nil => rfl
  | cons n ms ih =>
      rw [List.cons_append, firstMentions, ih, firstMentions]
      by_cases hOwn : m.name = n.name
      · have hThere : m.name ∈ (n :: ms).map (·.name) := by
          rw [hOwn]
          exact List.mem_cons_self
        have hDropped :
            [m].filter (fun x => x.name ≠ n.name) = [] := by
          simp [hOwn]
        rw [if_pos hThere]
        split
        · rfl
        · rw [List.filter_append, hDropped, List.append_nil]
      · have hThere :
            m.name ∈ (n :: ms).map (·.name) ↔
              m.name ∈ ms.map (·.name) := by
          rw [List.map_cons, List.mem_cons, or_iff_right hOwn]
        have hKept :
            [m].filter (fun x => x.name ≠ n.name) = [m] := by
          simp [hOwn]
        by_cases hOld : m.name ∈ ms.map (·.name)
        · rw [if_pos hOld, if_pos (hThere.2 hOld)]
        · rw [if_neg hOld, if_neg (hThere.not.2 hOld),
            List.filter_append, hKept]
          rfl

/-
  What is reported of the names that are mentioned: each one
  that is unknown, once, where it was mentioned first.
-/
def unknownTypes
    (known : String → Option Ty)
    (ms : List Mention) :
    List Diagnostic :=
  ((firstMentions ms).filter fun m =>
      (known m.name).isNone).map
    fun m => ⟨.unknownType m.name, m.place⟩

/- A name that was mentioned before is not reported again. -/
theorem unknownTypes_concat_old
    (known : String → Option Ty)
    {ms : List Mention}
    {m : Mention}
    (hOld : m.name ∈ ms.map (·.name)) :
    unknownTypes known (ms ++ [m]) = unknownTypes known ms := by
  unfold unknownTypes
  rw [firstMentions_concat, if_pos hOld]

/- A new name is reported if it is unknown. -/
theorem unknownTypes_concat_new
    (known : String → Option Ty)
    {ms : List Mention}
    {m : Mention}
    (hNew : m.name ∉ ms.map (·.name)) :
    unknownTypes known (ms ++ [m]) =
      unknownTypes known ms ++
        if (known m.name).isNone then
          [⟨.unknownType m.name, m.place⟩]
        else
          [] := by
  unfold unknownTypes
  rw [firstMentions_concat, if_neg hNew, List.filter_append,
    List.map_append, List.filter_singleton]
  cases (known m.name).isNone <;> rfl

end SourceCheck
