import SourceCheck.Proofs.Syntax.Likeness

/-
  What parsers leave of the state that they start from.

  However a parser ends, it has closed the scopes that it
  opened, and has added to the diagnostics and the symbols
  without changing what was there.  This holds from every
  state, for each parser of the grammar, and for failures
  at any point: only at the end of a program the symbols are
  taken out of the state.

  Key definitions include:
    * `Scope.Grows`
    * `Symbols.Grows`
    * `ParserState.Grows`
    * `Parser.Grows`
    * `Grammar.Grows`

  The main statement is `Grammar.grows_nestedWithin`.
-/

namespace SourceCheck

open SourceCheck.Parser
open SourceCheck.ParserState

------------------------------------------------------------
-- Scopes
------------------------------------------------------------

/-
  The second scope is the first one with more bindings, each
  of a name that the first one does not bind.
-/
structure Scope.Grows (a b : Scope) : Prop where
  parent : b.parent = a.parent
  bindings :
    ∃ added,
      b.bindings = added ++ a.bindings ∧
        (added.map (·.1)).Nodup ∧
        ∀ x ∈ added, a.get? x.1 = none

namespace Scope

variable {a b c : Scope}

theorem Grows.refl (a : Scope) : a.Grows a :=
  ⟨rfl, [], rfl, .nil, nofun⟩

/- A name is bound among more bindings to what is nearest. -/
theorem get?_append
    {added : List (String × DefinitionId)}
    (hBindings : b.bindings = added ++ a.bindings)
    (name : String) :
    b.get? name =
      (added.lookup name).or (a.get? name) := by
  unfold get?
  rw [hBindings, List.lookup_append]

/- Bindings stay. -/
theorem Grows.get?_eq
    (hGrows : a.Grows b)
    {name : String}
    {id : DefinitionId}
    (hBound : a.get? name = some id) :
    b.get? name = some id := by
  rcases hGrows.bindings with ⟨added, hAdded, -, hNew⟩
  have hNone : added.lookup name = none := by
    refine List.lookup_eq_none_iff.2 fun x hMember => ?_
    refine bne_iff_ne.2 fun hSame => ?_
    have hOther := hNew x hMember
    rw [← hSame, hBound] at hOther
    cases hOther
  rw [get?_append hAdded, hNone, hBound]
  rfl

/- A name that is not bound later was not bound before. -/
theorem Grows.get?_eq_none
    (hGrows : a.Grows b)
    {name : String}
    (hFree : b.get? name = none) :
    a.get? name = none := by
  cases hBound : a.get? name with
  | none => rfl
  | some id =>
      rw [hGrows.get?_eq hBound] at hFree
      cases hFree

theorem Grows.trans
    (hFirst : a.Grows b)
    (hSecond : b.Grows c) :
    a.Grows c := by
  have hFree {name : String} :
      b.get? name = none → a.get? name = none :=
    hFirst.get?_eq_none
  rcases hFirst.bindings with ⟨as, hOld, hDistinct, hNew⟩
  rcases hSecond.bindings with ⟨bs, hMore, hApart, hFresh⟩
  refine ⟨hSecond.parent.trans hFirst.parent, bs ++ as, ?_,
    ?_, ?_⟩
  · rw [hMore, hOld, List.append_assoc]
  · rw [List.map_append]
    refine List.nodup_append.2 ⟨hApart, hDistinct, ?_⟩
    intro name hLate other hEarly hSame
    rcases List.mem_map.1 hLate with ⟨x, hMember, rfl⟩
    rcases List.mem_map.1 hEarly with ⟨y, hOther, rfl⟩
    have hNone := hFresh x hMember
    rw [get?_append hOld, Option.or_eq_none_iff,
      List.lookup_eq_none_iff] at hNone
    exact bne_iff_ne.1 (hNone.1 y hOther) hSame
  · intro x hMember
    rcases List.mem_append.1 hMember with hLate | hEarly
    · exact hFree (hFresh x hLate)
    · exact hNew x hEarly

theorem grows_insert
    {name : String}
    (hFree : a.get? name = none)
    (id : DefinitionId) :
    a.Grows (a.insert name id) := by
  refine ⟨rfl, [(name, id)], rfl,
    List.pairwise_singleton _ _, ?_⟩
  intro x hMember
  rw [List.mem_singleton.1 hMember]
  exact hFree

end Scope

------------------------------------------------------------
-- Symbols
------------------------------------------------------------

/-
  Each scope of the first symbols is there in the second
  ones, with no other binding of a name that it bound, and
  so is each definition, unchanged.
-/
structure Symbols.Grows (y z : Symbols) : Prop where
  scopes :
    ∀ {id : ScopeId} {a},
      y.scopes[id]? = some a →
        ∃ b, z.scopes[id]? = some b ∧ a.Grows b
  definitions :
    ∀ {id : DefinitionId} {d},
      y.definitions[id]? = some d →
        z.definitions[id]? = some d

namespace Symbols

variable {x y z : Symbols}

theorem Grows.refl (y : Symbols) : y.Grows y :=
  ⟨fun hScope => ⟨_, hScope, .refl _⟩, id⟩

theorem Grows.trans
    (hFirst : x.Grows y)
    (hSecond : y.Grows z) :
    x.Grows z := by
  refine ⟨fun hScope => ?_, fun hDefinition =>
    hSecond.definitions (hFirst.definitions hDefinition)⟩
  rcases hFirst.scopes hScope with ⟨b, hMiddle, hGrows⟩
  rcases hSecond.scopes hMiddle with ⟨c, hLast, hMore⟩
  exact ⟨c, hLast, hGrows.trans hMore⟩

/- What is pushed to an array changes nothing before it. -/
theorem getElem?_push_of_some
    {α : Type}
    {as : Array α}
    {i : Nat}
    {a : α}
    (hOld : as[i]? = some a)
    (b : α) :
    (as.push b)[i]? = some a := by
  have hLess := (Array.getElem?_eq_some_iff.1 hOld).1
  rw [Array.getElem?_push_lt hLess, ← hOld,
    Array.getElem?_eq_getElem hLess]

theorem grows_openScope (parent : Option ScopeId) :
    y.Grows (y.openScope parent).2 :=
  ⟨fun hScope =>
      ⟨_, getElem?_push_of_some hScope _, .refl _⟩,
    id⟩

theorem grows_addDefinition (d : Definition) :
    y.Grows (y.addDefinition d).2 :=
  ⟨fun hScope => ⟨_, hScope, .refl _⟩,
    fun hDefinition => getElem?_push_of_some hDefinition _⟩

/- A name that was not bound in the scope may be bound. -/
theorem grows_modify
    {scope : ScopeId}
    {name : String}
    (hFree : y.hasLocal scope name = false)
    (id : DefinitionId) :
    y.Grows
      { y with
        scopes :=
          y.scopes.modify scope (·.insert name id) } := by
  refine ⟨fun {other a} hScope => ?_, fun h => h⟩
  simp only [Array.getElem?_modify, hScope]
  split
  · rename_i hSame
    subst hSame
    refine ⟨_, rfl, Scope.grows_insert ?_ id⟩
    simpa [hasLocal, local?, hScope] using hFree
  · exact ⟨a, rfl, .refl a⟩

end Symbols

------------------------------------------------------------
-- States
------------------------------------------------------------

/-
  The open scopes are the same, diagnostics were reported
  behind the earlier ones, and the symbols grew.
-/
structure ParserState.Grows (s t : ParserState) : Prop where
  scopes : t.scopes = s.scopes
  diagnostics : s.diagnostics <+: t.diagnostics
  symbols : s.symbols.Grows t.symbols

namespace ParserState

variable {s t u : ParserState}

theorem Grows.refl (s : ParserState) : s.Grows s :=
  ⟨rfl, List.prefix_rfl, .refl s.symbols⟩

theorem Grows.trans
    (hFirst : s.Grows t)
    (hSecond : t.Grows u) :
    s.Grows u :=
  ⟨hSecond.scopes.trans hFirst.scopes,
    hFirst.diagnostics.trans hSecond.diagnostics,
    hFirst.symbols.trans hSecond.symbols⟩

theorem grows_reported (s : ParserState) (d : Diagnostic) :
    s.Grows (s.reported d) :=
  ⟨rfl, List.prefix_append _ _, .refl s.symbols⟩

/- A name is bound in a scope that does not bind it yet. -/
theorem grows_declared
    (s : ParserState)
    (scope : ScopeId)
    (d : Definition)
    (p : Position) :
    s.Grows (s.declared scope d p) := by
  have hAdded :
      s.symbols.Grows (s.symbols.addDefinition d).2 :=
    Symbols.grows_addDefinition d
  cases hBound : s.symbols.hasLocal scope d.name with
  | true =>
      have hSame :
          s.declared scope d p =
            (s.withSymbols
              (s.symbols.addDefinition d).2).reported
                ⟨.redefinition d.name, p⟩ :=
        if_pos hBound
      rw [hSame]
      exact ⟨rfl, List.prefix_append _ _, hAdded⟩
  | false =>
      have hSame :
          s.declared scope d p = s.bound scope d :=
        if_neg (by rw [hBound]; exact Bool.false_ne_true)
      rw [hSame]
      exact ⟨rfl, List.prefix_rfl,
        hAdded.trans
          (Symbols.grows_modify
            (y := (s.symbols.addDefinition d).2) hBound _)⟩

/- What a body did in its scope is there behind the scope. -/
theorem Grows.closed
    (hBody : s.opened.Grows t) :
    s.Grows t.closed := by
  refine ⟨?_, hBody.diagnostics,
    (Symbols.grows_openScope s.scopes.head?).trans
      hBody.symbols⟩
  unfold ParserState.closed
  dsimp only
  rw [hBody.scopes]
  rfl

theorem Grows.resumed
    (hBody : s.Grows t)
    (stop : TokenStream → Bool)
    (d : Diagnostic) :
    s.Grows (s.resumed stop t d) := by
  have hReported := hBody.trans (grows_reported t d)
  unfold ParserState.resumed
  dsimp only
  split
  · exact ⟨hReported.scopes, hReported.diagnostics,
      hReported.symbols⟩
  · exact ⟨hReported.scopes, hReported.diagnostics,
      hReported.symbols⟩

end ParserState

------------------------------------------------------------
-- Parsers
------------------------------------------------------------

/- From every state, what the parser leaves has grown. -/
def Parser.Grows {α : Type} (p : Parser α) : Prop :=
  ∀ s : ParserState, s.Grows (p.outcome s).2

namespace Parser

variable {α β : Type}

theorem grows_bind
    {p : Parser α}
    {f : α → Parser β}
    {s : ParserState}
    (hFirst : s.Grows (p.outcome s).2)
    (hRest :
      ∀ {a t},
        p.outcome s = (.ok a, t) →
          t.Grows ((f a).outcome t).2) :
    s.Grows ((p >>= f).outcome s).2 := by
  rw [outcome_bind]
  rcases hRun : p.outcome s with ⟨d | a, t⟩
  · rw [hRun] at hFirst
    exact hFirst
  · rw [hRun] at hFirst
    exact hFirst.trans (hRest hRun)

theorem Grows.bind
    {p : Parser α}
    {f : α → Parser β}
    (hFirst : p.Grows)
    (hRest : ∀ a, (f a).Grows) :
    (p >>= f).Grows :=
  fun s => grows_bind (hFirst s) fun _ => hRest _ _

theorem grows_pure (a : α) : (pure a : Parser α).Grows :=
  fun s => .refl s

theorem grows_look (f : TokenStream → α) :
    (look f).Grows :=
  fun s => .refl s

theorem grows_move (f : TokenStream → TokenStream) :
    (move f).Grows :=
  fun s => ⟨rfl, List.prefix_rfl, .refl s.symbols⟩

theorem Grows.ite
    {p q : Parser α}
    (hThen : p.Grows)
    (hElse : q.Grows)
    (c : Bool) :
    (if c then p else q).Grows := by
  cases c with
  | false => exact hElse
  | true => exact hThen

theorem grows_consume : consume.Grows :=
  (grows_look _).bind fun _ =>
    (grows_move _).bind fun _ => grows_pure _

theorem grows_accept (kind : TokenKind) :
    (accept kind).Grows :=
  (grows_look _).bind
    (Grows.ite (grows_consume.bind fun _ => grows_pure _)
      (grows_pure _))

theorem Grows.collectWithin
    {step : Parser (Option α)}
    (hStep : step.Grows)
    (budget : List Token) :
    (collectWithin step budget).Grows := by
  induction budget with
  | nil => exact hStep.bind fun _ => grows_pure _
  | cons _ budget ih =>
      refine hStep.bind fun r => ?_
      cases r with
      | none => exact grows_pure _
      | some a => exact ih.bind fun _ => grows_pure _

/- Items may be any, and so may what separates them. -/
theorem Grows.separated
    {item : Parser α}
    (hItem : item.Grows)
    (separator terminator : TokenKind) :
    (separated separator terminator item).Grows := by
  have hNext :
      (nextItem separator terminator item).Grows :=
    (grows_accept separator).bind
      (Grows.ite
        ((grows_look _).bind
          (Grows.ite (grows_pure _)
            (hItem.bind fun _ => grows_pure _)))
        (grows_pure _))
  have hOthers :
      (collect (nextItem separator terminator item)).Grows :=
    (grows_look (·.ahead)).bind hNext.collectWithin
  exact (grows_look _).bind
    (Grows.ite (grows_pure _)
      (hItem.bind fun _ =>
        hOthers.bind fun _ => grows_pure _))

theorem grows_declare
    (name : Token)
    (kind : DefinitionKind)
    (span : Span)
    (visibleFrom : Nat)
    (isMutable : Bool) :
    (declare name kind span visibleFrom isMutable).Grows := by
  intro s
  rw [outcome_declare]
  cases s.scopes with
  | nil => exact .refl s
  | cons scope scopes => exact s.grows_declared scope _ _

theorem grows_inNewScope
    {body : ScopeId → Parser α}
    {s : ParserState}
    (hBody :
      s.opened.Grows
        ((body s.newScope).outcome s.opened).2) :
    s.Grows ((inNewScope body).outcome s).2 := by
  rw [outcome_inNewScope]
  rcases hRun : (body s.newScope).outcome s.opened with
    ⟨d | a, t⟩
  · rw [hRun] at hBody
    exact hBody.closed
  · rw [hRun] at hBody
    exact hBody.closed

theorem grows_recovering
    {p : Parser α}
    {s : ParserState}
    (stop : TokenStream → Bool)
    (hBody : s.Grows (p.outcome s).2) :
    s.Grows ((recovering stop p).outcome s).2 := by
  rw [outcome_recovering]
  rcases hRun : p.outcome s with ⟨d | a, t⟩
  · rw [hRun] at hBody
    exact hBody.resumed stop d
  · rw [hRun] at hBody
    exact hBody

end Parser

/- States grow along all ways to put parsers together. -/
def ParserProperty.growth : ParserProperty where
  holds p s := s.Grows (p.outcome s).2
  ofPure _ s := .refl s
  ofThrow {_ _ s} _ := .refl s
  ofBind := grows_bind
  ofLook f s := grows_look f s
  ofMove {f s} _ := grows_move f s
  ofDeclare visibleFrom isMutable s _ :=
    grows_declare _ _ _ visibleFrom isMutable s
  ofNewScope := grows_inNewScope
  ofRecovering := grows_recovering

/- What is read alike from all states grows in each. -/
theorem Parser.grows_of_matches
    {α : Type}
    {R : α → α → Prop}
    {p : Parser α}
    (hMatches :
      ∀ ts, ParserProperty.growth.Matches ts R p p) :
    p.Grows :=
  fun s => (hMatches _ s s (.refl s) rfl).holds

------------------------------------------------------------
-- The grammar
------------------------------------------------------------

namespace Grammar

/-
  Each parser of the grammar leaves a state that has grown,
  for the given parsers of nested expressions and blocks.
-/
structure Grows (nested : Nested) : Prop where
  typeExpr : ∀ power, (typeExpr power).Grows
  joinNext :
    ∀ join {operand : Parser TypeExpr},
      operand.Grows →
        ∀ left, (joinNext join operand left).Grows
  optionalType :
    ∀ separator fallback,
      (optionalType separator fallback).Grows
  separated :
    ∀ {α : Type} {item : Parser α},
      item.Grows →
        ∀ separator terminator,
          (separated separator terminator item).Grows
  argument : (argument nested).Grows
  arguments : (arguments nested).Grows
  parameter : (parameter nested).Grows
  lambdaParameter : lambdaParameter.Grows
  signature : (signature nested).Grows
  stringLiteral : ∀ quote, (stringLiteral nested quote).Grows
  starter :
    ∀ (starter : Starter) token,
      (starter.parser nested token).Grows
  extender :
    ∀ (extender : Extender) left operator power,
      (extender.parser nested left operator power).Grows
  expression : ∀ power, (expression nested power).Grows
  required : ∀ power, (nested.required power).Grows
  variableDecl : ∀ kind, (variableDecl nested kind).Grows
  functionDecl : (functionDecl nested).Grows
  expressionStatement : (expressionStatement nested).Grows
  statement : (statement nested).Grows
  nextStatement : (nextStatement nested).Grows
  block : ∀ start, (block nested start).Grows
  importEntry : importEntry.Grows
  importFrom : (importFrom nested).Grows
  nextImport : (nextImport nested).Grows
  declaration : (declaration nested).Grows
  nextDeclaration : (nextDeclaration nested).Grows
  programItems : (programItems nested).Grows
  program_error :
    ∀ {s d t},
      (program nested).outcome s = (.error d, t) →
        s.Grows t
  program_ok :
    ∀ {s p t},
      (program nested).outcome s = (.ok p, t) →
        t.symbols = .empty ∧
          s.Grows (t.withSymbols p.symbols)

open ParserProperty

variable {nested : Nested}

/- An operand may be read by any parser. -/
theorem grows_joinNext
    (join : TypeJoin)
    {operand : Parser TypeExpr}
    (hOperand : operand.Grows)
    (left : TypeExpr) :
    (joinNext join operand left).Grows :=
  (grows_accept _).bind
    (Grows.ite (hOperand.bind fun _ => grows_pure _)
      (grows_pure _))

/- Any token may be expected in front of a type. -/
theorem grows_optionalType
    (separator : TokenKind)
    (fallback : Span) :
    (optionalType separator fallback).Grows :=
  (grows_accept separator).bind
    (Grows.ite
      (grows_of_matches fun _ => matches_typeExpr .loosest)
      (grows_pure _))

/- A variable may be of any kind, also of one that is none. -/
theorem grows_variableDecl
    (hNested :
      ∀ ts, ParserProperty.growth.NestedMatches ts nested)
    (kind : DefinitionKind) :
    (variableDecl nested kind).Grows := by
  refine grows_consume.bind fun keyword => ?_
  refine (grows_of_matches fun _ => matches_expectName).bind
    fun name => ?_
  refine (grows_optionalType .colon name.span).bind
    fun type => ?_
  refine (grows_of_matches fun ts =>
    matches_behind (hNested ts) rfl).bind fun value => ?_
  refine (grows_of_matches fun _ =>
    matches_expect rfl _).bind fun stop => ?_
  exact (grows_declare _ _ _ _ _).bind fun _ => grows_pure _

/- The symbols of a program are what its items made. -/
theorem grows_program
    {s : ParserState}
    (hItems : (programItems nested).Grows) :
    match (program nested).outcome s with
    | (.error _, t) => s.Grows t
    | (.ok p, t) =>
        t.symbols = .empty ∧
          s.Grows (t.withSymbols p.symbols) := by
  have hBody := hItems s.opened
  rw [outcome_program]
  rcases hRun : (programItems nested).outcome s.opened with
    ⟨d | items, u⟩
  · rw [hRun] at hBody
    exact hBody.closed
  · rw [hRun] at hBody
    exact ⟨rfl, hBody.closed⟩

/-
  Whatever parser of the grammar runs from whatever state,
  and however it ends: the open scopes are the same, the
  diagnostics are only appended to, and symbols only grow.
-/
theorem grows_nestedWithin (depth : Nat) :
    Grammar.Grows (nestedWithin depth) := by
  have hNested (ts : List Token) :
      ParserProperty.growth.NestedMatches ts
        (nestedWithin depth) :=
    nestedMatches_nestedWithin depth
  have hItems : (programItems (nestedWithin depth)).Grows :=
    grows_of_matches fun ts =>
      matches_programItems (hNested ts)
  exact
    { typeExpr := fun power =>
        grows_of_matches fun _ => matches_typeExpr power
      joinNext := grows_joinNext
      optionalType := grows_optionalType
      separated := Parser.Grows.separated
      argument :=
        grows_of_matches fun ts =>
          matches_argument (hNested ts)
      arguments :=
        grows_of_matches fun ts =>
          matches_arguments (hNested ts)
      parameter :=
        grows_of_matches fun ts =>
          matches_parameter (hNested ts)
      lambdaParameter :=
        grows_of_matches fun _ => matches_lambdaParameter
      signature :=
        grows_of_matches fun ts =>
          matches_signature (hNested ts)
      stringLiteral := fun quote =>
        grows_of_matches fun ts =>
          matches_stringLiteral (hNested ts) (.refl quote)
      starter := fun starter token =>
        grows_of_matches fun ts =>
          matches_started (hNested ts) starter token
      extender := fun extender left operator power =>
        grows_of_matches fun ts =>
          matches_extender (hNested ts) extender left
            (.refl operator) power
      expression := fun power =>
        grows_of_matches fun ts =>
          matches_expression (hNested ts) power
      required := fun power =>
        grows_of_matches fun ts =>
          matches_required (hNested ts) power
      variableDecl := grows_variableDecl hNested
      functionDecl :=
        grows_of_matches fun ts =>
          matches_functionDecl (hNested ts)
      expressionStatement :=
        grows_of_matches fun ts =>
          matches_expressionStatement (hNested ts)
      statement :=
        grows_of_matches fun ts =>
          matches_statement (hNested ts)
      nextStatement :=
        grows_of_matches fun ts =>
          matches_nextStatement (hNested ts)
      block := fun start =>
        grows_of_matches fun ts =>
          matches_block (hNested ts) (.refl start)
      importEntry :=
        grows_of_matches fun _ => matches_importEntry
      importFrom :=
        grows_of_matches fun ts =>
          matches_importFrom (hNested ts)
      nextImport :=
        grows_of_matches fun ts =>
          matches_nextImport (hNested ts)
      declaration :=
        grows_of_matches fun ts =>
          matches_declaration (hNested ts)
      nextDeclaration :=
        grows_of_matches fun ts =>
          matches_nextDeclaration (hNested ts)
      programItems := hItems
      program_error := by
        intro s d t hRun
        have hProgram := grows_program (s := s) hItems
        rw [hRun] at hProgram
        exact hProgram
      program_ok := by
        intro s p t hRun
        have hProgram := grows_program (s := s) hItems
        rw [hRun] at hProgram
        exact hProgram }

end Grammar

end SourceCheck
