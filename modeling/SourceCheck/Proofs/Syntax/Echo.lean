import SourceCheck.Proofs.Parsing.Comparison
import SourceCheck.Proofs.Syntax.Equivalence
import SourceCheck.Proofs.Syntax.Passage

/-
  Derivations from the same words.

  Where the same words are ahead, a phrase is read in the
  same way, wherever the words stand and whatever was defined
  before, and the trees are equivalent.  A name is free in
  the scopes of the second reading if it is free in those of
  the first; scopes around the phrase may be missing.

  Key definitions include:
    * `ParserState.Echoes`
    * `Phrase.Repeats`

  Key theorems include:
    * `DerivesType.repeats`
    * `Derives.repeats`
-/

namespace SourceCheck

open SourceCheck.Parser

------------------------------------------------------------
-- Scopes
------------------------------------------------------------

/-
  Scopes of two sets of symbols correspond: what the second
  one binds is bound by the first one.
-/
structure Symbols.Includes
    (y z : Symbols)
    (a b : ScopeId) :
    Prop where
  lt_size : a < y.scopes.size
  hasLocal :
    ∀ name, z.hasLocal b name → y.hasLocal a name

namespace ParserState

variable {s s' t t' : ParserState}
variable {outer : List ScopeId}

/- A new scope binds nothing. -/
theorem hasLocal_opened
    (s : ParserState)
    (scope : ScopeId)
    (name : String) :
    s.opened.symbols.hasLocal scope name =
      s.symbols.hasLocal scope name := by
  unfold opened Symbols.openScope Symbols.hasLocal
    Symbols.local?
  dsimp only
  rw [Array.getElem?_push]
  split
  · rename_i hNew
    rw [hNew, Array.getElem?_eq_none (Nat.le_refl _)]
    rfl
  · rfl

/- A definition binds its name in its scope. -/
theorem hasLocal_bound
    (s : ParserState)
    (scope other : ScopeId)
    (d : Definition)
    (name : String) :
    (s.bound scope d).symbols.hasLocal other name =
      (decide
          (other = scope ∧ scope < s.symbols.scopes.size ∧
            name = d.name) ||
        s.symbols.hasLocal other name) := by
  unfold bound withSymbols Symbols.hasLocal Symbols.local?
  dsimp only
  rw [Array.getElem?_modify]
  by_cases hSame : scope = other
  · subst hSame
    rw [if_pos rfl]
    cases hScope : s.symbols.scopes[scope]? with
    | none =>
        have hLess : ¬ scope < s.symbols.scopes.size :=
          Nat.not_lt.2 (Array.getElem?_eq_none_iff.1 hScope)
        simp [hLess]
    | some found =>
        rcases Array.getElem?_eq_some_iff.1 hScope with
          ⟨hLess, -⟩
        simp only [Option.map_some, Option.bind_some,
          Scope.get?_insert]
        by_cases hName : name = d.name
        · simp [hName, hLess]
        · simp [hName]
  · rw [if_neg hSame, decide_eq_false
      fun hAll => hSame hAll.1.symm, Bool.false_or]

------------------------------------------------------------
-- Echoes
------------------------------------------------------------

/-
  The second state is before the same words.  Its scopes
  correspond to the innermost ones of the first state.
-/
structure Echoes
    (outer : List ScopeId)
    (s s' : ParserState) :
    Prop where
  ahead :
    s'.stream.ahead.map Token.word =
      s.stream.ahead.map Token.word
  last : s'.stream.last.word = s.stream.last.word
  scopes :
    ∃ inner,
      s.scopes = inner ++ outer ∧
        List.Forall₂ (s.symbols.Includes s'.symbols)
          inner s'.scopes
  nodup : s'.scopes.Nodup
  scopes_lt :
    ∀ scope ∈ s'.scopes, scope < s'.symbols.scopes.size

namespace Echoes

variable (hEchoes : s.Echoes outer s')
include hEchoes

theorem word_eq : s'.token.word = s.token.word := by
  have hAhead := hEchoes.ahead
  have hLast := hEchoes.last
  unfold token TokenStream.current
  cases hFirst : s.stream.ahead with
  | nil =>
      rw [hFirst, List.map_nil, List.map_eq_nil_iff] at hAhead
      rw [hAhead]
      exact hLast
  | cons a ts =>
      rw [hFirst, List.map_cons, List.map_eq_cons_iff]
        at hAhead
      rcases hAhead with ⟨b, us, hSecond, hWord, -⟩
      rw [hSecond]
      exact hWord

theorem kind_eq : s'.token.kind = s.token.kind :=
  kind_eq_of_word hEchoes.word_eq

theorem next : s.next.Echoes outer s'.next where
  ahead := by
    unfold ParserState.next
    dsimp only
    rw [TokenStream.ahead_consume, TokenStream.ahead_consume,
      List.map_tail, List.map_tail, hEchoes.ahead]
  last := by
    have hSame (s : ParserState) :
        s.next.stream.last = s.stream.last := by
      unfold ParserState.next TokenStream.consume
      cases s.stream.ahead <;> rfl
    rw [hSame, hSame]
    exact hEchoes.last
  scopes := hEchoes.scopes
  nodup := hEchoes.nodup
  scopes_lt := hEchoes.scopes_lt

theorem atNamed_iff : s'.AtNamed ↔ s.AtNamed := by
  unfold AtNamed
  rw [hEchoes.kind_eq, hEchoes.next.kind_eq]

theorem atFunction_iff : s'.AtFunction ↔ s.AtFunction := by
  unfold AtFunction
  rw [hEchoes.kind_eq, hEchoes.next.kind_eq]

/- Both open a scope. -/
theorem opened : s.opened.Echoes outer s'.opened := by
  rcases hEchoes.scopes with ⟨inner, hScopes, hPairs⟩
  have hSize (s : ParserState) :
      s.opened.symbols.scopes.size =
        s.symbols.scopes.size + 1 :=
    Array.size_push _
  have hPair (a b : ScopeId)
      (hIncludes : s.symbols.Includes s'.symbols a b) :
      s.opened.symbols.Includes s'.opened.symbols a b :=
    { lt_size := by
        rw [hSize]
        exact Nat.lt_succ_of_lt hIncludes.lt_size
      hasLocal := by
        intro name
        rw [hasLocal_opened, hasLocal_opened]
        exact hIncludes.hasLocal name }
  have hNew :
      s.opened.symbols.Includes s'.opened.symbols
        s.newScope s'.newScope :=
    { lt_size := by
        rw [hSize]
        exact Nat.lt_succ_self _
      hasLocal := by
        intro name hThere
        rw [hasLocal_opened] at hThere
        unfold newScope Symbols.hasLocal Symbols.local?
          at hThere
        rw [Array.getElem?_eq_none (Nat.le_refl _)] at hThere
        cases hThere }
  exact
    { ahead := hEchoes.ahead
      last := hEchoes.last
      scopes :=
        ⟨s.newScope :: inner,
          congrArg (s.newScope :: ·) hScopes,
          .cons hNew (hPairs.imp hPair)⟩
      nodup :=
        List.nodup_cons.2
          ⟨fun hMember =>
            Nat.lt_irrefl _
              (hEchoes.scopes_lt _ hMember),
            hEchoes.nodup⟩
      scopes_lt := by
        intro scope hMember
        rw [hSize]
        rcases List.mem_cons.1 hMember with rfl | hOld
        · exact Nat.lt_succ_self _
        · exact Nat.lt_succ_of_lt
            (hEchoes.scopes_lt scope hOld) }

/- Both close a scope. -/
theorem closed
    (hOpen : s'.scopes ≠ []) :
    s.closed.Echoes outer s'.closed := by
  rcases hEchoes.scopes with ⟨inner, hScopes, hPairs⟩
  have hNodup := hEchoes.nodup
  have hLess := hEchoes.scopes_lt
  cases hInner : s'.scopes with
  | nil => exact absurd hInner hOpen
  | cons b bs =>
      rw [hInner] at hPairs hNodup hLess
      rcases List.forall₂_cons_right_iff.1 hPairs with
        ⟨a, as, -, hRest, rfl⟩
      exact
        { ahead := hEchoes.ahead
          last := hEchoes.last
          scopes := by
            refine ⟨as, ?_, ?_⟩
            · unfold ParserState.closed
              rw [hScopes]
              rfl
            · unfold ParserState.closed
              rw [hInner]
              exact hRest
          nodup := by
            unfold ParserState.closed
            rw [hInner]
            exact hNodup.tail
          scopes_lt := by
            unfold ParserState.closed
            rw [hInner]
            exact fun scope hMember =>
              hLess scope (List.mem_cons_of_mem b hMember) }

/- What the first one may declare, the second one may. -/
theorem declares
    {d : Definition}
    {id : DefinitionId}
    {name : String}
    (hOpen : s'.scopes ≠ [])
    (hDeclares : s.Declares d id t)
    (hName : name = d.name)
    (kind : DefinitionKind)
    (span : Span)
    (visibleFrom : Nat)
    (isMutable : Bool) :
    ∃ t',
      s'.Declares
          ⟨name, kind, span, visibleFrom, isMutable, none⟩
          s'.symbols.definitions.size t' ∧
        t.Echoes outer t' := by
  generalize hDefinition :
    (⟨name, kind, span, visibleFrom, isMutable, none⟩ :
      Definition) = e
  have hName : e.name = d.name := by
    rw [← hDefinition]
    exact hName
  rcases hEchoes.scopes with ⟨inner, hScopes, hPairs⟩
  rcases hDeclares with ⟨-, scope, hHead, hFree, rfl⟩
  have hNodup := hEchoes.nodup
  cases hInner : s'.scopes with
  | nil => exact absurd hInner hOpen
  | cons b bs =>
      rw [hInner] at hPairs hNodup
      rcases List.forall₂_cons_right_iff.1 hPairs with
        ⟨a, as, hPair, hRest, rfl⟩
      have hScope : scope = a := by
        rw [hScopes] at hHead
        exact (Option.some.inj hHead).symm
      subst hScope
      have hSize (s : ParserState) (d : Definition) a :
          (s.bound a d).symbols.scopes.size =
            s.symbols.scopes.size :=
        Array.size_modify
      have hFreeThere :
          s'.symbols.hasLocal b e.name = false := by
        apply eq_false_of_ne_true
        intro hThere
        have hBound := hPair.hasLocal _ hThere
        rw [hName, hFree] at hBound
        cases hBound
      have hIncludes (a' b' : ScopeId)
          (hOld : s.symbols.Includes s'.symbols a' b')
          (hSame : b' = b → a' = scope) :
          (s.bound scope d).symbols.Includes
            (s'.bound b e).symbols a' b' :=
        { lt_size := by
            rw [hSize]
            exact hOld.lt_size
          hasLocal := by
            intro name hThere
            rw [hasLocal_bound] at hThere ⊢
            rw [Bool.or_eq_true, decide_eq_true_eq]
              at hThere ⊢
            refine hThere.imp ?_ (hOld.hasLocal name)
            rintro ⟨hHere, -, rfl⟩
            exact ⟨hSame hHere, hPair.lt_size, hName⟩ }
      refine ⟨s'.bound b e,
        ⟨rfl, b, by rw [hInner]; rfl, hFreeThere, rfl⟩,
        ?_⟩
      exact
        { ahead := hEchoes.ahead
          last := hEchoes.last
          scopes := by
            refine ⟨scope :: as, hScopes, ?_⟩
            change List.Forall₂ _ (scope :: as) s'.scopes
            rw [hInner]
            refine .cons (hIncludes _ _ hPair fun _ => rfl)
              (List.forall₂_iff_zip.2
                ⟨hRest.length_eq, fun hBoth => ?_⟩)
            refine hIncludes _ _
              (List.forall₂_zip hRest hBoth) ?_
            rintro rfl
            exact absurd (List.of_mem_zip hBoth).2
              (List.nodup_cons.1 hNodup).1
          nodup := hEchoes.nodup
          scopes_lt := by
            rw [hSize]
            exact hEchoes.scopes_lt }

end Echoes

end ParserState

open ParserState

------------------------------------------------------------
-- Scopes around phrases
------------------------------------------------------------

variable {s t s' t' : ParserState}
variable {outer : List ScopeId}

theorem ParserState.Declares.scopes_eq
    {d : Definition}
    {id : DefinitionId}
    (hDeclares : s.Declares d id t) :
    t.scopes = s.scopes := by
  rcases hDeclares.exists_scope with ⟨scope, -, -, rfl⟩
  rfl

/- Phrases close the scopes that they open. -/
theorem DerivesType.scopes_eq
    {phrase : TypePhrase}
    {y : TypeExpr}
    (hDerives : DerivesType phrase s y t) :
    t.scopes = s.scopes := by
  induction hDerives with
  | name _ => rfl
  | joined _ _ ihFirst ihMore => exact ihMore.trans ihFirst
  | stop _ => rfl
  | more _ _ _ ihRight ihMore => exact ihMore.trans ihRight
  | present _ _ ih => exact ih
  | absent _ => rfl

theorem Derives.scopes_eq
    {phrase : Phrase}
    {r : phrase.Result}
    (hDerives : Derives phrase s r t) :
    t.scopes = s.scopes := by
  have hType := @DerivesType.scopes_eq
  have hDeclared := @Declares.scopes_eq
  have hNext (s : ParserState) : s.next.scopes = s.scopes :=
    rfl
  have hOpened (s : ParserState) :
      s.opened.scopes = s.newScope :: s.scopes :=
    rfl
  have hClosed (s : ParserState) :
      s.closed.scopes = s.scopes.tail :=
    rfl
  induction hDerives with
  | _ => grind

------------------------------------------------------------
-- Written types
------------------------------------------------------------

/- The type is read again where the same words are. -/
def TypePhrase.Repeats
    (outer : List ScopeId)
    (s : ParserState)
    (y : TypeExpr)
    (t : ParserState) :
    TypePhrase → Prop
  | .operand joins =>
      ∀ {s'},
        s.Echoes outer s' →
          ∃ z t',
            DerivesType (.operand joins) s' z t' ∧
              t.Echoes outer t' ∧ y.equivalent z = true
  | .extensions join joins left =>
      ∀ {s' left'},
        s.Echoes outer s' →
          left.equivalent left' = true →
            ∃ z t',
              DerivesType (.extensions join joins left')
                  s' z t' ∧
                t.Echoes outer t' ∧ y.equivalent z = true
  | .behind separator power _ =>
      ∀ {s'} (fallback : Span),
        s.Echoes outer s' →
          ∃ z t',
            DerivesType (.behind separator power fallback)
                s' z t' ∧
              t.Echoes outer t' ∧ y.equivalent z = true

theorem DerivesType.repeats
    {phrase : TypePhrase}
    {y : TypeExpr}
    (hDerives : DerivesType phrase s y t) :
    phrase.Repeats outer s y t := by
  induction hDerives with
  | @name s hName =>
      intro s' hEchoes
      refine ⟨_, _, .name (by rwa [hEchoes.kind_eq]),
        hEchoes.next, ?_⟩
      simp only [TypeExpr.equivalent_new,
        TypeForm.equivalent,
        name_eq_of_word hEchoes.word_eq, decide_true]
  | joined _ _ ihFirst ihMore =>
      intro s' hEchoes
      rcases ihFirst hEchoes with
        ⟨x', t', hFirst, hThen, hSame⟩
      rcases ihMore hThen hSame with
        ⟨y', u', hMore, hLast, hBoth⟩
      exact ⟨y', u', .joined hFirst hMore, hLast, hBoth⟩
  | @stop join joins left s hStop =>
      intro s' left' hEchoes hLeft
      exact ⟨left', s', .stop (by rwa [hEchoes.kind_eq]),
        hEchoes, hLeft⟩
  | @more join joins left s x t y u hJoin _ _ ihRight
      ihMore =>
      intro s' left' hEchoes hLeft
      rcases ihRight hEchoes.next with
        ⟨x', t', hRight, hThen, hSame⟩
      have hJoined :
          (join.combine left x).equivalent
            (join.combine left' x') = true := by
        cases join <;>
          simp only [TypeJoin.combine,
            TypeExpr.equivalent_new, TypeForm.equivalent,
            hLeft, hSame, Bool.and_self]
      rcases ihMore hThen hJoined with
        ⟨y', u', hMore, hLast, hBoth⟩
      exact ⟨y', u',
        .more (by rwa [hEchoes.kind_eq]) hRight hMore,
        hLast, hBoth⟩
  | @present separator power fallback s x t hThere _ ih =>
      intro s' other hEchoes
      rcases ih hEchoes.next with
        ⟨x', t', hType, hThen, hSame⟩
      exact ⟨x', t',
        .present (by rwa [hEchoes.kind_eq]) hType, hThen,
        hSame⟩
  | @absent separator power fallback s hNone =>
      intro s' other hEchoes
      refine ⟨_, s', .absent (by rwa [hEchoes.kind_eq]),
        hEchoes, ?_⟩
      simp only [TypeExpr.equivalent_new,
        TypeForm.equivalent]

------------------------------------------------------------
-- Phrases
------------------------------------------------------------

namespace Item

/- The item makes a definition in the scope around it. -/
def declares : Item → Bool
  | argument => false
  | parameter => true
  | lambdaParameter => true
  | entry => false

/- Two items mean the same. -/
def same : (i : Item) → i.Result → i.Result → Bool
  | argument => Argument.equivalent
  | parameter => Parameter.equivalent
  | lambdaParameter => Parameter.equivalent
  | entry => ImportEntry.equivalent

/- Items with the same names and words do. -/
def AllSame
    (i : Item)
    (xs ys : List i.Result) :
    Prop :=
  List.Forall₂ (i.same · · = true) xs ys

end Item

/-
  The phrase is derived from another state, up to one that
  echoes the state given, and for a tree like the one given.
-/
def Phrase.Again
    (outer : List ScopeId)
    (phrase : Phrase)
    (s' t : ParserState)
    (same : phrase.Result → Prop) :
    Prop :=
  ∃ r t',
    Derives phrase s' r t' ∧ t.Echoes outer t' ∧ same r

/-
  The phrase is read again where the same words are.  What
  it makes definitions in has to be open there.
-/
def Phrase.Repeats
    (outer : List ScopeId) :
    (phrase : Phrase) →
      ParserState → phrase.Result → ParserState → Prop
  | .expression p, s, e, t =>
      ∀ {s'},
        s.Echoes outer s' →
          (Phrase.expression p).Again outer s' t e.Mirrors
  | .extensions p left, s, e, t =>
      ∀ {s' left'},
        s.Echoes outer s' →
          left.Mirrors left' →
            (Phrase.extensions p left').Again outer s' t
              e.Mirrors
  | .start starter token, s, e, t =>
      ∀ {s' token'},
        s.Echoes outer s' →
          token'.word = token.word →
            (Phrase.start starter token').Again outer s' t
              e.Mirrors
  | .extension extender left operator q, s, e, t =>
      ∀ {s' left' operator'},
        s.Echoes outer s' →
          left.Mirrors left' →
            operator'.word = operator.word →
              (Phrase.extension extender left'
                  operator' q).Again outer s' t
                e.Mirrors
  | .behind kind, s, o, t =>
      ∀ {s'},
        s.Echoes outer s' →
          (Phrase.behind kind).Again outer s' t
            (Option.Rel Expr.Mirrors o)
  | .item i, s, x, t =>
      ∀ {s'},
        s.Echoes outer s' →
          (i.declares → s'.scopes ≠ []) →
            (Phrase.item i).Again outer s' t
              (i.same x · = true)
  | .items i, s, xs, t =>
      ∀ {s'},
        s.Echoes outer s' →
          (i.declares → s'.scopes ≠ []) →
            (Phrase.items i).Again outer s' t (i.AllSame xs)
  | .moreItems i, s, xs, t =>
      ∀ {s'},
        s.Echoes outer s' →
          (i.declares → s'.scopes ≠ []) →
            (Phrase.moreItems i).Again outer s' t
              (i.AllSame xs)
  | .signature, s, r, t =>
      ∀ {s'},
        s.Echoes outer s' →
          s'.scopes ≠ [] →
            Phrase.signature.Again outer s' t fun r' =>
              equivalentParameters r.1 r'.1 = true ∧
                r.2.equivalent r'.2 = true
  | .body, s, e, t =>
      ∀ {s'},
        s.Echoes outer s' →
          Phrase.body.Again outer s' t e.Mirrors
  | .namedBody, s, o, t =>
      ∀ {s'},
        s.Echoes outer s' →
          Phrase.namedBody.Again outer s' t
            (Option.Rel Expr.Mirrors o)
  | .parts, s, ps, t =>
      ∀ {s'},
        s.Echoes outer s' →
          Phrase.parts.Again outer s' t
            (List.Forall₂ StringPart.Mirrors ps)
  | .block _, s, e, t =>
      ∀ {s'} (start : Token),
        s.Echoes outer s' →
          (Phrase.block start).Again outer s' t e.Mirrors
  | .statements, s, xs, t =>
      ∀ {s'},
        s.Echoes outer s' →
          s'.scopes ≠ [] →
            Phrase.statements.Again outer s' t
              (List.Forall₂ (·.equivalent · = true) xs)
  | .statement, s, x, t =>
      ∀ {s'},
        s.Echoes outer s' →
          s'.scopes ≠ [] →
            Phrase.statement.Again outer s' t
              (x.equivalent · = true)
  | .variableDecl kind, s, v, t =>
      ∀ {s'},
        s.Echoes outer s' →
          s'.scopes ≠ [] →
            (Phrase.variableDecl kind).Again outer s' t
              (v.equivalent · = true)
  | .functionDecl, s, f, t =>
      ∀ {s'},
        s.Echoes outer s' →
          s'.scopes ≠ [] →
            Phrase.functionDecl.Again outer s' t
              (f.equivalent · = true)

------------------------------------------------------------
-- Expressions
------------------------------------------------------------

theorem Phrase.Repeats.expression
    {power : Power}
    {starter : Starter}
    {first e : Expr}
    (hStart : s.token.kind.starter? = some starter)
    (ihFirst :
      Phrase.Repeats outer (.start starter s.token) s.next
        first t)
    (ihMore :
      Phrase.Repeats outer (.extensions power first) t e
        u) :
    Phrase.Repeats outer (.expression power) s e u := by
  intro s' hEchoes
  rcases ihFirst hEchoes.next hEchoes.word_eq with
    ⟨first', t', hFirst, hThen, hMirrors⟩
  rcases ihMore hThen hMirrors with
    ⟨e', u', hMore, hLast, hBoth⟩
  exact ⟨e', u',
    .expression (by rwa [hEchoes.kind_eq]) hFirst hMore,
    hLast, hBoth⟩

theorem Phrase.Repeats.more
    {power : Power}
    {left : Expr}
    {extender : Extender}
    {q : Power}
    {e f : Expr}
    (hOperator : s.token.kind.extender? = some (extender, q))
    (hTight : power < q)
    (ihExtension :
      Phrase.Repeats outer
        (.extension extender left s.token q) s.next e t)
    (ihMore :
      Phrase.Repeats outer (.extensions power e) t f u) :
    Phrase.Repeats outer (.extensions power left) s f
      u := by
  intro s' left' hEchoes hLeft
  rcases ihExtension hEchoes.next hLeft
    hEchoes.word_eq with
    ⟨e', t', hExtension, hThen, hMirrors⟩
  rcases ihMore hThen hMirrors with
    ⟨f', u', hMore, hLast, hBoth⟩
  exact ⟨f', u',
    .more (by rwa [hEchoes.kind_eq]) hTight hExtension
      hMore,
    hLast, hBoth⟩

theorem Phrase.Repeats.invocation
    {token : Token}
    {arguments : List Argument}
    (hOpen : s.token.kind = .openParen)
    (hClose : t.token.kind = .closeParen)
    (ih :
      Phrase.Repeats outer (.items .argument) s.next
        arguments t) :
    Phrase.Repeats outer (.start .reference token) s
      (.invocation token.name arguments
        (token.span.between t.token.span))
      t.next := by
  intro s' token' hEchoes hWord
  rcases ih hEchoes.next nofun with
    ⟨xs', t', hItems, hThen, hSame⟩
  refine ⟨_, t'.next,
    .invocation (by rwa [hEchoes.kind_eq]) hItems
      (by rwa [hThen.kind_eq]),
    hThen.next, ?_⟩
  rw [name_eq_of_word hWord]
  exact mirrors_invocation
    (equivalentArguments_of_forall₂ hSame) _ _ _

theorem Phrase.Repeats.unary
    {token : Token}
    {operand : Expr}
    (ih :
      Phrase.Repeats outer (.expression .unary) s operand
        t) :
    Phrase.Repeats outer (.start .unary token) s
      (.new
        (.unary
          (if token.kind = .kwNot then .not else .negate)
          operand)
        (token.span.between operand.span))
      t := by
  intro s' token' hEchoes hWord
  rcases ih hEchoes with
    ⟨e', t', hOperand, hThen, hMirrors⟩
  refine ⟨_, t', .unary hOperand, hThen, ?_⟩
  rw [kind_eq_of_word hWord]
  refine Expr.mirrors_new ?_ rfl rfl rfl
  simp only [ExprForm.equivalent, hMirrors.equivalent,
    decide_true, Bool.and_self]

theorem Phrase.Repeats.grouping
    {token : Token}
    {inner : Expr}
    (hClose : t.token.kind = .closeParen)
    (ih :
      Phrase.Repeats outer (.expression .loosest) s inner
        t) :
    Phrase.Repeats outer (.start .grouping token) s
      (.new (.parenthesized inner)
        (token.span.between t.token.span))
      t.next := by
  intro s' token' hEchoes _
  rcases ih hEchoes with
    ⟨e', t', hInner, hThen, hMirrors⟩
  refine ⟨_, t'.next,
    .grouping hInner (by rwa [hThen.kind_eq]),
    hThen.next, ?_⟩
  refine Expr.mirrors_new ?_ rfl rfl rfl
  simp only [ExprForm.equivalent, hMirrors.equivalent]

/- Who ends with a block ends with one again. -/
theorem Phrase.Repeats.conditional
    {token : Token}
    {condition thenBranch : Expr}
    {elseBranch : Option Expr}
    (hOpen : s.token.kind = .openParen)
    (hClose : t.token.kind = .closeParen)
    (ihCondition :
      Phrase.Repeats outer (.expression .loosest) s.next
        condition t)
    (ihThen :
      Phrase.Repeats outer (.expression .loosest) t.next
        thenBranch u)
    (ihElse :
      Phrase.Repeats outer (.behind .kwElse) u elseBranch
        v) :
    Phrase.Repeats outer (.start .conditional token) s
      (.new (.conditional condition thenBranch elseBranch)
        (token.span.between
          ((elseBranch.map (·.span)).getD thenBranch.span)))
      v := by
  intro s' token' hEchoes _
  rcases ihCondition hEchoes.next with
    ⟨c', t', hCondition, hFirst, hIf⟩
  rcases ihThen hFirst.next with
    ⟨e', u', hThen, hSecond, hMirrors⟩
  rcases ihElse hSecond with
    ⟨o', v', hElse, hLast, hOption⟩
  refine ⟨_, v',
    .conditional (by rwa [hEchoes.kind_eq]) hCondition
      (by rwa [hFirst.kind_eq]) hThen hElse,
    hLast, ?_⟩
  refine Expr.mirrors_new ?_ ?_ rfl rfl
  · simp only [ExprForm.equivalent, hIf.equivalent,
      hMirrors.equivalent,
      equivalentOptions_of_mirrors hOption, Bool.and_self]
  · cases hOption with
    | none =>
        simp only [ExprForm.endsWithBlock,
          hMirrors.endsWithBlock]
    | some hOther =>
        simp only [ExprForm.endsWithBlock,
          hOther.endsWithBlock]

/- The scope of a function is a new one there too. -/
theorem Phrase.Repeats.functionLiteral
    {token : Token}
    {parameters : List Parameter}
    {returnType : TypeExpr}
    {body : Expr}
    (hNone : ¬ s.token.kind.isName)
    (ihSignature :
      Phrase.Repeats outer .signature s.opened
        (parameters, returnType) t)
    (ihBody : Phrase.Repeats outer .body t body u) :
    Phrase.Repeats outer (.start .function token) s
      (.new
        (.function parameters returnType body s.newScope)
        (token.span.between body.span))
      u.closed := by
  intro s' token' hEchoes _
  rcases ihSignature hEchoes.opened
    (List.cons_ne_nil _ _) with
    ⟨r', t', hSignature, hThen, hParameters, hType⟩
  rcases ihBody hThen with
    ⟨body', u', hBody, hLast, hMirrors⟩
  have hOpen : u'.scopes ≠ [] := by
    rw [hBody.scopes_eq, hSignature.scopes_eq]
    exact List.cons_ne_nil _ _
  refine ⟨_, u'.closed,
    .functionLiteral (by rwa [hEchoes.kind_eq])
      hSignature hBody,
    hLast.closed hOpen, ?_⟩
  refine Expr.mirrors_new ?_ ?_ rfl rfl
  · simp only [ExprForm.equivalent, hParameters, hType,
      hMirrors.equivalent, Bool.and_self]
  · simp only [ExprForm.endsWithBlock,
      hMirrors.endsWithBlock]

theorem Phrase.Repeats.lambda
    {token : Token}
    {parameters : List Parameter}
    {body : Expr}
    (hClose : t.token.kind = .pipe)
    (ihItems :
      Phrase.Repeats outer (.items .lambdaParameter)
        s.opened parameters t)
    (ihBody :
      Phrase.Repeats outer (.expression .loosest) t.next
        body u) :
    Phrase.Repeats outer (.start .lambda token) s
      (.new (.lambda parameters body s.newScope)
        (token.span.between body.span))
      u.closed := by
  intro s' token' hEchoes _
  rcases ihItems hEchoes.opened
    (fun _ => List.cons_ne_nil _ _) with
    ⟨ps', t', hItems, hThen, hSame⟩
  rcases ihBody hThen.next with
    ⟨body', u', hBody, hLast, hMirrors⟩
  have hOpen : u'.scopes ≠ [] := by
    rw [hBody.scopes_eq]
    change t'.scopes ≠ []
    rw [hItems.scopes_eq]
    exact List.cons_ne_nil _ _
  refine ⟨_, u'.closed,
    .lambda hItems (by rwa [hThen.kind_eq]) hBody,
    hLast.closed hOpen, ?_⟩
  refine Expr.mirrors_new ?_ ?_ rfl rfl
  · simp only [ExprForm.equivalent,
      equivalentParameters_of_forall₂ hSame,
      hMirrors.equivalent, Bool.and_self]
  · simp only [ExprForm.endsWithBlock,
      hMirrors.endsWithBlock]

theorem Phrase.Repeats.retValue
    {token : Token}
    {value : Expr}
    (ih :
      Phrase.Repeats outer (.expression .loosest) s value
        t) :
    Phrase.Repeats outer (.start .ret token) s
      (.new (.ret (some value))
        (token.span.between value.span))
      t := by
  intro s' token' hEchoes _
  rcases ih hEchoes with
    ⟨e', t', hValue, hThen, hMirrors⟩
  refine ⟨_, t', .retValue hValue, hThen, ?_⟩
  refine Expr.mirrors_new ?_ rfl rfl rfl
  simp only [ExprForm.equivalent, equivalentOptions,
    hMirrors.equivalent]

theorem Phrase.Repeats.binary
    {left : Expr}
    {operator : Token}
    {q : Power}
    {o : BinaryOperator}
    {right : Expr}
    (hIs : operator.kind.binaryOperator? = some o)
    (ih : Phrase.Repeats outer (.expression q) s right t) :
    Phrase.Repeats outer
      (.extension .binary left operator q) s
      (.new (.binary left o right)
        (left.span.between right.span))
      t := by
  intro s' left' operator' hEchoes hLeft hWord
  rcases ih hEchoes with
    ⟨e', t', hRight, hThen, hMirrors⟩
  refine ⟨_, t',
    .binary (by rwa [kind_eq_of_word hWord]) hRight,
    hThen, ?_⟩
  refine Expr.mirrors_new ?_ rfl rfl rfl
  simp only [ExprForm.equivalent, hLeft.equivalent,
    hMirrors.equivalent, decide_true, Bool.and_self]

theorem Phrase.Repeats.assignment
    {left : Expr}
    {operator : Token}
    {q : Power}
    {o : AssignmentOperator}
    {value : Expr}
    (hIs : operator.kind.assignmentOperator? = some o)
    (ih :
      Phrase.Repeats outer (.expression q.lower) s value
        t) :
    Phrase.Repeats outer
      (.extension .assignment left operator q) s
      (.new (.assignment left o value)
        (left.span.between value.span))
      t := by
  intro s' left' operator' hEchoes hLeft hWord
  rcases ih hEchoes with
    ⟨e', t', hValue, hThen, hMirrors⟩
  refine ⟨_, t',
    .assignment (by rwa [kind_eq_of_word hWord]) hValue,
    hThen, ?_⟩
  refine Expr.mirrors_new ?_ rfl rfl rfl
  simp only [ExprForm.equivalent, hLeft.equivalent,
    hMirrors.equivalent, decide_true, Bool.and_self]

theorem Phrase.Repeats.member
    {left : Expr}
    {operator : Token}
    {q : Power}
    {right : Expr}
    (hName : s.token.kind.isName)
    (hIs : right.isReferenceOrInvocation)
    (ih : Phrase.Repeats outer (.expression q) s right t) :
    Phrase.Repeats outer
      (.extension .member left operator q) s
      (.new
        (.access left (operator.kind = .questionDot) right)
        (left.span.between right.span))
      t := by
  intro s' left' operator' hEchoes hLeft hWord
  rcases ih hEchoes with
    ⟨e', t', hRight, hThen, hMirrors⟩
  refine ⟨_, t',
    .member (by rwa [hEchoes.kind_eq]) hRight
      (hMirrors.isCalled.symm.trans hIs),
    hThen, ?_⟩
  rw [kind_eq_of_word hWord]
  refine Expr.mirrors_new ?_ rfl rfl rfl
  simp only [ExprForm.equivalent, hLeft.equivalent,
    hMirrors.equivalent, decide_true, Bool.and_self]

theorem Phrase.Repeats.call
    {left : Expr}
    {operator : Token}
    {q : Power}
    {arguments : List Argument}
    (hClose : t.token.kind = .closeParen)
    (ih :
      Phrase.Repeats outer (.items .argument) s arguments
        t) :
    Phrase.Repeats outer (.extension .call left operator q)
      s
      (.new (.call left arguments)
        (left.span.between t.token.span))
      t.next := by
  intro s' left' operator' hEchoes hLeft _
  rcases ih hEchoes nofun with
    ⟨xs', t', hItems, hThen, hSame⟩
  refine ⟨_, t'.next,
    .call hItems (by rwa [hThen.kind_eq]), hThen.next,
    ?_⟩
  refine Expr.mirrors_new ?_ rfl rfl rfl
  simp only [ExprForm.equivalent, hLeft.equivalent,
    equivalentArguments_of_forall₂ hSame, Bool.and_self]

------------------------------------------------------------
-- Items of lists
------------------------------------------------------------

theorem Phrase.Repeats.named
    {value : Expr}
    (hNamed : s.AtNamed)
    (ih :
      Phrase.Repeats outer (.expression .loosest)
        s.next.next value t) :
    Phrase.Repeats outer (.item .argument) s
      ⟨some s.token.name, value,
       s.token.span.between value.span⟩
      t := by
  intro s' hEchoes _
  rcases ih hEchoes.next.next with
    ⟨e', t', hValue, hThen, hMirrors⟩
  refine ⟨_, t',
    .named (hEchoes.atNamed_iff.2 hNamed) hValue, hThen,
    ?_⟩
  simp only [Item.same, Argument.equivalent,
    name_eq_of_word hEchoes.word_eq,
    hMirrors.equivalent, decide_true, Bool.and_self]

theorem Phrase.Repeats.positional
    {value : Expr}
    (hNone : ¬ s.AtNamed)
    (ih :
      Phrase.Repeats outer (.expression .loosest) s value
        t) :
    Phrase.Repeats outer (.item .argument) s
      ⟨none, value, value.span.between value.span⟩ t := by
  intro s' hEchoes _
  rcases ih hEchoes with
    ⟨e', t', hValue, hThen, hMirrors⟩
  refine ⟨_, t',
    .positional (mt hEchoes.atNamed_iff.1 hNone) hValue,
    hThen, ?_⟩
  simp only [Item.same, Argument.equivalent,
    hMirrors.equivalent, decide_true, Bool.and_self]

/- Parameters need the scope around them to be open. -/
theorem Phrase.Repeats.parameter
    {type : TypeExpr}
    {fallback : Option Expr}
    {span : Span}
    {id : DefinitionId}
    (hName : s.token.kind.isName)
    (hColon : s.next.token.kind = .colon)
    (hType :
      DerivesType (.operand (joinsAbove .loosest))
        s.next.next type t)
    (hDeclares :
      u.Declares
        ⟨s.token.name, .argument, span, span.stop.offset,
         false, none⟩
        id v)
    (ih :
      Phrase.Repeats outer (.behind .assignment) t fallback
        u) :
    Phrase.Repeats outer (.item .parameter) s
      ⟨s.token.name, type, fallback, id, span⟩ v := by
  intro s' hEchoes hOpen
  rcases hType.repeats hEchoes.next.next with
    ⟨type', t', hTyped, hThen, hSame⟩
  rcases ih hThen with
    ⟨fallback', u', hFallback, hLast, hOption⟩
  have hThere : u'.scopes ≠ [] := by
    rw [hFallback.scopes_eq, hTyped.scopes_eq]
    exact hOpen rfl
  have hNames := name_eq_of_word hEchoes.word_eq
  rcases hLast.declares hThere hDeclares hNames _ _ _ _
    with ⟨v', hDeclared, hEnd⟩
  refine ⟨_, v',
    .parameter (by rwa [hEchoes.kind_eq])
      (by rwa [hEchoes.next.kind_eq]) hTyped hFallback
      rfl hDeclared,
    hEnd, ?_⟩
  simp only [Item.same, Parameter.equivalent, hNames,
    hSame, equivalentOptions_of_mirrors hOption,
    decide_true, Bool.and_self]

theorem Phrase.Repeats.lambdaParameter
    {type : TypeExpr}
    {span : Span}
    {id : DefinitionId}
    (hName : s.token.kind.isName)
    (hType :
      DerivesType (.behind .colon .logicalOr s.token.span)
        s.next type t)
    (hDeclares :
      t.Declares
        ⟨s.token.name, .argument, span,
         s.token.span.start.offset, false, none⟩
        id u) :
    Phrase.Repeats outer (.item .lambdaParameter) s
      ⟨s.token.name, type, none, id, span⟩ u := by
  intro s' hEchoes hOpen
  rcases hType.repeats s'.token.span
    hEchoes.next with
    ⟨type', t', hTyped, hThen, hSame⟩
  have hThere : t'.scopes ≠ [] := by
    rw [hTyped.scopes_eq]
    exact hOpen rfl
  have hNames := name_eq_of_word hEchoes.word_eq
  rcases hThen.declares hThere hDeclares hNames _ _ _ _
    with ⟨u', hDeclared, hEnd⟩
  refine ⟨_, u',
    .lambdaParameter (by rwa [hEchoes.kind_eq]) hTyped
      rfl hDeclared,
    hEnd, ?_⟩
  simp only [Item.same, Parameter.equivalent, hNames,
    hSame, equivalentOptions, decide_true,
    Bool.and_self]

theorem Phrase.Repeats.entry
    (hName : s.token.kind.isName)
    (hNone : s.next.token.kind ≠ .kwAs) :
    Phrase.Repeats outer (.item .entry) s
      ⟨s.token.name, none, s.token.span⟩ s.next := by
  intro s' hEchoes _
  refine ⟨_, s'.next,
    .entry (by rwa [hEchoes.kind_eq])
      (by rwa [hEchoes.next.kind_eq]),
    hEchoes.next, ?_⟩
  simp only [Item.same, ImportEntry.equivalent,
    name_eq_of_word hEchoes.word_eq, decide_true,
    Bool.and_self]

theorem Phrase.Repeats.renamedEntry
    (hName : s.token.kind.isName)
    (hAs : s.next.token.kind = .kwAs)
    (hNewName : s.next.next.token.kind.isName) :
    Phrase.Repeats outer (.item .entry) s
      ⟨s.token.name, some s.next.next.token.name,
       s.token.span.between s.next.next.token.span⟩
      s.next.next.next := by
  intro s' hEchoes _
  have hThird := hEchoes.next.next
  refine ⟨_, s'.next.next.next,
    .renamedEntry (by rwa [hEchoes.kind_eq])
      (by rwa [hEchoes.next.kind_eq])
      (by rwa [hThird.kind_eq]),
    hThird.next, ?_⟩
  simp only [Item.same, ImportEntry.equivalent,
    name_eq_of_word hEchoes.word_eq,
    name_eq_of_word hThird.word_eq, decide_true,
    Bool.and_self]

theorem Phrase.Repeats.someItems
    {i : Item}
    {x : i.Result}
    {xs : List i.Result}
    (hSome : s.token.kind ≠ i.terminator)
    (ihFirst : Phrase.Repeats outer (.item i) s x t)
    (ihMore : Phrase.Repeats outer (.moreItems i) t xs u) :
    Phrase.Repeats outer (.items i) s (x :: xs) u := by
  intro s' hEchoes hOpen
  rcases ihFirst hEchoes hOpen with
    ⟨x', t', hFirst, hThen, hSame⟩
  rcases ihMore hThen
    (fun h => hFirst.scopes_eq ▸ hOpen h) with
    ⟨xs', u', hMore, hLast, hAll⟩
  exact ⟨x' :: xs', u',
    .someItems (by rwa [hEchoes.kind_eq]) hFirst hMore,
    hLast, .cons hSame hAll⟩

theorem Phrase.Repeats.nextItem
    {i : Item}
    {x : i.Result}
    {xs : List i.Result}
    (hComma : s.token.kind = .comma)
    (hSome : s.next.token.kind ≠ i.terminator)
    (ihItem : Phrase.Repeats outer (.item i) s.next x t)
    (ihMore : Phrase.Repeats outer (.moreItems i) t xs u) :
    Phrase.Repeats outer (.moreItems i) s (x :: xs) u := by
  intro s' hEchoes hOpen
  rcases ihItem hEchoes.next hOpen with
    ⟨x', t', hItem, hThen, hSame⟩
  rcases ihMore hThen
    (fun h => hItem.scopes_eq ▸ hOpen h) with
    ⟨xs', u', hMore, hLast, hAll⟩
  exact ⟨x' :: xs', u',
    .nextItem (by rwa [hEchoes.kind_eq])
      (by rwa [hEchoes.next.kind_eq]) hItem hMore,
    hLast, .cons hSame hAll⟩

------------------------------------------------------------
-- Functions and strings
------------------------------------------------------------

theorem Phrase.Repeats.signature
    {parameters : List Parameter}
    {returnType : TypeExpr}
    (hOpen : s.token.kind = .openParen)
    (hClose : t.token.kind = .closeParen)
    (hType :
      DerivesType (.behind .arrow .loosest t.token.span)
        t.next returnType u)
    (ih :
      Phrase.Repeats outer (.items .parameter) s.next
        parameters t) :
    Phrase.Repeats outer .signature s
      (parameters, returnType) u := by
  intro s' hEchoes hThere
  rcases ih hEchoes.next (fun _ => hThere) with
    ⟨ps', t', hItems, hThen, hSame⟩
  rcases hType.repeats t'.token.span
    hThen.next with ⟨type', u', hTyped, hLast, hBoth⟩
  exact ⟨(ps', type'), u',
    .signature (by rwa [hEchoes.kind_eq]) hItems
      (by rwa [hThen.kind_eq]) hTyped,
    hLast, equivalentParameters_of_forall₂ hSame, hBoth⟩

theorem Phrase.Repeats.namedValue
    {e : Expr}
    (hAssign : s.token.kind = .assignment)
    (hStop : t.token.kind = .semicolon)
    (ih :
      Phrase.Repeats outer (.expression .loosest) s.next e
        t) :
    Phrase.Repeats outer .namedBody s (some e) t.next := by
  intro s' hEchoes
  rcases ih hEchoes.next with
    ⟨e', t', hValue, hThen, hMirrors⟩
  exact ⟨some e', t'.next,
    .namedValue (by rwa [hEchoes.kind_eq]) hValue
      (by rwa [hThen.kind_eq]),
    hThen.next, .some hMirrors⟩

theorem Phrase.Repeats.textPart
    {parts : List StringPart}
    (hText : s.token.kind = .stringContent)
    (ih : Phrase.Repeats outer .parts s.next parts t) :
    Phrase.Repeats outer .parts s
      (.text s.token.value s.token.span :: parts) t := by
  intro s' hEchoes
  rcases ih hEchoes.next with
    ⟨ps', t', hMore, hThen, hSame⟩
  refine ⟨_, t',
    .textPart (by rwa [hEchoes.kind_eq]) hMore, hThen,
    .cons ?_ hSame⟩
  rw [value_eq_of_word hEchoes.word_eq]
  exact .text

theorem Phrase.Repeats.escapePart
    {c : Char}
    {parts : List StringPart}
    (hEscape : s.token.kind = .escapeSequence)
    (hChar : unescape? s.token.value = some c)
    (ih : Phrase.Repeats outer .parts s.next parts t) :
    Phrase.Repeats outer .parts s
      (.text c.toString s.token.span :: parts) t := by
  intro s' hEchoes
  rcases ih hEchoes.next with
    ⟨ps', t', hMore, hThen, hSame⟩
  have hValue := value_eq_of_word hEchoes.word_eq
  exact ⟨_, t',
    .escapePart (by rwa [hEchoes.kind_eq])
      (by rwa [hValue]) hMore,
    hThen, .cons .text hSame⟩

theorem Phrase.Repeats.embeddedPart
    {e : Expr}
    {parts : List StringPart}
    (hOpen : s.token.kind = .stringTemplateStart)
    (hClose : t.token.kind = .stringTemplateEnd)
    (ihExpr :
      Phrase.Repeats outer (.expression .loosest) s.next e
        t)
    (ihMore : Phrase.Repeats outer .parts t.next parts u) :
    Phrase.Repeats outer .parts s (.embedded e :: parts)
      u := by
  intro s' hEchoes
  rcases ihExpr hEchoes.next with
    ⟨e', t', hExpr, hThen, hMirrors⟩
  rcases ihMore hThen.next with
    ⟨ps', u', hMore, hLast, hSame⟩
  exact ⟨_, u',
    .embeddedPart (by rwa [hEchoes.kind_eq]) hExpr
      (by rwa [hThen.kind_eq]) hMore,
    hLast, .cons (.embedded hMirrors) hSame⟩

------------------------------------------------------------
-- Blocks and statements
------------------------------------------------------------

theorem Phrase.Repeats.block
    {start : Token}
    {statements : List Statement}
    (hClose : t.token.kind = .closeCurly)
    (ih :
      Phrase.Repeats outer .statements s.opened statements
        t) :
    Phrase.Repeats outer (.block start) s
      (.new (.block statements s.newScope)
        (start.span.between t.token.span))
      t.next.closed := by
  intro s' start' hEchoes
  rcases ih hEchoes.opened (List.cons_ne_nil _ _) with
    ⟨xs', t', hStatements, hThen, hSame⟩
  have hOpen : t'.scopes ≠ [] := by
    rw [hStatements.scopes_eq]
    exact List.cons_ne_nil _ _
  refine ⟨_, t'.next.closed,
    .block hStatements (by rwa [hThen.kind_eq]),
    hThen.next.closed hOpen, ?_⟩
  refine Expr.mirrors_new ?_ ?_ rfl rfl
  · simp only [ExprForm.equivalent,
      equivalentStatements_of_forall₂ hSame]
  · simp only [ExprForm.endsWithBlock]

theorem Phrase.Repeats.someStatements
    {x : Statement}
    {xs : List Statement}
    (hSome : s.token.kind ≠ .closeCurly)
    (hGoesOn : s.token.kind ≠ .eof)
    (ihFirst : Phrase.Repeats outer .statement s x t)
    (ihMore : Phrase.Repeats outer .statements t xs u) :
    Phrase.Repeats outer .statements s (x :: xs) u := by
  intro s' hEchoes hOpen
  rcases ihFirst hEchoes hOpen with
    ⟨x', t', hFirst, hThen, hSame⟩
  rcases ihMore hThen (hFirst.scopes_eq ▸ hOpen) with
    ⟨xs', u', hMore, hLast, hAll⟩
  exact ⟨x' :: xs', u',
    .someStatements (by rwa [hEchoes.kind_eq])
      (by rwa [hEchoes.kind_eq]) hFirst hMore,
    hLast, .cons hSame hAll⟩

theorem Phrase.Repeats.variableStatement
    {v : VariableDecl}
    (hKeyword : s.token.kind = .kwVal ∨ s.token.kind = .kwVar)
    (ih :
      Phrase.Repeats outer (.variableDecl .localVariable) s
        v t) :
    Phrase.Repeats outer .statement s (.variable v) t := by
  intro s' hEchoes hOpen
  rcases ih hEchoes hOpen with
    ⟨v', t', hVariable, hThen, hSame⟩
  refine ⟨_, t',
    .variableStatement (by rwa [hEchoes.kind_eq])
      hVariable,
    hThen, ?_⟩
  simp only [Statement.equivalent, hSame]

theorem Phrase.Repeats.functionStatement
    {f : FunctionDecl}
    (hKeyword : s.AtFunction)
    (ih : Phrase.Repeats outer .functionDecl s f t) :
    Phrase.Repeats outer .statement s (.function f) t := by
  intro s' hEchoes hOpen
  rcases ih hEchoes hOpen with
    ⟨f', t', hFunction, hThen, hSame⟩
  refine ⟨_, t',
    .functionStatement
      (hEchoes.atFunction_iff.2 hKeyword) hFunction,
    hThen, ?_⟩
  simp only [Statement.equivalent, hSame]

theorem Phrase.Repeats.endedStatement
    {e : Expr}
    (hVal : s.token.kind ≠ .kwVal)
    (hVar : s.token.kind ≠ .kwVar)
    (hFunction : ¬ s.AtFunction)
    (hStop : t.token.kind = .semicolon)
    (ih : Phrase.Repeats outer (.expression .loosest) s e t) :
    Phrase.Repeats outer .statement s (.expression e)
      t.next := by
  intro s' hEchoes _
  rcases ih hEchoes with
    ⟨e', t', hExpr, hThen, hMirrors⟩
  refine ⟨_, t'.next,
    .endedStatement (by rwa [hEchoes.kind_eq])
      (by rwa [hEchoes.kind_eq])
      (mt hEchoes.atFunction_iff.1 hFunction) hExpr
      (by rwa [hThen.kind_eq]),
    hThen.next, ?_⟩
  simp only [Statement.equivalent, hMirrors.equivalent]

/-
  What ends a statement without a semicolon ends the
  other.
-/
theorem Phrase.Repeats.openStatement
    {e : Expr}
    (hVal : s.token.kind ≠ .kwVal)
    (hVar : s.token.kind ≠ .kwVar)
    (hFunction : ¬ s.AtFunction)
    (hNone : t.token.kind ≠ .semicolon)
    (hStop : e.endsWithBlock ∨ t.token.kind = .closeCurly)
    (ih : Phrase.Repeats outer (.expression .loosest) s e t) :
    Phrase.Repeats outer .statement s (.expression e)
      t := by
  intro s' hEchoes _
  rcases ih hEchoes with
    ⟨e', t', hExpr, hThen, hMirrors⟩
  refine ⟨_, t',
    .openStatement (by rwa [hEchoes.kind_eq])
      (by rwa [hEchoes.kind_eq])
      (mt hEchoes.atFunction_iff.1 hFunction) hExpr
      (by rwa [hThen.kind_eq])
      (by
        rwa [hThen.kind_eq, ← hMirrors.endsWithBlock]),
    hThen, ?_⟩
  simp only [Statement.equivalent, hMirrors.equivalent]

------------------------------------------------------------
-- Declarations
------------------------------------------------------------

theorem Phrase.Repeats.variableDecl
    {kind : DefinitionKind}
    {type : TypeExpr}
    {initializer : Option Expr}
    {span : Span}
    {id : DefinitionId}
    (hKeyword : s.token.kind ≠ .eof)
    (hName : s.next.token.kind.isName)
    (hType :
      DerivesType
        (.behind .colon .loosest s.next.token.span)
        s.next.next type t)
    (hStop : u.token.kind = .semicolon)
    (hDeclares :
      u.next.Declares
        ⟨s.next.token.name, kind, span, span.stop.offset,
         s.token.kind = .kwVar, none⟩
        id v)
    (ih :
      Phrase.Repeats outer (.behind .assignment) t
        initializer u) :
    Phrase.Repeats outer (.variableDecl kind) s
      ⟨s.token.kind = .kwVar, s.next.token.name, type,
       initializer, id, span⟩
      v := by
  intro s' hEchoes hOpen
  have hNames := name_eq_of_word hEchoes.next.word_eq
  rcases hType.repeats s'.next.token.span
    hEchoes.next.next with
    ⟨type', t', hTyped, hThen, hSame⟩
  rcases ih hThen with
    ⟨initializer', u', hInitializer, hLast, hOption⟩
  have hThere : u'.next.scopes ≠ [] := by
    change u'.scopes ≠ []
    rw [hInitializer.scopes_eq, hTyped.scopes_eq]
    exact hOpen
  rcases hLast.next.declares hThere hDeclares hNames
    _ _ _ _ with ⟨v', hDeclared, hEnd⟩
  refine ⟨_, v',
    .variableDecl (by rwa [hEchoes.kind_eq])
      (by rwa [hEchoes.next.kind_eq]) hTyped hInitializer
      (by rwa [hLast.kind_eq]) rfl hDeclared,
    hEnd, ?_⟩
  simp only [VariableDecl.equivalent, hEchoes.kind_eq,
    hNames, hSame, equivalentOptions_of_mirrors hOption,
    decide_true, Bool.and_self]

/- The name is declared behind the scope of the function. -/
theorem Phrase.Repeats.functionDecl
    {parameters : List Parameter}
    {returnType : TypeExpr}
    {body : Option Expr}
    {span : Span}
    {id : DefinitionId}
    (hKeyword : s.token.kind = .kwFun)
    (hName : s.next.token.kind.isName)
    (hDeclares :
      u.closed.Declares
        ⟨s.next.token.name, .function, span,
         s.next.token.span.start.offset, false, none⟩
        id v)
    (ihSignature :
      Phrase.Repeats outer .signature s.next.next.opened
        (parameters, returnType) t)
    (ihBody : Phrase.Repeats outer .namedBody t body u) :
    Phrase.Repeats outer .functionDecl s
      ⟨s.next.token.name, parameters, returnType, body,
       s.next.next.newScope, id, span⟩
      v := by
  intro s' hEchoes hOpen
  have hNames := name_eq_of_word hEchoes.next.word_eq
  rcases ihSignature hEchoes.next.next.opened
    (List.cons_ne_nil _ _) with
    ⟨r', t', hSignature, hThen, hParameters, hType⟩
  rcases ihBody hThen with
    ⟨body', u', hBody, hLast, hOption⟩
  have hScopes :
      u'.scopes = s'.next.next.opened.scopes := by
    rw [hBody.scopes_eq, hSignature.scopes_eq]
  have hInside : u'.scopes ≠ [] := by
    rw [hScopes]
    exact List.cons_ne_nil _ _
  have hThere : u'.closed.scopes ≠ [] := by
    unfold ParserState.closed
    rw [hScopes]
    exact hOpen
  rcases (hLast.closed hInside).declares hThere hDeclares
    hNames _ _ _ _ with ⟨v', hDeclared, hEnd⟩
  refine ⟨_, v',
    .functionDecl (by rwa [hEchoes.kind_eq])
      (by rwa [hEchoes.next.kind_eq]) hSignature hBody
      rfl hDeclared,
    hEnd, ?_⟩
  simp only [FunctionDecl.equivalent, hNames,
    hParameters, hType,
    equivalentOptions_of_mirrors hOption, decide_true,
    Bool.and_self]

------------------------------------------------------------
-- Whole derivations
------------------------------------------------------------

theorem Derives.repeats
    {phrase : Phrase}
    {r : phrase.Result}
    (hDerives : Derives phrase s r t) :
    phrase.Repeats outer s r t := by
  induction hDerives with
  | expression hStart _ _ ihFirst ihMore =>
      exact Phrase.Repeats.expression hStart ihFirst ihMore
  | stop hStop =>
      intro s' left' hEchoes hLeft
      exact ⟨left', s', .stop (by rwa [hEchoes.kind_eq]),
        hEchoes, hLeft⟩
  | more hOperator hTight _ _ ihExtension ihMore =>
      exact Phrase.Repeats.more hOperator hTight ihExtension
        ihMore
  | @int token form s hForm =>
      intro s' token' hEchoes hWord
      have hValue := value_eq_of_word hWord
      exact ⟨_, s', .int (by rwa [hValue]), hEchoes,
        mirrors_intForm hForm _ _⟩
  | @boolean token s =>
      intro s' token' hEchoes hWord
      refine ⟨_, s', .boolean, hEchoes, ?_⟩
      rw [kind_eq_of_word hWord]
      refine Expr.mirrors_new ?_ rfl rfl rfl
      simp only [ExprForm.equivalent, decide_true]
  | @string token s parts t _ hClose ih =>
      intro s' token' hEchoes hWord
      rcases ih hEchoes with
        ⟨parts', t', hParts, hThen, hSame⟩
      exact ⟨_, t'.next,
        .string hParts (by rwa [hThen.kind_eq]),
        hThen.next, mirrors_stringForm hSame _ _⟩
  | reference hNone =>
      intro s' token' hEchoes hWord
      refine ⟨_, s', .reference (by rwa [hEchoes.kind_eq]),
        hEchoes, ?_⟩
      rw [name_eq_of_word hWord]
      exact mirrors_reference _ _ _
  | invocation hOpen _ hClose ih =>
      exact Phrase.Repeats.invocation hOpen hClose ih
  | unary _ ih => exact Phrase.Repeats.unary ih
  | grouping _ hClose ih =>
      exact Phrase.Repeats.grouping hClose ih
  | startBlock _ ih =>
      intro s' token' hEchoes _
      rcases ih token' hEchoes with
        ⟨e', t', hBlock, hThen, hMirrors⟩
      exact ⟨e', t', .startBlock hBlock, hThen, hMirrors⟩
  | conditional hOpen _ hClose _ _ ihCondition ihThen ihElse =>
      exact Phrase.Repeats.conditional hOpen hClose
        ihCondition ihThen ihElse
  | functionLiteral hNone _ _ ihSignature ihBody =>
      exact Phrase.Repeats.functionLiteral hNone ihSignature
        ihBody
  | lambda _ hClose _ ihItems ihBody =>
      exact Phrase.Repeats.lambda hClose ihItems ihBody
  | retValue _ ih => exact Phrase.Repeats.retValue ih
  | retNothing hNone =>
      intro s' token' hEchoes _
      refine ⟨_, s', .retNothing (by rwa [hEchoes.kind_eq]),
        hEchoes, ?_⟩
      refine Expr.mirrors_new ?_ rfl rfl rfl
      simp only [ExprForm.equivalent, equivalentOptions]
  | binary hIs _ ih => exact Phrase.Repeats.binary hIs ih
  | assignment hIs _ ih =>
      exact Phrase.Repeats.assignment hIs ih
  | member hName _ hIs ih =>
      exact Phrase.Repeats.member hName hIs ih
  | call _ hClose ih => exact Phrase.Repeats.call hClose ih
  | present hThere _ ih =>
      intro s' hEchoes
      rcases ih hEchoes.next with
        ⟨e', t', hValue, hThen, hMirrors⟩
      exact ⟨some e', t',
        .present (by rwa [hEchoes.kind_eq]) hValue, hThen,
        .some hMirrors⟩
  | absent hNone =>
      intro s' hEchoes
      exact ⟨none, s', .absent (by rwa [hEchoes.kind_eq]),
        hEchoes, .none⟩
  | named hNamed _ ih =>
      exact Phrase.Repeats.named hNamed ih
  | positional hNone _ ih =>
      exact Phrase.Repeats.positional hNone ih
  | parameter hName hColon hType _ _ hDeclares ih =>
      exact Phrase.Repeats.parameter hName hColon hType
        hDeclares ih
  | lambdaParameter hName hType _ hDeclares =>
      exact Phrase.Repeats.lambdaParameter hName hType
        hDeclares
  | entry hName hNone =>
      exact Phrase.Repeats.entry hName hNone
  | renamedEntry hName hAs hNewName =>
      exact Phrase.Repeats.renamedEntry hName hAs hNewName
  | noItems hNone =>
      intro s' hEchoes _
      exact ⟨[], s', .noItems (by rwa [hEchoes.kind_eq]),
        hEchoes, .nil⟩
  | someItems hSome _ _ ihFirst ihMore =>
      exact Phrase.Repeats.someItems hSome ihFirst ihMore
  | lastItem hNone =>
      intro s' hEchoes _
      exact ⟨[], s', .lastItem (by rwa [hEchoes.kind_eq]),
        hEchoes, .nil⟩
  | trailingComma hComma hNone =>
      intro s' hEchoes _
      exact ⟨[], s'.next,
        .trailingComma (by rwa [hEchoes.kind_eq])
          (by rwa [hEchoes.next.kind_eq]),
        hEchoes.next, .nil⟩
  | nextItem hComma hSome _ _ ihItem ihMore =>
      exact Phrase.Repeats.nextItem hComma hSome ihItem
        ihMore
  | signature hOpen _ hClose hType ih =>
      exact Phrase.Repeats.signature hOpen hClose hType ih
  | bodyValue hAssign _ ih =>
      intro s' hEchoes
      rcases ih hEchoes.next with
        ⟨e', t', hValue, hThen, hMirrors⟩
      exact ⟨e', t',
        .bodyValue (by rwa [hEchoes.kind_eq]) hValue, hThen,
        hMirrors⟩
  | bodyBlock hOpen _ ih =>
      intro s' hEchoes
      rcases ih s'.token hEchoes.next with
        ⟨e', t', hBlock, hThen, hMirrors⟩
      exact ⟨e', t',
        .bodyBlock (by rwa [hEchoes.kind_eq]) hBlock, hThen,
        hMirrors⟩
  | namedValue hAssign _ hStop ih =>
      exact Phrase.Repeats.namedValue hAssign hStop ih
  | namedBlock hOpen _ ih =>
      intro s' hEchoes
      rcases ih s'.token hEchoes.next with
        ⟨e', t', hBlock, hThen, hMirrors⟩
      exact ⟨some e', t',
        .namedBlock (by rwa [hEchoes.kind_eq]) hBlock, hThen,
        .some hMirrors⟩
  | namedNone hStop =>
      intro s' hEchoes
      exact ⟨none, s'.next,
        .namedNone (by rwa [hEchoes.kind_eq]), hEchoes.next,
        .none⟩
  | namedNothing hNone =>
      intro s' hEchoes
      exact ⟨none, s',
        .namedNothing (by rwa [hEchoes.kind_eq]), hEchoes,
        .none⟩
  | noParts hStop =>
      intro s' hEchoes
      exact ⟨[], s', .noParts (by rwa [hEchoes.kind_eq]),
        hEchoes, .nil⟩
  | textPart hText _ ih =>
      exact Phrase.Repeats.textPart hText ih
  | escapePart hEscape hChar _ ih =>
      exact Phrase.Repeats.escapePart hEscape hChar ih
  | embeddedPart hOpen _ hClose _ ihExpr ihMore =>
      exact Phrase.Repeats.embeddedPart hOpen hClose ihExpr
        ihMore
  | block _ hClose ih =>
      exact Phrase.Repeats.block hClose ih
  | noStatements hStop =>
      intro s' hEchoes _
      exact ⟨[], s', .noStatements (by rwa [hEchoes.kind_eq]),
        hEchoes, .nil⟩
  | someStatements hSome hGoesOn _ _ ihFirst ihMore =>
      exact Phrase.Repeats.someStatements hSome hGoesOn
        ihFirst ihMore
  | variableStatement hKeyword _ ih =>
      exact Phrase.Repeats.variableStatement hKeyword ih
  | functionStatement hKeyword _ ih =>
      exact Phrase.Repeats.functionStatement hKeyword ih
  | endedStatement hVal hVar hFunction _ hStop ih =>
      exact Phrase.Repeats.endedStatement hVal hVar
        hFunction hStop ih
  | openStatement hVal hVar hFunction _ hNone hStop ih =>
      exact Phrase.Repeats.openStatement hVal hVar hFunction
        hNone hStop ih
  | variableDecl hKeyword hName hType _ hStop _ hDeclares ih =>
      exact Phrase.Repeats.variableDecl hKeyword hName hType
        hStop hDeclares ih
  | functionDecl hKeyword hName _ _ _ hDeclares ihSignature
      ihBody =>
      exact Phrase.Repeats.functionDecl hKeyword hName
        hDeclares ihSignature ihBody

end SourceCheck
