import SourceCheck.Proofs.Scoping.Growth
import SourceCheck.Proofs.Parsing.Sources

/-
  Redefinitions are reported exactly.

  A run of a parser makes definitions one after another, at
  different moments: functions behind their bodies, and
  parameters one by one.  Whatever was read in between, and
  whether or not it failed, each scope binds a name to what
  was made first by that name in it.  For each further
  definition of the name in the same scope one redefinition
  is reported, where its name stands, and no others are.

  Key definitions include:
    * `Making`
    * `repeated`
    * `Recorded`
    * `Parser.Makes`

  The main statement is `redefinitions_recorded`.
-/

namespace SourceCheck

open SourceCheck.Parser
open SourceCheck.ParserState
open SourceCheck.Grammar

------------------------------------------------------------
-- Definitions that were made
------------------------------------------------------------

/-
  A definition that a run made: the innermost scope, the
  token that spells the name, the definition, and the state
  behind it.
-/
structure Making where
  scope : ScopeId
  name : Token
  definition : Definition
  behind : ParserState

namespace Making

/- It was made by this name in the scope. -/
def isOf
    (m : Making)
    (scope : ScopeId)
    (name : String) :
    Bool :=
  m.scope = scope && m.name.name = name

/- What is reported if it is not the first one. -/
def report (m : Making) : Diagnostic :=
  ⟨.redefinition m.name.name, m.name.span.start⟩

/- The token of the text spells the name, and no other. -/
structure IsNamed
    (m : Making)
    (ts : List Token) :
    Prop where
  name_eq : m.definition.name = m.name.name
  isNameOf :
    IsNameOf ts m.name m.definition.kind m.definition.span

end Making

/-
  Those for whose name something was made in the same scope
  before, be it among the earlier ones or among them.
-/
def repeatedBehind
    (earlier : List Making) :
    List Making → List Making
  | [] => []
  | m :: ms =>
      if earlier.any (·.isOf m.scope m.name.name) then
        m :: repeatedBehind (earlier ++ [m]) ms
      else
        repeatedBehind (earlier ++ [m]) ms

/- Those that are not the first of their name and scope. -/
def repeated (ms : List Making) : List Making :=
  repeatedBehind [] ms

theorem repeatedBehind_concat
    (earlier ms : List Making)
    (m : Making) :
    repeatedBehind earlier (ms ++ [m]) =
      repeatedBehind earlier ms ++
        if (earlier ++ ms).any
            (·.isOf m.scope m.name.name) then
          [m]
        else
          [] := by
  induction ms generalizing earlier with
  | nil =>
      rw [List.append_nil]
      rfl
  | cons n ms ih =>
      rw [List.cons_append, repeatedBehind, repeatedBehind,
        ih, List.append_assoc, List.singleton_append]
      split
      · rfl
      · rfl

theorem repeated_concat
    (ms : List Making)
    (m : Making) :
    repeated (ms ++ [m]) =
      repeated ms ++
        if ms.any (·.isOf m.scope m.name.name) then [m]
        else [] :=
  repeatedBehind_concat [] ms m

------------------------------------------------------------
-- What is known of the symbols
------------------------------------------------------------

/-
  The definitions are those that were made, each scope binds
  a name to the first of them with that name and scope, and
  the redefinitions that were reported are those of all
  others, in order.
-/
structure Recorded
    (ms : List Making)
    (y : Symbols)
    (ds : List Diagnostic) :
    Prop where
  definitions :
    y.definitions.toList = ms.map (·.definition)
  bindings :
    ∀ scope name,
      y.local? scope name = ms.findIdx? (·.isOf scope name)
  reports :
    ds.filter (·.problem.isRedefinition) =
      (repeated ms).map (·.report)

/- What is recorded, and no scope is used before it opens. -/
structure ParserState.Tracks
    (s : ParserState)
    (ms : List Making) :
    Prop where
  recorded : Recorded ms s.symbols s.diagnostics
  open_lt :
    ∀ scope ∈ s.scopes, scope < s.symbols.scopes.size
  made_lt : ∀ m ∈ ms, m.scope < s.symbols.scopes.size

namespace ParserState

variable {s : ParserState}
variable {ms : List Making}

theorem tracks_start
    (stream : TokenStream)
    (file : String) :
    (start stream file).Tracks [] where
  recorded := ⟨rfl, fun _ _ => rfl, rfl⟩
  open_lt := fun _ hMember => absurd hMember List.not_mem_nil
  made_lt := fun _ hMember => absurd hMember List.not_mem_nil

theorem Tracks.size_eq (hTracks : s.Tracks ms) :
    s.symbols.definitions.size = ms.length := by
  have hLength :=
    congrArg List.length hTracks.recorded.definitions
  rwa [Array.length_toList, List.length_map] at hLength

/- Whether a name is bound depends on what was made. -/
theorem Tracks.hasLocal_eq
    (hTracks : s.Tracks ms)
    (scope : ScopeId)
    (name : String) :
    s.symbols.hasLocal scope name =
      ms.any (·.isOf scope name) := by
  unfold Symbols.hasLocal
  rw [hTracks.recorded.bindings, List.findIdx?_isSome]

/- A failure that is no redefinition may be reported. -/
theorem Tracks.reported
    (hTracks : s.Tracks ms)
    {d : Diagnostic}
    (hOther : d.problem.isRedefinition = false) :
    (s.reported d).Tracks ms := by
  refine ⟨⟨hTracks.recorded.definitions,
    hTracks.recorded.bindings, ?_⟩, hTracks.open_lt,
    hTracks.made_lt⟩
  unfold ParserState.reported
  dsimp only
  rw [List.filter_append, hTracks.recorded.reports,
    List.filter_singleton, hOther]
  exact List.append_nil _

/- A new scope binds nothing, and nothing was made in it. -/
theorem Tracks.opened (hTracks : s.Tracks ms) :
    s.opened.Tracks ms := by
  have hSize :
      s.opened.symbols.scopes.size =
        s.symbols.scopes.size + 1 :=
    Array.size_push _
  refine ⟨⟨hTracks.recorded.definitions, ?_,
    hTracks.recorded.reports⟩, ?_, ?_⟩
  · intro scope name
    rw [← hTracks.recorded.bindings]
    unfold ParserState.opened Symbols.openScope
      Symbols.local?
    dsimp only
    rw [Array.getElem?_push]
    split
    · rename_i hNew
      rw [hNew, Array.getElem?_eq_none (Nat.le_refl _)]
      rfl
    · rfl
  · intro scope hMember
    rw [hSize]
    rcases List.mem_cons.1 hMember with rfl | hOld
    · exact Nat.lt_succ_self _
    · exact Nat.lt_succ_of_lt (hTracks.open_lt scope hOld)
  · intro m hMember
    rw [hSize]
    exact Nat.lt_succ_of_lt (hTracks.made_lt m hMember)

theorem Tracks.closed (hTracks : s.Tracks ms) :
    s.closed.Tracks ms :=
  ⟨hTracks.recorded,
    fun scope hMember =>
      hTracks.open_lt scope (List.mem_of_mem_tail hMember),
    hTracks.made_lt⟩

/- What a scope binds behind a definition. -/
theorem local?_bound
    {scope : ScopeId}
    (hLess : scope < s.symbols.scopes.size)
    (d : Definition)
    (other : ScopeId)
    (name : String) :
    (s.bound scope d).symbols.local? other name =
      if scope = other ∧ d.name = name then
        some s.symbols.definitions.size
      else
        s.symbols.local? other name := by
  unfold bound withSymbols Symbols.local?
  dsimp only
  rw [Array.getElem?_modify]
  by_cases hSame : scope = other
  · subst hSame
    rw [if_pos rfl, Array.getElem?_eq_getElem hLess]
    simp only [Option.map_some, Option.bind_some,
      Scope.get?_insert, true_and]
    exact if_congr eq_comm rfl rfl
  · rw [if_neg hSame, if_neg fun hBoth => hSame hBoth.1]

section Declared

variable {m : Making}

theorem Tracks.definitions_push
    (hTracks : s.Tracks ms)
    (m : Making) :
    (s.symbols.definitions.push m.definition).toList =
      (ms ++ [m]).map (·.definition) := by
  rw [Array.toList_push, hTracks.recorded.definitions,
    List.map_append]
  rfl

theorem Tracks.scope_lt
    (hTracks : s.Tracks ms)
    (hOpen : m.scope ∈ s.scopes) :
    ∀ n ∈ ms ++ [m], n.scope < s.symbols.scopes.size := by
  intro n hMember
  rcases List.mem_append.1 hMember with hOld | hNew
  · exact hTracks.made_lt n hOld
  · rw [List.mem_singleton.1 hNew]
    exact hTracks.open_lt m.scope hOpen

/- What was made last is the first where nothing was before. -/
theorem Tracks.findIdx?_concat
    (hTracks : s.Tracks ms)
    (m : Making)
    (scope : ScopeId)
    (name : String) :
    (ms ++ [m]).findIdx? (·.isOf scope name) =
      (s.symbols.local? scope name).or
        (if m.scope = scope ∧ m.name.name = name then
          some s.symbols.definitions.size
        else
          none) := by
  rw [List.findIdx?_append, ← hTracks.recorded.bindings,
    hTracks.size_eq, List.findIdx?_singleton]
  by_cases hIs : m.scope = scope ∧ m.name.name = name
  · have hMine : m.isOf scope name := by
      simpa [Making.isOf] using hIs
    rw [if_pos hIs, if_pos hMine, Option.map_some,
      Nat.zero_add]
  · have hOther : ¬ m.isOf scope name := by
      simpa [Making.isOf] using hIs
    rw [if_neg hIs, if_neg hOther, Option.map_none]

/- A further definition of a name is reported. -/
theorem Tracks.redefined
    (hTracks : s.Tracks ms)
    (hOpen : m.scope ∈ s.scopes)
    (hLocal : s.symbols.hasLocal m.scope m.name.name = true) :
    ((s.withSymbols
        (s.symbols.addDefinition m.definition).2).reported
      m.report).Tracks (ms ++ [m]) := by
  refine ⟨⟨hTracks.definitions_push m, ?_, ?_⟩,
    hTracks.open_lt, hTracks.scope_lt hOpen⟩
  · -- What was bound before stays bound.
    intro scope name
    rw [hTracks.findIdx?_concat]
    split
    · rename_i hIs
      rw [hIs.1, hIs.2] at hLocal
      exact (Option.or_of_isSome hLocal).symm
    · exact Option.or_none.symm
  · rw [repeated_concat, ← hTracks.hasLocal_eq, hLocal,
      if_pos rfl, List.map_append,
      ← hTracks.recorded.reports]
    exact List.filter_append _ _

/- The first definition of a name is bound. -/
theorem Tracks.bound
    (hTracks : s.Tracks ms)
    (hOpen : m.scope ∈ s.scopes)
    (hName : m.definition.name = m.name.name)
    (hLocal :
      s.symbols.hasLocal m.scope m.name.name = false) :
    (s.bound m.scope m.definition).Tracks (ms ++ [m]) := by
  have hSize :
      (s.bound m.scope m.definition).symbols.scopes.size =
        s.symbols.scopes.size :=
    Array.size_modify
  refine ⟨⟨hTracks.definitions_push m, ?_, ?_⟩, ?_, ?_⟩
  · intro scope name
    rw [hTracks.findIdx?_concat,
      local?_bound (hTracks.open_lt m.scope hOpen), hName]
    split
    · rename_i hIs
      rw [hIs.1, hIs.2] at hLocal
      rw [Option.not_isSome_iff_eq_none.1
        (Bool.eq_false_iff.1 hLocal)]
      rfl
    · exact Option.or_none.symm
  · rw [repeated_concat, ← hTracks.hasLocal_eq, hLocal,
      if_neg Bool.false_ne_true, List.append_nil]
    exact hTracks.recorded.reports
  · rw [hSize]
    exact hTracks.open_lt
  · rw [hSize]
    exact hTracks.scope_lt hOpen

theorem Tracks.declared
    (hTracks : s.Tracks ms)
    (hOpen : m.scope ∈ s.scopes)
    (hName : m.definition.name = m.name.name) :
    (s.declared m.scope m.definition
      m.name.span.start).Tracks (ms ++ [m]) := by
  unfold ParserState.declared
  rw [hName]
  split
  · rename_i hLocal
    exact hTracks.redefined hOpen hLocal
  · rename_i hLocal
    exact hTracks.bound hOpen hName
      (Bool.eq_false_iff.2 hLocal)

end Declared

theorem Tracks.resumed
    {t : ParserState}
    (hTracks : t.Tracks ms)
    (s : ParserState)
    (stop : TokenStream → Bool)
    {d : Diagnostic}
    (hOther : d.problem.isRedefinition = false) :
    (s.resumed stop t d).Tracks ms := by
  have hReported := hTracks.reported hOther
  unfold ParserState.resumed
  dsimp only
  split
  · exact ⟨hReported.recorded, hReported.open_lt,
      hReported.made_lt⟩
  · exact ⟨hReported.recorded, hReported.open_lt,
      hReported.made_lt⟩

end ParserState

------------------------------------------------------------
-- Runs
------------------------------------------------------------

/-
  The run of a parser from a state makes these definitions,
  one for each declaration that is reached in a scope.  If
  it may take the symbols, then behind all of them.
-/
inductive Parser.Makes :
    Bool → {α : Type} → Parser α → ParserState →
      List Making → Prop where
  | pure {takes α s}
      (a : α) :
      Parser.Makes takes (Pure.pure a : Parser α) s []
  | throw {takes α s} {d : Diagnostic}
      (hOther : d.problem.isRedefinition = false) :
      Parser.Makes takes (MonadExcept.throw d : Parser α) s
        []
  | bind {takes α β s a t ms ns}
      {p : Parser α} {f : α → Parser β}
      (hRun : p.outcome s = (.ok a, t))
      (hFirst : Parser.Makes false p s ms)
      (hRest : Parser.Makes takes (f a) t ns) :
      Parser.Makes takes (p >>= f) s (ms ++ ns)
  | bindError {takes α β s d t ms}
      {p : Parser α} {f : α → Parser β}
      (hRun : p.outcome s = (.error d, t))
      (hFirst : Parser.Makes false p s ms) :
      Parser.Makes takes (p >>= f) s ms
  | look {takes α s}
      (f : TokenStream → α) :
      Parser.Makes takes (Parser.look f) s []
  | move {takes s} {f : TokenStream → TokenStream}
      (hKeeps : ∀ t, (f t).tokens = t.tokens) :
      Parser.Makes takes (Parser.move f) s []
  | declare {takes s scope scopes}
      {name kind span visibleFrom isMutable}
      (hScopes : s.scopes = scope :: scopes)
      (hName : IsNameOf s.stream.tokens name kind span) :
      Parser.Makes takes
        (Parser.declare name kind span visibleFrom isMutable)
        s
        [⟨scope, name,
          ⟨name.name, kind, span, visibleFrom, isMutable,
            none⟩,
          ((Parser.declare name kind span visibleFrom
            isMutable).outcome s).2⟩]
  | declareNowhere {takes s}
      {name kind span visibleFrom isMutable}
      (hScopes : s.scopes = []) :
      Parser.Makes takes
        (Parser.declare name kind span visibleFrom isMutable)
        s []
  | inNewScope {takes α s ms} {body : ScopeId → Parser α}
      (hBody :
        Parser.Makes takes (body s.newScope) s.opened ms) :
      Parser.Makes takes (Parser.inNewScope body) s ms
  | recovering {takes α s ms stop} {p : Parser α}
      (hBody : Parser.Makes false p s ms) :
      Parser.Makes takes (Parser.recovering stop p) s ms
  | takeSymbols {α s}
      (f : Symbols → α) :
      Parser.Makes true
        (Parser.takeSymbols >>= fun y => Pure.pure (f y)) s
        []

/-
  What a run leaves that made some definitions behind other
  ones: all of them are recorded, and were in the state
  behind each of them.
-/
structure Traced
    {α : Type}
    (takes : Bool)
    (before ms : List Making)
    (s : ParserState)
    (x : Except Diagnostic α × ParserState) :
    Prop where
  scopes : x.2.scopes = s.scopes
  tokens : x.2.stream.tokens = s.stream.tokens
  failure :
    ∀ d, x.1 = .error d → d.problem.isRedefinition = false
  reports :
    x.2.diagnostics.filter (·.problem.isRedefinition) =
      (repeated (before ++ ms)).map (·.report)
  tracks : takes = false → x.2.Tracks (before ++ ms)
  each :
    ∀ {front m back},
      ms = front ++ m :: back →
        Recorded (before ++ front ++ [m])
          m.behind.symbols m.behind.diagnostics
  named : ∀ m ∈ ms, m.IsNamed s.stream.tokens

section Traces

variable {α β : Type}
variable {takes : Bool}
variable {before ms ns : List Making}
variable {s t : ParserState}

/- A run that made nothing only has to keep what is known. -/
theorem traced_nil
    {x : Except Diagnostic α × ParserState}
    (hScopes : x.2.scopes = s.scopes)
    (hTokens : x.2.stream.tokens = s.stream.tokens)
    (hFailure :
      ∀ d, x.1 = .error d → d.problem.isRedefinition = false)
    (hTracks : x.2.Tracks before) :
    Traced takes before [] s x where
  scopes := hScopes
  tokens := hTokens
  failure := hFailure
  reports := by
    rw [List.append_nil]
    exact hTracks.recorded.reports
  tracks _ := by
    rw [List.append_nil]
    exact hTracks
  each hSplit := by simp at hSplit
  named _ hMember := absurd hMember List.not_mem_nil

/- What was made first was made before what was made then. -/
theorem Traced.append
    {a : α}
    {x : Except Diagnostic β × ParserState}
    (hFirst : Traced false before ms s (.ok a, t))
    (hRest : Traced takes (before ++ ms) ns t x) :
    Traced takes before (ms ++ ns) s x where
  scopes := hRest.scopes.trans hFirst.scopes
  tokens := hRest.tokens.trans hFirst.tokens
  failure := hRest.failure
  reports := by
    rw [← List.append_assoc]
    exact hRest.reports
  tracks := by
    rw [← List.append_assoc]
    exact hRest.tracks
  each := by
    intro front m back hSplit
    rcases List.append_eq_append_iff.1 hSplit with
      ⟨later, rfl, hLate⟩ | ⟨later, rfl, hLate⟩
    · rw [← List.append_assoc]
      exact hRest.each hLate
    · cases later with
      | nil =>
          have hFirstMade : ns = [] ++ m :: back :=
            hLate.symm
          have hRecorded := hRest.each hFirstMade
          rwa [List.append_nil, List.append_nil]
            at hRecorded
      | cons n others =>
          cases hLate
          exact hFirst.each rfl
  named := by
    intro m hMember
    rcases List.mem_append.1 hMember with hOld | hNew
    · exact hFirst.named m hOld
    · rw [← hFirst.tokens]
      exact hRest.named m hNew

/- A declaration makes one definition. -/
theorem traced_made
    {m : Making}
    {r : α}
    (hTracks : s.Tracks before)
    (hOpen : m.scope ∈ s.scopes)
    (hNamed : m.IsNamed s.stream.tokens)
    (hBehind :
      m.behind =
        s.declared m.scope m.definition m.name.span.start) :
    Traced takes before [m] s (.ok r, m.behind) := by
  have hMade : m.behind.Tracks (before ++ [m]) := by
    rw [hBehind]
    exact hTracks.declared hOpen hNamed.name_eq
  exact
    { scopes := by
        rw [hBehind]
        exact (s.grows_declared m.scope _ _).scopes
      tokens := by rw [hBehind, stream_declared]
      failure := fun _ hError => by cases hError
      reports := hMade.recorded.reports
      tracks := fun _ => hMade
      each := by
        intro front n back hSplit
        rcases List.append_eq_singleton_iff.1 hSplit.symm
          with ⟨rfl, hLast⟩ | ⟨-, hNone⟩
        · cases hLast
          rw [List.append_nil]
          exact hMade.recorded
        · cases hNone
      named := by
        intro n hMember
        rw [List.mem_singleton.1 hMember]
        exact hNamed }

/- Closing the scope of a body changes nothing of this. -/
theorem Traced.closed
    {r : Except Diagnostic α}
    (hBody : Traced takes before ms s.opened (r, t)) :
    Traced takes before ms s (r, t.closed) where
  scopes := by
    have hScopes : t.scopes = s.opened.scopes :=
      hBody.scopes
    unfold ParserState.closed
    dsimp only
    rw [hScopes]
    rfl
  tokens := hBody.tokens
  failure := hBody.failure
  reports := hBody.reports
  tracks hTakes := (hBody.tracks hTakes).closed
  each := hBody.each
  named := hBody.named

/- A failure that is recovered from is no redefinition. -/
theorem Traced.recovered
    {β : Type}
    {d : Diagnostic}
    {r : β}
    (hBody :
      Traced (α := α) false before ms s (.error d, t))
    (stop : TokenStream → Bool) :
    Traced takes before ms s
      (.ok r, s.resumed stop t d) := by
  have hTracks :=
    (hBody.tracks rfl).resumed s stop (hBody.failure d rfl)
  exact
    { scopes := by
        refine Eq.trans ?_ hBody.scopes
        unfold ParserState.resumed
        dsimp only
        split
        · rfl
        · rfl
      tokens := by
        rw [tokens_resumed]
        exact hBody.tokens
      failure := fun _ hError => by cases hError
      reports := hTracks.recorded.reports
      tracks := fun _ => hTracks
      each := hBody.each
      named := hBody.named }

/- What is recorded whatever the result is stays recorded. -/
theorem Traced.withResult
    {r : Except Diagnostic α}
    {q : Except Diagnostic β}
    (hTraced : Traced false before ms s (r, t))
    (hFailure :
      ∀ d, q = .error d → d.problem.isRedefinition = false) :
    Traced takes before ms s (q, t) where
  scopes := hTraced.scopes
  tokens := hTraced.tokens
  failure := hFailure
  reports := hTraced.reports
  tracks _ := hTraced.tracks rfl
  each := hTraced.each
  named := hTraced.named

/- In every run all that is made is recorded. -/
theorem Parser.Makes.traced
    {p : Parser α}
    (hMakes : p.Makes takes s ms)
    (hTracks : s.Tracks before) :
    Traced takes before ms s (p.outcome s) := by
  induction hMakes generalizing before with
  | pure a =>
      exact traced_nil rfl rfl (fun _ h => by cases h) hTracks
  | throw hOther =>
      refine traced_nil rfl rfl (fun d h => ?_) hTracks
      cases h
      exact hOther
  | bind hRun hFirst hRest ihFirst ihRest =>
      have hBefore := ihFirst hTracks
      rw [hRun] at hBefore
      rw [outcome_bind, hRun]
      exact hBefore.append (ihRest (hBefore.tracks rfl))
  | bindError hRun hFirst ihFirst =>
      have hBefore := ihFirst hTracks
      rw [hRun] at hBefore
      rw [outcome_bind, hRun]
      refine hBefore.withResult fun d h => ?_
      cases h
      exact hBefore.failure _ rfl
  | look f =>
      exact traced_nil rfl rfl (fun _ h => by cases h) hTracks
  | move hKeeps =>
      exact traced_nil rfl (hKeeps _) (fun _ h => by cases h)
        ⟨hTracks.recorded, hTracks.open_lt, hTracks.made_lt⟩
  | declare hScopes hName =>
      rename_i s scope scopes name kind span visibleFrom
        isMutable
      have hRun :=
        outcome_declare name kind span visibleFrom isMutable s
      rw [hScopes] at hRun
      have hOpen : scope ∈ s.scopes := by
        rw [hScopes]
        exact List.mem_cons_self
      rw [hRun]
      exact traced_made hTracks hOpen ⟨rfl, hName⟩ rfl
  | declareNowhere hScopes =>
      rename_i s name kind span visibleFrom isMutable
      have hRun :=
        outcome_declare name kind span visibleFrom isMutable s
      rw [hScopes] at hRun
      rw [hRun]
      refine traced_nil rfl rfl (fun d h => ?_) hTracks
      cases h
      rfl
  | inNewScope hBody ih =>
      have hInside := ih hTracks.opened
      rw [outcome_inNewScope]
      generalize Parser.outcome _ _ = x at hInside
      rcases x with ⟨d | a, t⟩
      · exact hInside.closed
      · exact hInside.closed
  | recovering hBody ih =>
      have hInside := ih hTracks
      rw [outcome_recovering]
      generalize Parser.outcome _ _ = x at hInside
      rcases x with ⟨d | a, t⟩
      · exact hInside.recovered _
      · exact hInside.withResult fun _ h => by cases h
  | takeSymbols f =>
      exact
        { scopes := rfl
          tokens := rfl
          failure := fun _ h => by cases h
          reports := by
            rw [List.append_nil]
            exact hTracks.recorded.reports
          tracks := fun h => by cases h
          each := fun h => by simp at h
          named := fun _ h => absurd h List.not_mem_nil }

end Traces

------------------------------------------------------------
-- The grammar
------------------------------------------------------------

/- The run of each parser makes some definitions. -/
def ParserProperty.making : ParserProperty where
  holds p s := ∃ ms, ∀ takes, p.Makes takes s ms
  ofPure a _ := ⟨[], fun _ => .pure a⟩
  ofThrow hOther := ⟨[], fun _ => .throw hOther⟩
  ofBind := by
    intro α β p f s hFirst hRest
    rcases hFirst with ⟨ms, hMakes⟩
    rcases hRun : p.outcome s with ⟨d | a, t⟩
    · exact ⟨ms, fun _ => .bindError hRun (hMakes false)⟩
    · rcases hRest hRun with ⟨ns, hMore⟩
      exact ⟨ms ++ ns, fun takes =>
        .bind hRun (hMakes false) (hMore takes)⟩
  ofLook f _ := ⟨[], fun _ => .look f⟩
  ofMove hKeeps := ⟨[], fun _ => .move hKeeps⟩
  ofDeclare := by
    intro name kind span visibleFrom isMutable s hName
    cases hScopes : s.scopes with
    | nil => exact ⟨[], fun _ => .declareNowhere hScopes⟩
    | cons scope scopes =>
        exact ⟨_, fun _ => .declare hScopes hName⟩
  ofNewScope := by
    rintro α body s ⟨ms, hMakes⟩
    exact ⟨ms, fun takes => .inNewScope (hMakes takes)⟩
  ofRecovering := by
    rintro α p s stop ⟨ms, hMakes⟩
    exact ⟨ms, fun _ => .recovering (hMakes false)⟩

/- So does the run of a whole program. -/
theorem exists_makes_program
    (depth : Nat)
    (s : ParserState) :
    ∃ ms,
      (program (nestedWithin depth)).Makes true s ms := by
  have hItems :=
    (ParserProperty.matches_programItems (L := .making)
      (ParserProperty.nestedMatches_nestedWithin depth)
      s.opened s.opened (.refl _) rfl).holds
  rcases hItems with ⟨ms, hMakes⟩
  rw [program_eq]
  rcases hRun :
      (programItems (nestedWithin depth)).outcome s.opened
      with ⟨d | items, t⟩
  · exact ⟨ms, .inNewScope (.bindError hRun (hMakes false))⟩
  · exact ⟨ms ++ [], .inNewScope
      (.bind hRun (hMakes false) (.takeSymbols _))⟩

/- And that of an expression that may not be missing. -/
theorem exists_makes_required
    (depth : Nat)
    (power : Power)
    (s : ParserState) :
    ∃ ms,
      ((nestedWithin depth).required power).Makes true s
        ms := by
  have hExpression :=
    (ParserProperty.matches_required (L := .making)
      (ParserProperty.nestedMatches_nestedWithin depth)
      power s s (.refl _) rfl).holds
  rcases hExpression with ⟨ms, hMakes⟩
  exact ⟨ms, hMakes true⟩

/- A parser that is closed first looks at the tokens. -/
theorem exists_makes_closed
    {α : Type}
    {parser : Nested → Parser α}
    {s : ParserState}
    (hMakes :
      ∀ depth,
        ∃ ms, (parser (nestedWithin depth)).Makes true s ms) :
    ∃ ms, (closed parser).Makes true s ms := by
  rcases hMakes (2 * s.stream.ahead.length + 2) with
    ⟨ms, hRest⟩
  exact ⟨[] ++ ms, .bind
    (p := Parser.look (·.ahead))
    (f := fun ts =>
      parser (nestedWithin (2 * ts.length + 2)))
    rfl (.look _) hRest⟩

------------------------------------------------------------
-- Sources
------------------------------------------------------------

/- All that was reported on a text. -/
def reportsOf
    {α : Type} :
    Except (List Diagnostic) α → List Diagnostic
  | .ok _ => []
  | .error ds => ds

/-
  The run of a parser on a text makes definitions.  Behind
  each of them, those so far are recorded, and in the end
  the redefinitions among the reports are those of all that
  were repeated.
-/
structure Parser.RecordsRedefinitions
    {α : Type}
    (p : Parser α)
    (source file : String) :
    Prop where
  exists_makes :
    ∃ ms,
      p.Makes true (.start (.ofSource source file) file) ms
  each :
    ∀ {ms front m back},
      p.Makes true (.start (.ofSource source file) file) ms →
        ms = front ++ m :: back →
          Recorded (front ++ [m])
            m.behind.symbols m.behind.diagnostics
  named :
    ∀ {ms},
      p.Makes true (.start (.ofSource source file) file) ms →
        ∀ m ∈ ms, m.IsNamed (tokenize source (some file))
  reports :
    ∀ {ms},
      p.Makes true (.start (.ofSource source file) file) ms →
        (reportsOf (parse source file p)).filter
            (·.problem.isRedefinition) =
          (repeated ms).map (·.report)

/- The reports of a run are those that it leaves. -/
theorem filter_reportsOf
    {α : Type}
    {p : Parser α}
    {source file : String}
    {ms : List Making}
    (hTraced :
      Traced true [] ms (.start (.ofSource source file) file)
        (p.outcome (.start (.ofSource source file) file))) :
    (reportsOf (parse source file p)).filter
        (·.problem.isRedefinition) =
      (repeated ms).map (·.report) := by
  have hReports := hTraced.reports
  have hFailure := hTraced.failure
  rw [parse_eq]
  generalize p.outcome _ = x at hReports hFailure
  rw [List.nil_append] at hReports
  rw [← hReports]
  rcases x with ⟨d | a, t⟩
  · dsimp only [reportsOf]
    rw [List.filter_append, List.filter_singleton,
      hFailure d rfl]
    exact List.append_nil _
  · dsimp only
    split
    · rename_i hNone
      rw [List.isEmpty_iff.1 hNone]
      rfl
    · rfl

theorem recordsRedefinitions_of_makes
    {α : Type}
    {p : Parser α}
    {source file : String}
    (hMakes :
      ∃ ms,
        p.Makes true (.start (.ofSource source file) file)
          ms) :
    p.RecordsRedefinitions source file where
  exists_makes := hMakes
  each hRun hSplit :=
    (hRun.traced (tracks_start _ _)).each hSplit
  named := by
    intro ms hRun
    have hTokens :
        (TokenStream.ofSource source file).tokens =
          tokenize source (some file) := by
      unfold TokenStream.tokens
      rw [(ofSource_eq source file).1,
        (ofSource_eq source file).2.1]
      rfl
    rw [← hTokens]
    exact (hRun.traced (tracks_start _ _)).named
  reports hRun :=
    filter_reportsOf (hRun.traced (tracks_start _ _))

/-
  On every text, and behind every definition that is made
  while it is parsed: each scope binds a name to the first
  definition by that name in it, and one redefinition was
  reported for each further one, where its name stands, in
  the order in which they were made, and no other.
-/
theorem redefinitions_recorded (source file : String) :
    (closed program).RecordsRedefinitions source file ∧
      (closed fun nested =>
        nested.required .loosest).RecordsRedefinitions
          source file :=
  ⟨recordsRedefinitions_of_makes
      (exists_makes_closed fun depth =>
        exists_makes_program depth _),
    recordsRedefinitions_of_makes
      (exists_makes_closed fun depth =>
        exists_makes_required depth .loosest _)⟩

end SourceCheck
