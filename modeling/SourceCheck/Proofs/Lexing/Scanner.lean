import Mathlib.Algebra.Group.Nat.Defs
import Mathlib.Logic.Relation
import SourceCheck.Proofs.Lexing.Rules

/-
  A scanner with two stacks.

  The scanner keeps the modes that it has entered, and the
  numbers of braces that are open in the templates among
  them.  It takes the longest match of the rules of its mode
  and does what the rule says, and what it makes of a text
  are its tokens.  The two stacks stay in step.

  Open braces are counted in 32 bits.  To count on from the
  last of these numbers is an error, at which the scanner
  stops.

  Key definitions include:
    * `Scanner`
    * `Scanner.step`
    * `Scanner.scan`
    * `Scanner.Disciplined`

  Key theorems include:
    * `Scanner.step_ofLexer`
    * `Scanner.eq_tokenize_of_scan`
    * `Scanner.scan_start`
    * `tokenize_disciplined`
-/

namespace SourceCheck

------------------------------------------------------------
-- The scanner
------------------------------------------------------------

/- The number behind one of 32 bits, if it has 32 bits. -/
def nextCount? (n : UInt32) : Option UInt32 :=
  if n.toNat + 1 < 2 ^ 32 then some (n + 1) else none

/-
  A place in a text with the modes that were entered, the
  innermost first, the open braces of the templates among
  them, what is left of the text, and the tokens so far.
-/
structure Scanner where
  position : Position
  modes : List Mode
  braces : List UInt32
  rest : List Char
  tokens : List Token

namespace Scanner

/- The start of a source text. -/
def start
    (source : String)
    (file? : Option String) :
    Scanner where
  position := Position.first (file?.getD Lexer.unnamed)
  modes := [.code]
  braces := []
  rest := source.toList
  tokens := []

/- The mode that was entered last. -/
def mode (s : Scanner) : Mode :=
  s.modes.head?.getD .code

/- A token is made. -/
def push (t : Token) (s : Scanner) : Scanner :=
  { s with tokens := s.tokens ++ [t] }

/- A template starts with no open braces. -/
def enter (mode : Mode) (s : Scanner) : Scanner :=
  { s with
    modes := mode :: s.modes
    braces :=
      if mode = .template then 0 :: s.braces else s.braces }

/- The first mode of all is never left. -/
def leave (s : Scanner) : Scanner :=
  match s.modes with
  | left :: mode :: modes =>
      { s with
        modes := mode :: modes
        braces :=
          if left = .template then s.braces.tail
          else s.braces }
  | _ => s

/- Some characters are passed. -/
def advance (n : Nat) (s : Scanner) : Scanner :=
  { s with
    position := s.position.afterAll (s.rest.take n)
    rest := s.rest.drop n }

/- A brace is opened in the innermost template, if any. -/
def openBrace? (s : Scanner) : Option Scanner :=
  match s.braces with
  | [] => some s
  | n :: braces =>
      (nextCount? n).map fun m =>
        { s with braces := m :: braces }

/-
  What a rule does with a text.  A closing brace that closes
  no brace ends its template.  Braces that cannot be counted
  are not opened.
-/
def apply
    (action : RuleAction)
    (text : String)
    (span : Span)
    (s : Scanner) :
    Option Scanner :=
  match action with
  | .skip => some s
  | .emit kind => some (s.push ⟨kind, text, span⟩)
  | .word => some (s.push ⟨.ofWord text, text, span⟩)
  | .push kind mode =>
      some ((s.push ⟨kind, text, span⟩).enter mode)
  | .pop kind => some (s.push ⟨kind, text, span⟩).leave
  | .openBrace kind =>
      s.openBrace?.map (·.push ⟨kind, text, span⟩)
  | .closeBrace =>
      match s.braces with
      | n :: braces =>
          if 0 < n then
            some
              ({ s with braces := (n - 1) :: braces }.push
                ⟨.closeCurly, text, span⟩)
          else
            some
              (s.push ⟨.stringTemplateEnd, text, span⟩).leave
      | [] =>
          some (s.push ⟨.stringTemplateEnd, text, span⟩).leave

theorem rest_leave (s : Scanner) :
    s.leave.rest = s.rest := by
  unfold leave
  split <;> rfl

theorem rest_apply
    {action : RuleAction}
    {text : String}
    {span : Span}
    {s s' : Scanner}
    (hApply : s.apply action text span = some s') :
    s'.rest = s.rest := by
  cases action with
  | pop kind =>
      cases hApply
      exact rest_leave _
  | openBrace kind =>
      rcases Option.map_eq_some_iff.1 hApply with
        ⟨opened, hOpen, rfl⟩
      unfold openBrace? at hOpen
      split at hOpen
      · cases hOpen
        rfl
      · rcases Option.map_eq_some_iff.1 hOpen with
          ⟨m, -, rfl⟩
        rfl
  | closeBrace =>
      unfold apply at hApply
      dsimp only at hApply
      split at hApply
      · split at hApply
        · cases hApply
          rfl
        · cases hApply
          exact rest_leave _
      · cases hApply
        exact rest_leave _
  | _ =>
      cases hApply
      rfl

/- What a step comes to: another state, or one of two ends. -/
inductive Progress where
  | ended
  | overflow
  | next (s : Scanner)

/-
  The scanner passes the longest match in front of it.  It
  would end if there were none.
-/
def step (s : Scanner) : Progress :=
  if s.rest = [] then
    .ended
  else
    match longestMatch (rulesFor s.mode) s.rest with
    | none => .ended
    | some (n, rule) =>
        match
          (s.advance n).apply rule.action
            (String.ofList (s.rest.take n))
            ⟨s.position, (s.advance n).position⟩
        with
        | none => .overflow
        | some s' => .next s'

/- What is left gets shorter. -/
theorem length_rest_step
    {s s' : Scanner}
    (hStep : s.step = .next s') :
    s'.rest.length < s.rest.length := by
  unfold step at hStep
  split at hStep
  · cases hStep
  · rename_i hSome
    split at hStep
    · cases hStep
    · rename_i n rule hMatch
      split at hStep
      · cases hStep
      · rename_i behind hApply
        cases hStep
        have hPos := pos_of_longestMatch hMatch
        have hLength := List.length_pos_iff.2 hSome
        rw [rest_apply hApply]
        unfold advance
        rw [List.length_drop]
        exact Nat.sub_lt hLength hPos

/-
  The tokens that the scanner makes, with the end, unless it
  stops at an error.
-/
def scan (s : Scanner) : Option (List Token) :=
  match _hStep : s.step with
  | .next s' => s'.scan
  | .overflow => none
  | .ended =>
      some
        (s.tokens ++ [⟨.eof, "EOF", Span.point s.position⟩])
termination_by s.rest.length
decreasing_by exact length_rest_step _hStep

------------------------------------------------------------
-- Scanners of lexers
------------------------------------------------------------

end Scanner

namespace Enclosure

/- The mode in a string or in a template. -/
def mode : Enclosure → Mode
  | .text => .text
  | .template _ => .template

/- The open braces of a template. -/
def openBraces? : Enclosure → Option Nat
  | .text => none
  | .template n => some n

/- There is a number for every template. -/
theorem length_openBraces (es : List Enclosure) :
    (es.filterMap openBraces?).length =
      (es.map mode).count .template := by
  induction es with
  | nil => rfl
  | cons e es ih =>
      cases e with
      | text =>
          have hOther :
              (Mode.text :: es.map mode).count .template =
                (es.map mode).count .template :=
            List.count_cons_of_ne (by decide)
          exact ih.trans hOther.symm
      | template n =>
          have hSame :
              (Mode.template :: es.map mode).count .template =
                (es.map mode).count .template + 1 :=
            List.count_cons_self
          exact (congrArg (· + 1) ih).trans hSame.symm

/- The open braces can be counted in 32 bits. -/
def Counted (es : List Enclosure) : Prop :=
  ∀ n ∈ es.filterMap openBraces?, n < 2 ^ 32

theorem Counted.tail
    {e : Enclosure}
    {es : List Enclosure}
    (hCounted : Counted (e :: es)) :
    Counted es := by
  intro n hMember
  have hSublist :=
    (List.sublist_cons_self e es).filterMap openBraces?
  exact hCounted n (hSublist.subset hMember)

theorem counted_template
    {n : Nat}
    {es : List Enclosure} :
    Counted (.template n :: es) ↔
      n < 2 ^ 32 ∧ Counted es :=
  List.forall_mem_cons

end Enclosure

/- A token opens at most one brace. -/
theorem openBraces_after
    {es : List Enclosure}
    {limit : Nat}
    (hOpen :
      ∀ n ∈ es.filterMap Enclosure.openBraces?, n ≤ limit)
    (kind : TokenKind) :
    ∀ n ∈
        (Enclosure.after kind es).filterMap
          Enclosure.openBraces?,
      n ≤ limit + 1 := by
  have hSame :
      ∀ n ∈ es.filterMap Enclosure.openBraces?,
        n ≤ limit + 1 :=
    fun n hMember => Nat.le_succ_of_le (hOpen n hMember)
  have hTail {e : Enclosure} {others : List Enclosure}
      (hOpen :
        ∀ n ∈ (e :: others).filterMap Enclosure.openBraces?,
          n ≤ limit) :
      ∀ n ∈ others.filterMap Enclosure.openBraces?,
        n ≤ limit + 1 := by
    intro n hMember
    have hSublist :=
      (List.sublist_cons_self e others).filterMap
        Enclosure.openBraces?
    exact Nat.le_succ_of_le
      (hOpen n (hSublist.subset hMember))
  unfold Enclosure.after
  split
  case h_1 => exact hSame
  case h_2 =>
    exact List.forall_mem_cons.2 ⟨Nat.zero_le _, hSame⟩
  case h_3 => exact hTail hOpen
  case h_4 => exact hTail hOpen
  case h_5 n _ =>
    have hLess := hOpen n List.mem_cons_self
    exact List.forall_mem_cons.2
      ⟨Nat.succ_le_succ hLess, hTail hOpen⟩
  case h_6 n _ =>
    have hLess := hOpen n List.mem_cons_self
    exact List.forall_mem_cons.2
      ⟨Nat.succ_le_succ hLess, hTail hOpen⟩
  case h_7 n _ =>
    have hLess := hOpen (n + 1) List.mem_cons_self
    exact List.forall_mem_cons.2
      ⟨Nat.le_succ_of_le (Nat.le_of_succ_le hLess),
        hTail hOpen⟩
  case h_8 => exact hSame

/- Open braces are characters that were passed. -/
theorem Lexer.Reads.openBraces_le
    {l l' : Lexer}
    {ts : List Token}
    {passed : Nat}
    (hReads : Lexer.Reads l ts l')
    (hOpen :
      ∀ n ∈ l.enclosures.filterMap Enclosure.openBraces?,
        n ≤ passed) :
    ∀ n ∈ l'.enclosures.filterMap Enclosure.openBraces?,
      n + l'.rest.length ≤ passed + l.rest.length := by
  induction hReads generalizing passed with
  | done =>
      exact fun n hMember =>
        Nat.add_le_add_right (hOpen n hMember) _
  | @next l c cs _ _ hRest _ ih =>
      have hShort :
          (l.pass (lexeme l.enclosures c cs)).rest.length <
            l.rest.length := by
        unfold Lexer.pass
        rw [hRest, List.length_drop, List.length_cons]
        omega
      have hBehind :
          ∀ n ∈
              (l.pass
                (lexeme l.enclosures c cs)).enclosures.filterMap
                  Enclosure.openBraces?,
            n ≤ passed + 1 := by
        unfold Lexer.pass Lexer.enclosuresAfter
        cases (lexeme l.enclosures c cs).kind with
        | none =>
            exact fun n hMember =>
              Nat.le_succ_of_le (hOpen n hMember)
        | some kind => exact openBraces_after hOpen kind
      intro n hMember
      have hLess := ih hBehind n hMember
      omega

namespace Scanner

/- Nothing is open at the start of a text. -/
theorem counted_start
    (source : String)
    (file? : Option String) :
    Enclosure.Counted (Lexer.start source file?).enclosures :=
  nofun

/- The scanner that has made the tokens up to a lexer. -/
def ofLexer (l : Lexer) (ts : List Token) : Scanner where
  position := l.position
  modes := l.enclosures.map Enclosure.mode ++ [.code]
  braces :=
    (l.enclosures.filterMap Enclosure.openBraces?).map
      UInt32.ofNat
  rest := l.rest
  tokens := ts

/- Where something is open there are several modes. -/
theorem one_lt_length_modes
    (e : Enclosure)
    (es : List Enclosure) :
    1 < ((e :: es).map Enclosure.mode ++ [Mode.code]).length := by
  rw [List.length_append, List.length_map, List.length_cons]
  exact Nat.lt_add_of_pos_left (Nat.succ_pos _)

theorem mode_ofLexer (l : Lexer) (ts : List Token) :
    (ofLexer l ts).mode = Mode.ofEnclosures l.enclosures := by
  unfold mode ofLexer
  match l.enclosures with
  | [] => rfl
  | .text :: _ => rfl
  | .template _ :: _ => rfl

/- A mode that was entered can be left. -/
theorem leave_ofLexer
    {l : Lexer}
    {e : Enclosure}
    {es : List Enclosure}
    (hOpen : l.enclosures = e :: es)
    (ts : List Token) :
    (ofLexer l ts).leave =
      ofLexer { l with enclosures := es } ts := by
  unfold leave ofLexer
  rw [hOpen]
  cases e with
  | text => cases es <;> rfl
  | template n => cases es <;> rfl

/- A number is counted on if the next one has 32 bits. -/
theorem nextCount?_ofNat
    {n : Nat}
    (hCount : n < 2 ^ 32) :
    nextCount? (UInt32.ofNat n) =
      if n + 1 < 2 ^ 32 then some (UInt32.ofNat (n + 1))
      else none := by
  have hNat : (UInt32.ofNat n).toNat = n :=
    UInt32.toNat_ofNat_of_lt' hCount
  unfold nextCount?
  rw [hNat]
  split
  · rw [UInt32.ofNat_add]
    rfl
  · rfl

/- The number before one that counts something. -/
theorem ofNat_succ_sub_one
    {n : Nat}
    (hCount : n + 1 < 2 ^ 32) :
    0 < UInt32.ofNat (n + 1) ∧
      UInt32.ofNat (n + 1) - 1 = UInt32.ofNat n := by
  have hNat : (UInt32.ofNat (n + 1)).toNat = n + 1 :=
    UInt32.toNat_ofNat_of_lt' hCount
  constructor
  · rw [UInt32.lt_iff_toNat_lt, hNat]
    exact Nat.succ_pos n
  · rw [UInt32.ofNat_add]
    exact UInt32.add_sub_cancel _ _

/-
  An action that agrees with a kind does to the two stacks
  what the token does to what is open, unless there is more
  open than can be counted.
-/
theorem apply_ofLexer
    {l : Lexer}
    {text : List Char}
    {action : RuleAction}
    {kind? : Option TokenKind}
    (hAgrees : action.Agrees text l.enclosures kind?)
    (hCounted : Enclosure.Counted l.enclosures)
    (span : Span)
    (ts : List Token) :
    let opened := Lexer.enclosuresAfter kind? l.enclosures
    let applied :=
      (ofLexer l ts).apply action (String.ofList text) span
    (Enclosure.Counted opened ∧
        applied =
          some
            (ofLexer { l with enclosures := opened }
              (ts ++
                kind?.toList.map fun kind =>
                  ⟨kind, String.ofList text, span⟩))) ∨
      (¬ Enclosure.Counted opened ∧ applied = none) := by
  rcases l with ⟨position, es, rest⟩
  cases hAgrees with
  | skip =>
      rw [Option.toList_none, List.map_nil, List.append_nil]
      exact .inl ⟨hCounted, rfl⟩
  | @emit kind es hSame =>
      have hAfter :
          Lexer.enclosuresAfter (some kind) es = es := hSame
      dsimp only
      rw [hAfter]
      exact .inl ⟨hCounted, rfl⟩
  | word =>
      have hAfter :
          Lexer.enclosuresAfter
            (some (.ofWord (String.ofList text))) es = es :=
        Enclosure.after_ofWord _ es
      dsimp only
      rw [hAfter]
      exact .inl ⟨hCounted, rfl⟩
  | string => exact .inl ⟨hCounted, rfl⟩
  | template =>
      have hOpened :
          Enclosure.Counted (.template 0 :: es) :=
        Enclosure.counted_template.2
          ⟨Nat.two_pow_pos 32, hCounted⟩
      exact .inl ⟨hOpened, rfl⟩
  | stringEnd =>
      exact .inl
        ⟨hCounted.tail, congrArg some (leave_ofLexer rfl _)⟩
  | @openBrace kind n es hOpen =>
      have hBoth := Enclosure.counted_template.1 hCounted
      have hKind : kind = .openCurly ∨ kind = .mapStart := by
        simpa [TokenKind.opensBrace] using hOpen
      have hAfter :
          Lexer.enclosuresAfter (some kind)
              (.template n :: es) =
            .template (n + 1) :: es := by
        rcases hKind with rfl | rfl <;> rfl
      have hNext := nextCount?_ofNat hBoth.1
      unfold apply openBrace? ofLexer
      simp only [hAfter, List.filterMap_cons,
        Enclosure.openBraces?, List.map_cons, hNext,
        Enclosure.counted_template]
      split
      · rename_i hFits
        exact .inl ⟨⟨hFits, hBoth.2⟩, rfl⟩
      · rename_i hNot
        exact .inr ⟨fun hOther => hNot hOther.1, rfl⟩
  | @closeBrace n es =>
      have hBoth := Enclosure.counted_template.1 hCounted
      have hBefore := ofNat_succ_sub_one hBoth.1
      have hLess : n < 2 ^ 32 := Nat.lt_of_succ_lt hBoth.1
      have hOpened : Enclosure.Counted (.template n :: es) :=
        Enclosure.counted_template.2 ⟨hLess, hBoth.2⟩
      refine .inl ⟨hOpened, ?_⟩
      unfold apply ofLexer
      simp only [List.filterMap_cons, Enclosure.openBraces?,
        List.map_cons, if_pos hBefore.1, hBefore.2]
      rfl
  | templateEnd =>
      exact .inl
        ⟨hCounted.tail, congrArg some (leave_ofLexer rfl _)⟩

/-
  A step of the scanner passes the first lexeme, unless there
  is more open behind it than can be counted.
-/
theorem step_ofLexer
    {l : Lexer}
    {c : Char}
    {cs : List Char}
    (hRest : l.rest = c :: cs)
    (hCounted : Enclosure.Counted l.enclosures)
    (ts : List Token) :
    let behind := l.pass (lexeme l.enclosures c cs)
    (Enclosure.Counted behind.enclosures ∧
        (ofLexer l ts).step =
          .next
            (ofLexer behind
              (ts ++ l.made (lexeme l.enclosures c cs)))) ∨
      (¬ Enclosure.Counted behind.enclosures ∧
        (ofLexer l ts).step = .overflow) := by
  rcases longestMatch_lexeme l.enclosures c cs with
    ⟨rule, hMatch, hAgrees⟩
  rw [← hRest] at hMatch
  have hWord :
      c :: cs.take (lexeme l.enclosures c cs).more =
        l.word (lexeme l.enclosures c cs) := by
    unfold Lexer.word
    rw [hRest, List.take_succ_cons]
  rw [hWord] at hAgrees
  have hSome : (ofLexer l ts).rest ≠ [] := by
    change l.rest ≠ []
    rw [hRest]
    exact List.cons_ne_nil c cs
  -- What is passed first are only characters.
  let passed : Lexer :=
    { l.pass (lexeme l.enclosures c cs) with
      enclosures := l.enclosures }
  have hApply :=
    apply_ofLexer (l := passed) hAgrees hCounted
      ⟨l.position, passed.position⟩ ts
  have hStep :
      (ofLexer l ts).step =
        match
          (ofLexer passed ts).apply rule.action
            (String.ofList
              (l.word (lexeme l.enclosures c cs)))
            ⟨l.position, passed.position⟩
        with
        | none => .overflow
        | some s' => .next s' := by
    unfold step
    rw [if_neg hSome, mode_ofLexer]
    change (match longestMatch _ l.rest with
      | none => _
      | some (n, rule) => _) = _
    rw [hMatch]
    rfl
  rcases hApply with ⟨hFits, hApply⟩ | ⟨hNot, hApply⟩
  · rw [hApply] at hStep
    exact .inl ⟨hFits, hStep⟩
  · rw [hApply] at hStep
    exact .inr ⟨hNot, hStep⟩

------------------------------------------------------------
-- Runs of the scanner
------------------------------------------------------------

theorem scan_of_ended
    {s : Scanner}
    (hStep : s.step = .ended) :
    s.scan =
      some
        (s.tokens ++
          [⟨.eof, "EOF", Span.point s.position⟩]) := by
  rw [scan]
  split <;> simp_all

theorem scan_of_overflow
    {s : Scanner}
    (hStep : s.step = .overflow) :
    s.scan = none := by
  rw [scan]
  split <;> simp_all

/- A step does not change what the scanner makes. -/
theorem scan_of_next
    {s s' : Scanner}
    (hStep : s.step = .next s') :
    s.scan = s'.scan := by
  rw [scan]
  split <;> simp_all

/-
  The scanner makes the tokens of the text that is left, if
  it can count all that is opened there.
-/
theorem scan_ofLexer
    (l : Lexer)
    (hCounted : Enclosure.Counted l.enclosures)
    (ts : List Token) :
    (ofLexer l ts).scan = some (ts ++ l.tokens) ∨
      (ofLexer l ts).scan = none ∧
        ∃ us l',
          Lexer.Reads l us l' ∧
            ¬ Enclosure.Counted l'.enclosures := by
  cases hRest : l.rest with
  | nil =>
      have hEnd : (ofLexer l ts).step = .ended :=
        if_pos hRest
      rw [scan_of_ended hEnd, Lexer.tokens_of_end hRest]
      exact .inl rfl
  | cons c cs =>
      rcases step_ofLexer hRest hCounted ts with
        ⟨hFits, hStep⟩ | ⟨hNot, hStep⟩
      · rw [scan_of_next hStep, Lexer.tokens_of_cons hRest,
          ← List.append_assoc]
        rcases scan_ofLexer _ hFits _ with
          hScan | ⟨hNone, us, l', hReads, hOther⟩
        · exact .inl hScan
        · exact .inr
            ⟨hNone, _, l', .next hRest hReads, hOther⟩
      · exact .inr
          ⟨scan_of_overflow hStep, _, _,
            .next hRest .done, hNot⟩
termination_by l.rest.length
decreasing_by
  unfold Lexer.pass
  rw [hRest, List.length_drop, List.length_cons]
  omega

/- What the scanner makes of a text are its tokens. -/
theorem eq_tokenize_of_scan
    {source : String}
    {file? : Option String}
    {tokens : List Token}
    (hScan : (start source file?).scan = some tokens) :
    tokens = tokenize source file? := by
  have hBoth :=
    scan_ofLexer _ (counted_start source file?) []
  change (ofLexer (Lexer.start source file?) []).scan = _
    at hScan
  rw [hScan] at hBoth
  rcases hBoth with hSame | ⟨hNone, -⟩
  · exact Option.some.inj hSame
  · cases hNone

/-
  It makes them of every text with fewer characters than
  there are numbers to count with.
-/
theorem scan_start
    {source : String}
    (hShort : source.length < 2 ^ 32)
    (file? : Option String) :
    (start source file?).scan =
      some (tokenize source file?) := by
  rcases scan_ofLexer _ (counted_start source file?) []
    with hScan | ⟨-, us, l', hReads, hNot⟩
  · exact hScan
  · refine absurd (fun n hMember => ?_) hNot
    have hLess : n + l'.rest.length ≤ 0 + source.length := by
      rw [← String.length_toList]
      exact hReads.openBraces_le nofun n hMember
    omega

/- A step of the scanner may lead to a state. -/
def Reaches : Scanner → Scanner → Prop :=
  Relation.ReflTransGen fun s s' => s.step = .next s'

/- Only an error keeps the scanner from the end of a text. -/
theorem exists_overflow_of_scan
    {s : Scanner}
    (hScan : s.scan = none) :
    ∃ s', s.Reaches s' ∧ s'.step = .overflow := by
  cases hStep : s.step with
  | ended =>
      rw [scan_of_ended hStep] at hScan
      cases hScan
  | overflow => exact ⟨s, .refl, hStep⟩
  | next behind =>
      rw [scan_of_next hStep] at hScan
      rcases exists_overflow_of_scan hScan with
        ⟨s', hReaches, hOverflow⟩
      exact ⟨s', .head hStep hReaches, hOverflow⟩
termination_by s.rest.length
decreasing_by exact length_rest_step hStep

/-
  Every state that is reached is the scanner of a lexer,
  which has read the tokens that were made.
-/
theorem Reaches.exists_reads
    {l : Lexer}
    {ts : List Token}
    {s : Scanner}
    (hCounted : Enclosure.Counted l.enclosures)
    (hReaches : Reaches (ofLexer l ts) s) :
    ∃ l' us,
      s = ofLexer l' (ts ++ us) ∧
        Lexer.Reads l us l' ∧
          Enclosure.Counted l'.enclosures := by
  induction hReaches with
  | refl =>
      refine ⟨l, [], ?_, .done, hCounted⟩
      rw [List.append_nil]
  | tail _ hStep ih =>
      rcases ih with ⟨l', us, rfl, hReads, hCounted⟩
      cases hRest : l'.rest with
      | nil =>
          have hEnd :
              (ofLexer l' (ts ++ us)).step = .ended :=
            if_pos hRest
          rw [hEnd] at hStep
          cases hStep
      | cons c cs =>
          rcases step_ofLexer hRest hCounted (ts ++ us) with
            ⟨hFits, hSame⟩ | ⟨-, hSame⟩
          · rw [hSame] at hStep
            cases hStep
            have hNext := Lexer.Reads.next hRest .done
            rw [List.append_nil] at hNext
            rw [List.append_assoc]
            exact ⟨_, _, rfl, hReads.trans hNext, hFits⟩
          · rw [hSame] at hStep
            cases hStep

------------------------------------------------------------
-- Discipline
------------------------------------------------------------

/- The rule is the one that the scanner takes. -/
def Takes (s : Scanner) (rule : Rule) : Prop :=
  s.rest ≠ [] ∧
    ∃ n, longestMatch (rulesFor s.mode) s.rest = some (n, rule)

/- The innermost template has an open brace. -/
def HasBrace (s : Scanner) : Prop :=
  ∃ n braces, s.braces = n :: braces ∧ 0 < n

/-
  The stacks of the scanner are in step.

  The first mode is code and is below all others: no rule
  that leaves a mode is taken where it is the only one.  Each
  template that was entered has a number of open braces.  A
  closing brace that closes no brace is taken in a template
  whose number is zero.  Only the last number of 32 bits
  makes the scanner stop.
-/
structure Disciplined (s : Scanner) : Prop where
  bottom : s.modes.getLast? = some .code
  braces : s.braces.length = s.modes.count .template
  progress : s.rest ≠ [] → ∃ rule, s.Takes rule
  pop :
    ∀ rule kind,
      s.Takes rule →
        rule.action = .pop kind → 1 < s.modes.length
  fallback :
    ∀ rule,
      s.Takes rule →
        rule.action = .closeBrace →
          ¬ s.HasBrace →
            s.braces.head? = some 0 ∧ s.mode = .template ∧
              1 < s.modes.length
  overflow :
    s.step = .overflow →
      ∃ rule kind n,
        s.Takes rule ∧ rule.action = .openBrace kind ∧
          s.braces.head? = some n ∧ n.toNat = 2 ^ 32 - 1

/- The rule that is taken is that of the first lexeme. -/
theorem Takes.agrees
    {l : Lexer}
    {ts : List Token}
    {rule : Rule}
    (hTakes : (ofLexer l ts).Takes rule) :
    ∃ text kind?,
      rule.action.Agrees text l.enclosures kind? := by
  rcases hTakes with ⟨hSome, n, hMatch⟩
  rw [mode_ofLexer] at hMatch
  change l.rest ≠ [] at hSome
  change longestMatch _ l.rest = _ at hMatch
  rcases List.exists_cons_of_ne_nil hSome with
    ⟨c, cs, hRest⟩
  rcases longestMatch_lexeme l.enclosures c cs with
    ⟨found, hFound, hAgrees⟩
  rw [← hRest, hMatch] at hFound
  cases hFound
  exact ⟨_, _, hAgrees⟩

/- Only braces that cannot be counted are not opened. -/
theorem exists_of_apply_eq_none
    {action : RuleAction}
    {text : String}
    {span : Span}
    {s : Scanner}
    (hApply : s.apply action text span = none) :
    ∃ kind n,
      action = .openBrace kind ∧
        s.braces.head? = some n ∧ n.toNat = 2 ^ 32 - 1 := by
  unfold apply at hApply
  split at hApply
  case h_6 kind =>
    have hOpen := Option.map_eq_none_iff.1 hApply
    unfold openBrace? at hOpen
    split at hOpen
    · cases hOpen
    · rename_i n braces hBraces
      have hNext := Option.map_eq_none_iff.1 hOpen
      unfold nextCount? at hNext
      split at hNext
      · cases hNext
      · rename_i hNot
        have hLess := UInt32.toNat_lt n
        refine ⟨kind, n, rfl, ?_, by omega⟩
        rw [hBraces]
        rfl
  case h_7 =>
    split at hApply
    · split at hApply <;> cases hApply
    · cases hApply
  all_goals cases hApply

theorem exists_of_step_eq_overflow
    {s : Scanner}
    (hStep : s.step = .overflow) :
    ∃ rule kind n,
      s.Takes rule ∧ rule.action = .openBrace kind ∧
        s.braces.head? = some n ∧ n.toNat = 2 ^ 32 - 1 := by
  unfold step at hStep
  split at hStep
  · cases hStep
  · rename_i hSome
    split at hStep
    · cases hStep
    · rename_i length rule hMatch
      split at hStep
      · rename_i hApply
        rcases exists_of_apply_eq_none hApply with
          ⟨kind, n, hAction, hHead, hLast⟩
        exact ⟨rule, kind, n, ⟨hSome, length, hMatch⟩,
          hAction, hHead, hLast⟩
      · cases hStep

/- The scanner of a lexer is in step. -/
theorem disciplined_ofLexer
    {l : Lexer}
    (hCounted : Enclosure.Counted l.enclosures)
    (ts : List Token) :
    (ofLexer l ts).Disciplined where
  bottom := List.getLast?_concat
  braces := by
    unfold ofLexer
    dsimp only
    rw [List.count_append, List.length_map,
      Enclosure.length_openBraces]
    rfl
  progress := by
    intro hSome
    rcases List.exists_cons_of_ne_nil hSome with
      ⟨c, cs, hRest⟩
    rcases longestMatch_lexeme l.enclosures c cs with
      ⟨rule, hMatch, -⟩
    rw [← mode_ofLexer l ts, ← hRest] at hMatch
    exact ⟨rule, hSome, _, hMatch⟩
  pop := by
    intro rule kind hTakes hPop
    rcases hTakes.agrees with ⟨text, kind?, hAgrees⟩
    rw [hPop] at hAgrees
    rcases l with ⟨position, es, rest⟩
    cases hAgrees
    exact one_lt_length_modes _ _
  fallback := by
    intro rule hTakes hClose hNone
    rcases hTakes.agrees with ⟨text, kind?, hAgrees⟩
    rw [hClose] at hAgrees
    rcases l with ⟨position, es, rest⟩
    cases hAgrees with
    | closeBrace =>
        have hCount :=
          (Enclosure.counted_template.1 hCounted).1
        exact absurd
          ⟨_, _, rfl, (ofNat_succ_sub_one hCount).1⟩ hNone
    | templateEnd =>
        exact ⟨rfl, rfl, one_lt_length_modes _ _⟩
  overflow := exists_of_step_eq_overflow

end Scanner

/- The tokens that are read follow each other. -/
theorem Lexer.Reads.follows
    {l l' : Lexer}
    {ts : List Token}
    (hReads : Lexer.Reads l ts l') :
    Enclosure.Follows l.enclosures (ts.map (·.kind)) := by
  induction hReads with
  | done => exact .nil
  | @next l c cs ts l' hRest _ ih =>
      unfold Lexer.made
      cases hKind : (lexeme l.enclosures c cs).kind with
      | none =>
          unfold Lexer.pass at ih
          rw [hKind] at ih
          exact ih
      | some kind =>
          unfold Lexer.pass at ih
          rw [hKind] at ih
          exact .cons (fits_lexeme hKind) ih

/-
  The lexer is disciplined.  The states of a scanner with two
  stacks are in step in all its runs, and the kinds of the
  tokens that it has made begin a word in which all strings,
  templates and braces of templates are closed.  What it
  makes of a text are the tokens of the text, and it makes
  them unless it is stopped, in a state that is in step, by
  more braces than 32 bits count.
-/
theorem tokenize_disciplined
    (source : String)
    (file? : Option String) :
    let start := Scanner.start source file?
    (∀ s,
        start.Reaches s →
          s.Disciplined ∧
            ∃ rest,
              Nests .code (s.tokens.map (·.kind) ++ rest)) ∧
      (∀ tokens,
        start.scan = some tokens →
          tokens = tokenize source file?) ∧
      (start.scan = none →
        ∃ s, start.Reaches s ∧ s.step = .overflow) ∧
      (source.length < 2 ^ 32 →
        start.scan = some (tokenize source file?)) ∧
      ∃ kinds rest,
        (tokenize source file?).map (·.kind) =
            kinds ++ [.eof] ∧
          Nests .code (kinds ++ rest) := by
  refine ⟨?_, fun _ => Scanner.eq_tokenize_of_scan,
    Scanner.exists_overflow_of_scan,
    fun hShort => Scanner.scan_start hShort file?, ?_⟩
  · intro s hReaches
    have hStart :
        Scanner.start source file? =
          Scanner.ofLexer (Lexer.start source file?) [] :=
      rfl
    rw [hStart] at hReaches
    rcases hReaches.exists_reads
        (Scanner.counted_start source file?) with
      ⟨l, ts, rfl, hReads, hCounted⟩
    exact ⟨Scanner.disciplined_ofLexer hCounted _,
      hReads.follows.closes⟩
  · rcases follows_tokensFrom
        (Position.first (file?.getD Lexer.unnamed)) []
        source.toList with
      ⟨kinds, hKinds, hFollows⟩
    rcases hFollows.closes with ⟨rest, hCloses⟩
    exact ⟨kinds, rest, hKinds, hCloses⟩

end SourceCheck
