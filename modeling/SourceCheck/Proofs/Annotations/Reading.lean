import SourceCheck.Proofs.Annotations.Spelling
import SourceCheck.Proofs.Syntax.Acceptance

/-
  Reading the texts of written types back.

  A chain of names and joins is read from the left.  What
  was read of it is extended as far as its joins bind, and
  so a written type whose joins group as they bind is read
  again as it was.

  Key definitions include:
    * `ParserState.Meets`
    * `Extensible`
    * `declaring`

  Key theorems include:
    * `TypeForm.extensible_operand`
    * `TypeForm.extensible`
    * `TypeExpr.derives_again`
    * `parseProgram_declaring`
-/

namespace SourceCheck

open SourceCheck.ParserState

variable {s t u : ParserState}

------------------------------------------------------------
-- Words between two states
------------------------------------------------------------

/- From one state to the other these words are passed. -/
inductive ParserState.Meets :
    ParserState →
      List (TokenKind × String) → ParserState → Prop where
  | nil {s : ParserState} : Meets s [] s
  | cons {s t : ParserState} {w ws}
      (hWord : s.token.word = w)
      (hMore : Meets s.next ws t) :
      Meets s (w :: ws) t

namespace ParserState.Meets

variable {w : TokenKind × String}
variable {ws vs : List (TokenKind × String)}

/- Between the words there is a state. -/
theorem split
    (hMeets : s.Meets (ws ++ vs) t) :
    ∃ u, s.Meets ws u ∧ u.Meets vs t := by
  induction ws generalizing s with
  | nil => exact ⟨s, .nil, hMeets⟩
  | cons w ws ih =>
      cases hMeets with
      | cons hWord hMore =>
          rcases ih hMore with ⟨u, hFirst, hSecond⟩
          exact ⟨u, .cons hWord hFirst, hSecond⟩

/- Words that are ahead can be passed. -/
theorem of_ahead
    (hAhead : s.stream.ahead.map Token.word = ws ++ vs) :
    ∃ t,
      s.Meets ws t ∧ t.stream.ahead.map Token.word = vs := by
  induction ws generalizing s with
  | nil => exact ⟨s, .nil, hAhead⟩
  | cons w ws ih =>
      rcases List.map_eq_cons_iff.mp hAhead with
        ⟨token, rest, hTokens, hWord, hRest⟩
      rw [← ahead_next hTokens] at hRest
      rcases ih hRest with ⟨t, hMeets, hBehind⟩
      rw [← token_of_ahead hTokens] at hWord
      exact ⟨t, .cons hWord hMeets, hBehind⟩

/- Nothing is declared on the way. -/
theorem symbols_eq
    (hMeets : s.Meets ws t) :
    t.symbols = s.symbols := by
  induction hMeets with
  | nil => rfl
  | cons _ _ ih => exact ih

theorem scopes_eq
    (hMeets : s.Meets ws t) :
    t.scopes = s.scopes := by
  induction hMeets with
  | nil => rfl
  | cons _ _ ih => exact ih

end ParserState.Meets

------------------------------------------------------------
-- Chains of joins
------------------------------------------------------------

/-
  The type was read up to a state where it can be extended:
  whatever its extensions make of it is a whole operand.
-/
def Extensible
    (join : TypeJoin)
    (joins : List TypeJoin)
    (s : ParserState)
    (x : TypeExpr)
    (t : ParserState) :
    Prop :=
  ∀ y u,
    DerivesType (.extensions join joins x) t y u →
      DerivesType (.operand (join :: joins)) s y u

namespace Extensible

variable {join : TypeJoin}
variable {joins : List TypeJoin}
variable {x y : TypeExpr}

/- A chain starts with one operand. -/
theorem first
    (hFirst : DerivesType (.operand joins) s x t) :
    Extensible join joins s x t :=
  fun _ _ hMore => .joined hFirst hMore

/- It goes on with a join and another operand. -/
theorem more
    (hLeft : Extensible join joins s x t)
    (hJoin : t.token.kind = join.token)
    (hRight : DerivesType (.operand joins) t.next y u) :
    Extensible join joins s (join.combine x y) u :=
  fun _ _ hMore => hLeft _ _ (.more hJoin hRight hMore)

/- It stops where the join is not there. -/
theorem stop
    (hChain : Extensible join joins s x t)
    (hStop : t.token.kind ≠ join.token) :
    DerivesType (.operand (join :: joins)) s x t :=
  hChain _ _ (.stop hStop)

end Extensible

------------------------------------------------------------
-- Forms
------------------------------------------------------------

/- A plain name is read. -/
theorem derives_name
    {name : String}
    (hPlain : isPlainName name = true)
    (hMeets : s.Meets [(.ofWord name, name)] t) :
    DerivesType (.operand []) s
      (.new (.named name) s.token.span) t := by
  rcases hMeets with - | ⟨hWord, - | -⟩
  have hKind : s.token.kind = .ofWord name :=
    congrArg Prod.fst hWord
  have hName : s.token.kind.isName = true := by
    rw [hKind]
    exact isName_of_isPlainName hPlain
  have hDerives := DerivesType.name hName
  rw [name_eq_of_plain hWord] at hDerives
  exact hDerives

/- So is a written type that is one. -/
theorem TypeExpr.derives_again_name :
    ∀ x : TypeExpr,
      x.form.isName →
        PlainMentions x.mentions →
          s.Meets x.words t →
            ∃ y : TypeExpr,
              y.equivalent x = true ∧
                DerivesType (.operand []) s y t
  | ⟨.named name, _, _⟩, _, hPlain, hMeets =>
      ⟨.new (.named name) s.token.span, decide_eq_true rfl,
        derives_name
          (hPlain _ (List.mem_singleton_self _)) hMeets⟩

mutual

/-
  What is no union is read as a chain of intersections.  The
  induction is on the form, whose left part is the chain up
  to the last join.
-/
theorem TypeForm.extensible_operand (p : Position) :
    ∀ f : TypeForm,
      f.IsReadable →
        f.isUnion = false →
          PlainMentions (f.mentions p) →
            ∀ {s t : ParserState},
              s.Meets f.words t →
                ∃ g place,
                  g.equivalent f = true ∧
                    Extensible .intersection [] s
                      (.new g place) t
  | .absent, hReadable, _, _, _, _, _ => hReadable.elim
  | .named name, _, _, hPlain, s, _, hMeets =>
      ⟨.named name, s.token.span, decide_eq_true rfl,
        .first
          (derives_name (hPlain _ (List.mem_singleton_self _))
            hMeets)⟩
  | .union _ _, _, hUnion, _, _, _, _ =>
      absurd hUnion.symm Bool.false_ne_true
  | .intersection left right, hReadable, _, hPlain, s, t,
      hMeets => by
      rcases List.forall_mem_append.mp hPlain with
        ⟨hFirst, hSecond⟩
      rcases ParserState.Meets.split hMeets with
        ⟨u, hLeftWords, hOthers⟩
      rcases hOthers with - | ⟨hJoin, hRightWords⟩
      rcases TypeExpr.extensible_operand left hReadable.1.1
          hReadable.2.1 hFirst hLeftWords with
        ⟨x, hSame, hChain⟩
      rcases right.derives_again_name hReadable.2.2 hSecond
          hRightWords with
        ⟨y, hOther, hRight⟩
      refine ⟨.intersection x y, x.span.between y.span, ?_,
        hChain.more (congrArg Prod.fst hJoin) hRight⟩
      rw [TypeForm.equivalent, hSame, hOther]
      rfl
termination_by structural f => f

theorem TypeExpr.extensible_operand :
    ∀ t : TypeExpr,
      t.IsReadable →
        t.form.isUnion = false →
          PlainMentions t.mentions →
            ∀ {s u : ParserState},
              s.Meets t.words u →
                ∃ x : TypeExpr,
                  x.equivalent t = true ∧
                    Extensible .intersection [] s x u
  | ⟨form, span, _⟩, hReadable, hUnion, hPlain, _, _,
      hMeets => by
      rcases TypeForm.extensible_operand span.start form
          hReadable hUnion hPlain hMeets with
        ⟨g, place, hSame, hChain⟩
      exact ⟨.new g place, hSame, hChain⟩
termination_by structural t => t

end

/- A chain of intersections is a chain of one operand. -/
theorem TypeForm.extensible_of_operand
    {p : Position}
    {f : TypeForm}
    (hReadable : f.IsReadable)
    (hUnion : f.isUnion = false)
    (hPlain : PlainMentions (f.mentions p))
    (hStop : t.token.kind ≠ .ampersand)
    (hMeets : s.Meets f.words t) :
    ∃ g place,
      g.equivalent f = true ∧
        Extensible .union [.intersection] s (.new g place)
          t := by
  rcases TypeForm.extensible_operand p f hReadable hUnion
      hPlain hMeets with
    ⟨g, place, hSame, hChain⟩
  exact ⟨g, place, hSame, .first (hChain.stop hStop)⟩

mutual

/-
  A readable form is read as a chain of unions, if it is not
  followed by an ampersand.
-/
theorem TypeForm.extensible (p : Position) :
    ∀ f : TypeForm,
      f.IsReadable →
        PlainMentions (f.mentions p) →
          ∀ {s t : ParserState},
            t.token.kind ≠ .ampersand →
              s.Meets f.words t →
                ∃ g place,
                  g.equivalent f = true ∧
                    Extensible .union [.intersection] s
                      (.new g place) t
  | .absent, hReadable, _, _, _, _, _ => hReadable.elim
  | .named _, hReadable, hPlain, _, _, hStop, hMeets =>
      TypeForm.extensible_of_operand hReadable rfl hPlain
        hStop hMeets
  | .intersection _ _, hReadable, hPlain, _, _, hStop,
      hMeets =>
      TypeForm.extensible_of_operand hReadable rfl hPlain
        hStop hMeets
  | .union left right, hReadable, hPlain, s, t, hStop,
      hMeets => by
      rcases List.forall_mem_append.mp hPlain with
        ⟨hFirst, hSecond⟩
      rcases ParserState.Meets.split hMeets with
        ⟨u, hLeftWords, hOthers⟩
      rcases hOthers with - | ⟨hJoin, hRightWords⟩
      have hBar : u.token.kind = .pipe :=
        congrArg Prod.fst hJoin
      rcases TypeExpr.extensible left hReadable.1.1 hFirst
          (by rw [hBar]; decide) hLeftWords with
        ⟨x, hSame, hChain⟩
      rcases right.extensible_operand hReadable.1.2
          hReadable.2 hSecond hRightWords with
        ⟨y, hOther, hRight⟩
      refine ⟨.union x y, x.span.between y.span, ?_,
        hChain.more hBar (hRight.stop hStop)⟩
      rw [TypeForm.equivalent, hSame, hOther]
      rfl
termination_by structural f => f

theorem TypeExpr.extensible :
    ∀ t : TypeExpr,
      t.IsReadable →
        PlainMentions t.mentions →
          ∀ {s u : ParserState},
            u.token.kind ≠ .ampersand →
              s.Meets t.words u →
                ∃ x : TypeExpr,
                  x.equivalent t = true ∧
                    Extensible .union [.intersection] s x u
  | ⟨form, span, _⟩, hReadable, hPlain, _, _, hStop,
      hMeets => by
      rcases TypeForm.extensible span.start form hReadable
          hPlain hStop hMeets with
        ⟨g, place, hSame, hChain⟩
      exact ⟨.new g place, hSame, hChain⟩
termination_by structural t => t

end

/- Where its words stand, a written type is read again. -/
theorem TypeExpr.derives_again
    {x : TypeExpr}
    (hReadable : x.IsReadable)
    (hPlain : PlainMentions x.mentions)
    (hBar : t.token.kind ≠ .pipe)
    (hAmpersand : t.token.kind ≠ .ampersand)
    (hMeets : s.Meets x.words t) :
    ∃ y : TypeExpr,
      y.equivalent x = true ∧
        DerivesType (.operand (joinsAbove .loosest)) s y
          t := by
  rcases x.extensible hReadable hPlain hAmpersand hMeets with
    ⟨y, hSame, hChain⟩
  exact ⟨y, hSame, hChain.stop hBar⟩

------------------------------------------------------------
-- Declared types
------------------------------------------------------------

/- The text of a variable of a written type. -/
def declaring
    (isMutable : Bool)
    (name type : String) :
    String :=
  (if isMutable then "var" else "val") ++ " " ++ name ++
    ": " ++ type ++ ";"

/- The word that starts a variable. -/
def variableWord (isMutable : Bool) : TokenKind × String :=
  if isMutable then (.kwVar, "var") else (.kwVal, "val")

/- The tokens of such a text. -/
theorem codeWords_declaring
    {name type : String}
    {ws : List (TokenKind × String)}
    (isMutable : Bool)
    (hName : isWord name = true)
    (hType : ReadsAs type ws) :
    codeWords (declaring isMutable name type).toList =
      variableWord isMutable :: (.ofWord name, name) ::
        (.colon, ":") ::
          (ws ++ [(.semicolon, ";"), (.eof, "EOF")]) := by
  have hEnd :
      codeWords [';'] =
        [(.semicolon, ";"), (.eof, "EOF")] := by
    rw [codeWords_symbol (by decide) (by decide) rfl rfl,
      codeWords_end]
  have hColon :
      codeWords (':' :: ' ' :: (type.toList ++ [';'])) =
        (.colon, ":") ::
          (ws ++ [(.semicolon, ";"), (.eof, "EOF")]) := by
    rw [codeWords_symbol (by decide) (by decide) rfl rfl,
      codeWords_blank (by decide),
      hType ';' (by decide) [], hEnd]
  have hKeyword :
      ReadsAs (if isMutable then "var" else "val")
        [variableWord isMutable] := by
    cases isMutable with
    | true => exact readsAs_word (by decide)
    | false => exact readsAs_word (by decide)
  have hChars :
      (declaring isMutable name type).toList =
        (if isMutable then "var" else "val").toList ++
          ' ' ::
            (name.toList ++
              ':' :: ' ' :: (type.toList ++ [';'])) := by
    simp [declaring]
  rw [hChars, hKeyword ' ' (by decide),
    codeWords_blank (by decide),
    readsAs_word hName ':' (by decide), hColon]
  rfl

/-
  The program is one variable without a value, and its type
  says the same.
-/
def Program.DeclaresOnly
    (p : Program)
    (isMutable : Bool)
    (name : String)
    (x : TypeExpr) :
    Prop :=
  p.imports = [] ∧
    ∃ d : VariableDecl,
      p.declarations = [.property d] ∧
        d.isMutable = isMutable ∧ d.name = name ∧
          d.initializer = none ∧
            d.typeExpr.equivalent x = true

/- The words of a variable are read as the variable. -/
theorem derivesProgram_of_words
    {name : String}
    {x : TypeExpr}
    {isMutable : Bool}
    (hSymbols : s.symbols = .empty)
    (hName : isPlainName name = true)
    (hReadable : x.IsReadable)
    (hPlain : PlainMentions x.mentions)
    (hMeets :
      s.opened.Meets
        (variableWord isMutable :: (.ofWord name, name) ::
          (.colon, ":") ::
            (x.words ++ [(.semicolon, ";"), (.eof, "EOF")]))
        t) :
    ∃ p,
      DerivesProgram s p ∧
        p.DeclaresOnly isMutable name x := by
  rcases hMeets with - | ⟨hKeyword, - | ⟨hNamed, - |
    ⟨hColon, hMeets⟩⟩⟩
  rcases hMeets.split with ⟨u, hWords, hEnd⟩
  rcases hEnd with - | ⟨hSemicolon, - | ⟨hLast, -⟩⟩
  have hMutable :
      s.opened.token.kind =
        if isMutable then .kwVar else .kwVal := by
    refine (congrArg Prod.fst hKeyword).trans ?_
    cases isMutable <;> rfl
  have hVariable :
      s.opened.token.kind = .kwVal ∨
        s.opened.token.kind = .kwVar := by
    rw [hMutable]
    cases isMutable with
    | true => exact .inr rfl
    | false => exact .inl rfl
  have hNoOther :
      s.opened.token.kind ≠ .eof ∧
        s.opened.token.kind ≠ .kwImport := by
    rw [hMutable]
    cases isMutable <;> decide
  have hStop : u.token.kind = .semicolon :=
    congrArg Prod.fst hSemicolon
  have hIsName : s.opened.next.token.kind.isName = true := by
    have hKind : s.opened.next.token.kind = .ofWord name :=
      congrArg Prod.fst hNamed
    rw [hKind]
    exact isName_of_isPlainName hName
  have hScope : u.next.scopes.head? = some s.newScope := by
    change u.scopes.head? = _
    rw [hWords.scopes_eq]
    rfl
  have hFree :
      u.next.symbols.hasLocal s.newScope
          s.opened.next.token.name =
        false := by
    change u.symbols.hasLocal _ _ = _
    rw [hWords.symbols_eq]
    unfold ParserState.newScope
    change (s.symbols.openScope s.scopes.head?).2.hasLocal
      _ _ = _
    rw [hSymbols]
    rfl
  rcases TypeExpr.derives_again hReadable hPlain
      (by rw [hStop]; decide) (by rw [hStop]; decide) hWords
    with ⟨y, hSame, hType⟩
  have hDerives :
      Derives (.variableDecl .property) s.opened _ _ :=
    .variableDecl hNoOther.1 hIsName
      (.present (congrArg Prod.fst hColon) hType)
      (.absent (by rw [hStop]; decide)) hStop rfl
      ⟨rfl, s.newScope, hScope, hFree, rfl⟩
  refine ⟨_, .intro (.stop hNoOther.2)
    (.more (.property hVariable hDerives)
      (.stop (congrArg Prod.fst hLast))), rfl, _, rfl, ?_,
    name_eq_of_plain hNamed, rfl, hSame⟩
  dsimp only
  rw [hMutable]
  cases isMutable <;> rfl

/- So the text of a variable of a readable type is read. -/
theorem parseProgram_declaring
    {name : String}
    {x : TypeExpr}
    (isMutable : Bool)
    (file : String)
    (hName : isPlainName name = true)
    (hReadable : x.IsReadable)
    (hPlain : PlainMentions x.mentions) :
    ∃ p,
      parseProgram (declaring isMutable name x.text) file =
          .ok p ∧
        p.DeclaresOnly isMutable name x := by
  have hWords :
      (tokenize (declaring isMutable name x.text)
          (some file)).map Token.word =
        variableWord isMutable :: (.ofWord name, name) ::
          (.colon, ":") ::
            (x.words ++
              [(.semicolon, ";"), (.eof, "EOF")]) := by
    rw [← codeWords_declaring isMutable
      (isWord_of_isPlainName hName)
      (x.readsAs_text hReadable hPlain)]
    exact Lexer.words_tokens [] _ _ _
  rw [← (ofSource_eq _ file).2.1,
    ← List.append_nil (_ :: _)] at hWords
  rcases ParserState.Meets.of_ahead
      (s := (ParserState.initial
        (declaring isMutable name x.text) file).opened)
      hWords with
    ⟨t, hMeets, -⟩
  rcases derivesProgram_of_words rfl hName hReadable
      hPlain hMeets with
    ⟨p, hDerives, hDeclares⟩
  exact ⟨p, parseProgram_iff_derives.2 hDerives, hDeclares⟩

end SourceCheck
