import Mathlib
import SourceCheck.Proofs.Annotations.Reading
import SourceCheck.Proofs.Syntax.Fresh
import SourceCheck.Proofs.Syntax.Subtrees

/-
  Written types and their texts.

  A written type of an accepted program is grouped as its
  joins bind, `&` more tightly than `|` and both to the left,
  wherever it stands.  So its text decides on what it says,
  and if its names are plain it is read from its text again.
  A type that was left out has a text too, but none that can
  be read.

  Key theorems include:
    * `TypeExpr.isReadable_of_isIn`
    * `annotations_of_text`
-/

namespace SourceCheck

variable {source file : String}
variable {p : Program}
variable {x : TypeExpr}

/- Written types are grouped as their joins bind. -/
theorem TypeExpr.isReadable_of_isIn
    (hAccepted : parseProgram source file = .ok p)
    (hIn : x.IsIn p)
    (hPresent : x.isAbsent = false) :
    x.IsReadable := by
  have hDerives := derivesProgram_of_parseProgram hAccepted
  have hStands :=
    (located_parseProgram source file).1 p hAccepted
  exact x.isReadable_of_parsed
    (namesTypes_isTokenOf source file)
    (hIn.obeys hDerives.parsed) hPresent
    (hIn.obeys hStands.obeys)

/- The text `?` has no other characters in it. -/
theorem ne_mark_of_mem
    {text : String}
    {c : Char}
    (hThere : c ∈ text.toList)
    (hOther : c ≠ '?') :
    text ≠ "?" := by
  rintro rfl
  exact hOther (List.mem_singleton.mp hThere)

/- What is written never reads as what was left out. -/
theorem TypeExpr.text_ne_of_present
    (hPresent : x.isAbsent = false)
    (hStands : x.Obeys (.standing (IsTokenOf source file))) :
    x.text ≠ "?" := by
  rcases x with ⟨form, span, type⟩
  cases form with
  | absent => cases hPresent
  | named name =>
      rcases hStands.1.2 with ⟨t, hToken, hName, rfl⟩
      intro hText
      have hSame : t.name = "?" := hText
      have hMark : '?' ∈ t.name.toList := by
        rw [hSame]
        exact List.mem_singleton_self _
      exact absurd (isWordPart_of_name hToken hName _ hMark)
        (by decide)
  | union left right =>
      exact ne_mark_of_mem (mem_toList_joined toList_bar _ _)
        (by decide)
  | intersection left right =>
      exact ne_mark_of_mem
        (mem_toList_joined toList_ampersand _ _) (by decide)

/- So a type was left out if and only if its text says so. -/
theorem TypeExpr.isAbsent_iff_text
    (hAccepted : parseProgram source file = .ok p)
    (hIn : x.IsIn p) :
    x.isAbsent = true ↔ x.text = "?" := by
  constructor
  · intro hAbsent
    rcases x with ⟨form, span, type⟩
    cases form with
    | absent => rfl
    | _ => cases hAbsent
  · intro hText
    by_contra hPresent
    exact TypeExpr.text_ne_of_present
      (eq_false_of_ne_true hPresent)
      (hIn.obeys
        ((located_parseProgram source file).1 p
          hAccepted).obeys)
      hText

/- Types that were left out say the same. -/
theorem TypeExpr.equivalent_of_isAbsent
    {y : TypeExpr}
    (hFirst : x.isAbsent = true)
    (hSecond : y.isAbsent = true) :
    x.equivalent y = true := by
  rcases x with ⟨f, _, _⟩
  rcases y with ⟨g, _, _⟩
  cases f with
  | absent =>
      cases g with
      | absent => rfl
      | _ => cases hSecond
  | _ => cases hFirst

/-
  Written types and their texts.

  A type that is written in an accepted program, wherever it
  stands, is grouped as its joins bind.  If its names are
  plain, a variable that is declared with its text is read,
  and the type of the variable says the same.  And whatever
  their names, types of accepted programs that have the same
  text say the same, even if they were left out.
-/
theorem annotations_of_text :
    (∀ source file p (x : TypeExpr),
        parseProgram source file = .ok p →
          x.IsIn p →
            x.isAbsent = false →
              x.IsReadable ∧
                (PlainMentions x.mentions →
                  ∀ isMutable name other,
                    isPlainName name = true →
                      ∃ q,
                        parseProgram
                            (declaring isMutable name x.text)
                            other = .ok q ∧
                          q.DeclaresOnly isMutable name
                            x)) ∧
      ∀ source file p (x : TypeExpr) source' file' q
          (y : TypeExpr),
        parseProgram source file = .ok p →
          x.IsIn p →
            parseProgram source' file' = .ok q →
              y.IsIn q →
                x.text = y.text → x.equivalent y = true := by
  constructor
  · intro source file p x hAccepted hIn hPresent
    have hReadable :=
      TypeExpr.isReadable_of_isIn hAccepted hIn hPresent
    refine ⟨hReadable, ?_⟩
    intro hPlain isMutable name other hName
    exact parseProgram_declaring isMutable other hName
      hReadable hPlain
  · intro source file p x source' file' q y hFirst hIn
      hSecond hThere hText
    have hAbsent := TypeExpr.isAbsent_iff_text hFirst hIn
    have hOther := TypeExpr.isAbsent_iff_text hSecond hThere
    rw [hText, ← hOther] at hAbsent
    by_cases hNone : x.isAbsent = true
    · exact TypeExpr.equivalent_of_isAbsent hNone
        (hAbsent.1 hNone)
    · have hSome := eq_false_of_ne_true (hAbsent.not.1 hNone)
      exact x.equivalent_of_text y
        (TypeExpr.isReadable_of_isIn hFirst hIn
          (eq_false_of_ne_true hNone))
        (TypeExpr.isReadable_of_isIn hSecond hThere hSome)
        hText

/- The type of a single property is found in its program. -/
theorem VariableDecl.isIn_typeExpr
    {d : VariableDecl}
    (hDeclares : p.declarations = [.property d]) :
    d.typeExpr.IsIn p := by
  rcases p with ⟨imports, declarations, scope, symbols, span⟩
  rcases d with
    ⟨isMutable, name, typeExpr, initializer, id, place⟩
  cases hDeclares
  refine ⟨.within
    (.programDeclaration imports [] [] scope symbols span)
    (.within .propertyDeclaration
      (.within
        (.variableType isMutable name initializer id place)
        .hole)), ?_⟩
  simp [Context.fill, Frame.fill]

/- Three names and both joins. -/
theorem annotations_of_text_joined :
    ∃ p d,
      parseProgram "val x: a | b & c;" "main" = .ok p ∧
        p.declarations = [.property d] ∧
          d.typeExpr.text = "a | b & c" ∧
            ∃ q,
              parseProgram (declaring true "y" d.typeExpr.text)
                  "main" = .ok q ∧
                q.DeclaresOnly true "y" d.typeExpr := by
  have hParsed :
      ∃ imports d scope symbols span,
        parseProgram "val x: a | b & c;" "main" =
            .ok ⟨imports, [.property d], scope, symbols,
              span⟩ ∧
          d.typeExpr.text = "a | b & c" ∧
            d.typeExpr.mentions.all
                (fun m => isPlainName m.name) = true ∧
              d.typeExpr.isAbsent = false := by
    refine ⟨?imports, ?d, ?scope, ?symbols, ?span, ?_, ?_⟩
    rotate_left 5
    · conv => lhs; cbv
    · refine ⟨?_, ?_, ?_⟩ <;> decide
  rcases hParsed with
    ⟨imports, d, scope, symbols, span, hAccepted, hText,
      hNames, hPresent⟩
  have hIn := VariableDecl.isIn_typeExpr
    (p := ⟨imports, [.property d], scope, symbols, span⟩) rfl
  have hPlain : PlainMentions d.typeExpr.mentions :=
    List.all_eq_true.1 hNames
  have hAgain :=
    (annotations_of_text.1 _ "main" _ _ hAccepted hIn
      hPresent).2 hPlain true "y" "main" (by decide)
  exact ⟨_, d, hAccepted, rfl, hText, hAgain⟩

/-
  A type that was left out has no names and the text `?`,
  which is the text of no type.
-/
theorem parseProgram_declaring_absent :
    ∃ (p : Program) (x : TypeExpr),
      parseProgram "val x;" "main" = .ok p ∧
        x.IsIn p ∧ PlainMentions x.mentions ∧
          x.text = "?" ∧
            ∀ q,
              parseProgram (declaring false "y" x.text)
                  "main" ≠ .ok q := by
  have hParsed :
      ∃ imports d scope symbols span,
        parseProgram "val x;" "main" =
            .ok ⟨imports, [.property d], scope, symbols,
              span⟩ ∧
          d.typeExpr.text = "?" ∧ d.typeExpr.mentions = [] := by
    refine ⟨?imports, ?d, ?scope, ?symbols, ?span, ?_, ?_⟩
    rotate_left 5
    · conv => lhs; cbv
    · exact ⟨rfl, rfl⟩
  have hRefused :
      (parseProgram (declaring false "y" "?")
          "main").isOk = false := by
    cbv
  rcases hParsed with
    ⟨imports, d, scope, symbols, span, hAccepted, hText,
      hNames⟩
  refine ⟨_, d.typeExpr, hAccepted,
    VariableDecl.isIn_typeExpr rfl, ?_, hText, ?_⟩
  · rw [hNames]
    exact List.forall_mem_nil _
  · intro q hOther
    rw [hText] at hOther
    rw [hOther] at hRefused
    exact Bool.false_ne_true hRefused.symm

end SourceCheck
