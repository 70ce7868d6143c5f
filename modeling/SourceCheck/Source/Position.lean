/-
  Places in a source text.

  A `Position` names one place by its byte offset in UTF-8
  and by its line and column; a `Span` is a half-open range
  between two of them.  Lines and columns start at one, and
  columns count characters.

  Key definitions include:
    * `Position`
    * `Position.after`
    * `Position.afterAll`
    * `Position.text`
    * `Span`
    * `Span.between`
-/

namespace SourceCheck

------------------------------------------------------------
-- Positions
------------------------------------------------------------

/- A place in a source file. -/
structure Position where
  offset : Nat
  line : Nat
  column : Nat
  file : String
deriving DecidableEq, Inhabited

namespace Position

/- The first place of a file. -/
def first (file : String) : Position :=
  ⟨0, 1, 1, file⟩

/- The place of things that stand in no file. -/
def null : Position :=
  first "<null>"

/- The place behind one character. -/
def after (p : Position) (c : Char) : Position :=
  if c = '\n' then
    { p with
      offset := p.offset + c.utf8Size
      line := p.line + 1
      column := 1 }
  else
    { p with
      offset := p.offset + c.utf8Size
      column := p.column + 1 }

@[simp]
theorem offset_after (p : Position) (c : Char) :
    (p.after c).offset = p.offset + c.utf8Size := by
  by_cases h : c = '\n' <;> simp [after, h]

@[simp]
theorem file_after (p : Position) (c : Char) :
    (p.after c).file = p.file := by
  by_cases h : c = '\n' <;> simp [after, h]

/- The place behind a run of characters. -/
def afterAll (p : Position) (cs : List Char) : Position :=
  cs.foldl after p

@[simp]
theorem afterAll_nil (p : Position) :
    p.afterAll [] = p :=
  rfl

@[simp]
theorem afterAll_cons
    (p : Position)
    (c : Char)
    (cs : List Char) :
    p.afterAll (c :: cs) = (p.after c).afterAll cs :=
  rfl

/- Runs of characters may be passed one by one. -/
theorem afterAll_append
    (p : Position)
    (cs ds : List Char) :
    p.afterAll (cs ++ ds) = (p.afterAll cs).afterAll ds :=
  List.foldl_append

/- File, line and column, divided by colons. -/
def text (p : Position) : String :=
  p.file ++ ":" ++ toString p.line ++ ":" ++
    toString p.column

end Position

------------------------------------------------------------
-- Spans
------------------------------------------------------------

/- A half-open range of a source file. -/
structure Span where
  start : Position
  stop : Position
deriving DecidableEq, Inhabited

namespace Span

/- The empty range at one place. -/
def point (p : Position) : Span :=
  ⟨p, p⟩

/- The empty range of things that stand in no file. -/
def null : Span :=
  point Position.null

/- From the start of one range to the end of another. -/
def between (a b : Span) : Span :=
  ⟨a.start, b.stop⟩

end Span

end SourceCheck
