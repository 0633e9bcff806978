import NameMangling.Text.Basic

/-!
# Lines of a text

A line ends at a line feed, a carriage return, or a carriage return followed by a line feed. Nothing
else ends a line, and a text that ends with a line end has no further, empty line after it.

* `Text.splitLines_append_newline` — a line feed ends the line before it;
* `Text.splitLines_of_not_mem` — the last line may do without.
-/

namespace NameMangling.Text

/-- The carriage return. -/
def carriageReturn : CodePoint := '\r'

/-- Every line end of a text as a line feed; `afterReturn` says that a carriage return has just been
read, with which a line feed forms one line end. -/
def unifyLineEnds (afterReturn : Bool) : Text → Text
  | [] => []
  | c :: rest =>
    if c = carriageReturn then newline :: unifyLineEnds true rest
    -- The second half of a line end whose first half has been written.
    else if c = newline ∧ afterReturn then unifyLineEnds false rest
    else c :: unifyLineEnds false rest

/-- The pieces of a text that line feeds end, and what is left after the last one unless it is
empty. -/
def splitLines : Text → List Text
  | [] => []
  | c :: rest =>
    if c = newline then [] :: splitLines rest
    else match splitLines rest with
      | [] => [[c]]
      | line :: more => (c :: line) :: more

/-- The lines of a text. -/
def lines (t : Text) : List Text := splitLines (unifyLineEnds false t)

/-- A line feed ends a line that holds none. -/
theorem splitLines_append_newline {line : Text} (h : newline ∉ line) (rest : Text) :
    splitLines (line ++ newline :: rest) = line :: splitLines rest := by
  induction line with
  | nil => simp [splitLines]
  | cons c line ih =>
    obtain ⟨hc, h⟩ := List.ne_and_not_mem_of_not_mem_cons h
    simp only [List.cons_append, splitLines, ih h, if_neg (Ne.symm hc)]

/-- A text without line feeds is one line, unless it is empty. -/
theorem splitLines_of_not_mem {line : Text} (h : newline ∉ line) (hl : line ≠ []) :
    splitLines line = [line] := by
  induction line with
  | nil => exact absurd rfl hl
  | cons c line ih =>
    obtain ⟨hc, h⟩ := List.ne_and_not_mem_of_not_mem_cons h
    rw [splitLines, if_neg (Ne.symm hc)]
    cases line with
    | nil => rfl
    | cons d line => rw [ih h (List.cons_ne_nil _ _)]

example : lines (ofString "a\r\n\rb\n\nc") =
    [ofString "a", [], ofString "b", [], ofString "c"] := by decide

end NameMangling.Text
