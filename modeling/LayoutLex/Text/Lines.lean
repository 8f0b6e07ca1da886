import LayoutLex.Text.Blank

/-!
# Lines

Two readings of a text as a list of lines.

* `terminated ends` cuts after every character that `ends` a line and keeps it: no text is lost
  (`flatten_terminated`), and only the last line may lack its end.
* `runs sep` keeps the maximal non-empty runs of characters that are not separators: the
  non-empty lines of a source for `isBreak`, the fields of an entry for `isBlank`.

`dropLineEnd` and `dropBreaks` take the end of a line off: one line feed with one carriage return
before it, or every line break.
-/

namespace LayoutLex.Text

variable {α : Type}

/-- The lines of a text, each with the character that ends it. -/
def terminated (ends : α → Bool) : List α → List (List α)
  | [] => []
  | c :: rest =>
    if ends c then [c] :: terminated ends rest
    else
      match terminated ends rest with
      | [] => [[c]]
      | line :: lines => (c :: line) :: lines

/-- Cutting into lines loses no text. -/
@[simp] theorem flatten_terminated (ends : α → Bool) (cs : List α) :
    (terminated ends cs).flatten = cs := by
  induction cs with
  | nil => rfl
  | cons c rest ih =>
    unfold terminated
    split
    · simp [ih]
    · split
      · next h => simp [h] at ih; simp [← ih]
      · next h => simp [h] at ih; simp [← ih]

/-- The maximal non-empty runs of characters outside `sep`. -/
def runs (sep : Char → Bool) : List Char → List (List Char)
  | [] => []
  | c :: rest =>
    if sep c then runs sep rest
    else (c :: rest.takeWhile (!sep ·)) :: runs sep (rest.dropWhile (!sep ·))
termination_by cs => cs.length
decreasing_by
  · simp
  · exact Nat.lt_succ_of_le (List.dropWhile_sublist _).length_le

/-- The non-empty lines of a source, split at every line break. -/
def sourceLines (cs : List Char) : List (List Char) :=
  runs isBreak cs

/-- The blank-separated fields of a line. -/
def fields (cs : List Char) : List (List Char) :=
  runs isBlank cs

/-- A line without its line feed and without one carriage return before that. -/
def dropLineEnd (cs : List Char) : List Char :=
  match cs.reverse with
  | '\n' :: '\r' :: r => r.reverse
  | '\n' :: r => r.reverse
  | _ => cs

/-- A text without the line breaks at its end. -/
def dropBreaks (cs : List Char) : List Char :=
  (cs.reverse.dropWhile isBreak).reverse

end LayoutLex.Text
