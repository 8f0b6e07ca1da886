/-!
# Blanks

Two classes of white space, and trimming.

* `isBlank` is the Unicode property `White_Space`; trimming and the fields of a line go by it.
* `isSpace` is the four characters that separate words of code: space, tab and the two line
  breaks. `isBreak` is the line breaks alone.

Results:
* `isBlank_of_isSpace`: every separator is blank, so trimming a run of separators leaves nothing.
* `takeWhile_append_trimStart`, `trimEnd_append_takeWhile`: trimming takes off exactly the run of
  blanks at its end of the text.
-/

namespace LayoutLex.Text

/-- A line break: carriage return or line feed. -/
def isBreak (c : Char) : Bool :=
  c == '\r' || c == '\n'

/-- A separator of words: space, tab or a line break. -/
def isSpace (c : Char) : Bool :=
  c == ' ' || c == '\t' || isBreak c

/-- The Unicode property `White_Space`. -/
def isBlank (c : Char) : Bool :=
  let n := c.toNat
  (9 ≤ n && n ≤ 13) || n == 0x20 || n == 0x85 || n == 0xA0 || n == 0x1680 ||
    (0x2000 ≤ n && n ≤ 0x200A) || n == 0x2028 || n == 0x2029 || n == 0x202F || n == 0x205F ||
    n == 0x3000

theorem isBlank_of_isSpace {c : Char} (h : isSpace c = true) : isBlank c = true := by
  simp only [isSpace, isBreak, Bool.or_eq_true, beq_iff_eq] at h
  rcases h with (rfl | rfl) | rfl | rfl <;> rfl

/-! ## Trimming -/

/-- The text without its leading blanks. -/
def trimStart (cs : List Char) : List Char :=
  cs.dropWhile isBlank

/-- The text without its trailing blanks. -/
def trimEnd (cs : List Char) : List Char :=
  (cs.reverse.dropWhile isBlank).reverse

/-- The text without blanks at either end. -/
def trim (cs : List Char) : List Char :=
  trimEnd (trimStart cs)

/-- Trimming at the start takes off exactly the leading run of blanks. -/
theorem takeWhile_append_trimStart (cs : List Char) :
    cs.takeWhile isBlank ++ trimStart cs = cs :=
  List.takeWhile_append_dropWhile

/-- Trimming at the end takes off exactly the trailing run of blanks. -/
theorem trimEnd_append_takeWhile (cs : List Char) :
    trimEnd cs ++ (cs.reverse.takeWhile isBlank).reverse = cs := by
  rw [trimEnd, ← List.reverse_append, List.takeWhile_append_dropWhile, List.reverse_reverse]

theorem trim_nil : trim [] = [] := rfl

end LayoutLex.Text
