import LayoutLex.Scan.Piece
import LayoutLex.Text.Word

/-!
# Lexemes

The second scan cuts code into words. What a word is follows from its first character:

* separators: the longest run of them;
* an uppercase letter: a name, as long as possible;
* a digit or point, or a minus directly before one of them: a number, the longest run of number
  characters in which no sign follows a digit. If it is no numeral it is marked as such;
* a delimiter: one of the pairs `:=`, `<>`, `>=`, `<=`, or the delimiter alone;
* anything else: the longest run of such characters together with a name directly after it.

Every text has lexemes, so this scan never fails.
-/

namespace LayoutLex.Scan

/-- The delimiters of two characters. -/
def pairs : List (Char × Char) :=
  [(':', '='), ('<', '>'), ('>', '='), ('<', '=')]

/-- The character starts some pair. -/
def isPairStart (c : Char) : Bool :=
  pairs.any (·.1 == c)

/-- A number starts with `c` and goes on with the text. -/
def startsNumber (c : Char) (cs : List Char) : Bool :=
  Text.isNumberStart c || (c == '-' && (cs.head?.map Text.isNumberStart).getD false)

/-- The character has no meaning of its own. -/
def isOther (c : Char) : Bool :=
  !(Text.isSpace c || Text.isNameStart c || Text.isNumberStart c || Text.isDelimiter c)

/-! ## The words -/

/-- The rest of a number after its character `last`. -/
def numberTail (last : Char) : List Char → List Char
  | [] => []
  | c :: cs =>
    if Text.isNumberChar c && !(Text.isSign c && last.isDigit) then c :: numberTail c cs else []

/-- A number, marked as bad if it is no numeral. -/
def number (word : List Char) : Piece :=
  ⟨if Literal.isNumber word then .number else .badNumber, word⟩

/-- The kind of a delimiter that the character `next` follows. A sign before a separator has an
operand on either side; before anything else it has one operand. -/
def delimiterKind (c next : Char) : TokenKind :=
  if isPairStart c then .operator
  else if Text.isSign c then if Text.isSpace next then .dyadic else .monadic
  else if Operator.isOperator (String.singleton c) then .operator
  else .unresolved

/-- A delimiter and the text after it. At the end of the text its kind stays open. -/
def delimiter (c : Char) : List Char → Piece × List Char
  | [] => (⟨.unresolved, [c]⟩, [])
  | next :: rest =>
    if pairs.contains (c, next) then (⟨.operator, [c, next]⟩, rest)
    else (⟨delimiterKind c next, [c]⟩, next :: rest)

/-- A run of characters without meaning, with the name after it, and the text after that. -/
def other (c : Char) (cs : List Char) : Piece × List Char :=
  let run := c :: cs.takeWhile isOther
  match cs.dropWhile isOther with
  | [] => (⟨.unresolved, run⟩, [])
  | d :: rest =>
    if Text.isNameStart d then
      (⟨.unresolved, run ++ d :: rest.takeWhile Text.isNameChar⟩, rest.dropWhile Text.isNameChar)
    else (⟨.unresolved, run⟩, d :: rest)

/-- The first lexeme of a text and the text after it. -/
def lexeme (c : Char) (cs : List Char) : Piece × List Char :=
  if Text.isSpace c then
    (⟨.spaces, c :: cs.takeWhile Text.isSpace⟩, cs.dropWhile Text.isSpace)
  else if Text.isNameStart c then
    (⟨.unresolved, c :: cs.takeWhile Text.isNameChar⟩, cs.dropWhile Text.isNameChar)
  else if startsNumber c cs then
    (number (c :: numberTail c cs), cs.drop (numberTail c cs).length)
  else if Text.isDelimiter c then delimiter c cs
  else other c cs

/-! ## A lexeme and the rest are the text -/

theorem numberTail_append_drop (last : Char) (cs : List Char) :
    numberTail last cs ++ cs.drop (numberTail last cs).length = cs := by
  induction cs generalizing last with
  | nil => rfl
  | cons c cs ih =>
    unfold numberTail
    split
    · simp [ih]
    · rfl

theorem delimiter_append (c : Char) (cs : List Char) :
    (delimiter c cs).1.text ++ (delimiter c cs).2 = c :: cs := by
  cases cs with
  | nil => rfl
  | cons next rest =>
    simp only [delimiter]
    split <;> rfl

theorem other_append (c : Char) (cs : List Char) :
    (other c cs).1.text ++ (other c cs).2 = c :: cs := by
  have h := List.takeWhile_append_dropWhile (p := isOther) (l := cs)
  unfold other
  split
  · next hd => simp only [hd, List.append_nil] at h; simp [h]
  · next d rest hd =>
    rw [hd] at h
    split
    · simp [h]
    · simp [h]

/-- No text is lost between a lexeme and the rest. -/
theorem lexeme_append (c : Char) (cs : List Char) :
    (lexeme c cs).1.text ++ (lexeme c cs).2 = c :: cs := by
  unfold lexeme
  split
  · simp
  · split
    · simp
    · split
      · simp [number, numberTail_append_drop]
      · split
        · exact delimiter_append c cs
        · exact other_append c cs

theorem lexeme_text_ne_nil (c : Char) (cs : List Char) : (lexeme c cs).1.text ≠ [] := by
  unfold lexeme
  split
  · simp
  · split
    · simp
    · split
      · simp [number]
      · split
        · cases cs with
          | nil => simp [delimiter]
          | cons next rest => simp only [delimiter]; split <;> simp
        · unfold other
          split
          · simp
          · split <;> simp

theorem length_lexeme_lt (c : Char) (cs : List Char) :
    (lexeme c cs).2.length < (c :: cs).length := by
  have h := congrArg List.length (lexeme_append c cs)
  have hpos := List.length_pos_iff.mpr (lexeme_text_ne_nil c cs)
  rw [List.length_append] at h
  omega

/-- The lexemes of a text. -/
def lexemes : List Char → List Piece
  | [] => []
  | c :: cs => (lexeme c cs).1 :: lexemes (lexeme c cs).2
termination_by cs => cs.length
decreasing_by exact length_lexeme_lt c cs

end LayoutLex.Scan
