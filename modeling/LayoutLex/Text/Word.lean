/-!
# Characters of code

Which characters make up names and numbers. All of them are ASCII.
-/

namespace LayoutLex.Text

/-- A name starts with an uppercase letter. -/
def isNameStart (c : Char) : Bool :=
  c.isUpper

/-- A name goes on with uppercase letters, digits and three marks. -/
def isNameChar (c : Char) : Bool :=
  c.isUpper || c.isDigit || c == '_' || c == '$' || c == '#'

/-- A number starts with a digit or a point. -/
def isNumberStart (c : Char) : Bool :=
  c.isDigit || c == '.'

/-- A plus or minus sign. -/
def isSign (c : Char) : Bool :=
  c == '+' || c == '-'

/-- A number goes on with digits, points, signs and exponent letters. -/
def isNumberChar (c : Char) : Bool :=
  c.isDigit || c == '.' || isSign c || c == 'e' || c == 'E'

/-- The characters that are words by themselves. -/
def delimiters : List Char :=
  "-+*/:;=()^%!<>,|[]".toList

/-- A character that is a word by itself. -/
def isDelimiter (c : Char) : Bool :=
  delimiters.contains c

/-- The text is a name. -/
def isName : List Char → Bool
  | [] => false
  | c :: cs => isNameStart c && cs.all isNameChar

theorem isNameChar_of_isNameStart {c : Char} (h : isNameStart c = true) : isNameChar c = true := by
  simp only [isNameStart] at h
  simp [isNameChar, h]

end LayoutLex.Text
