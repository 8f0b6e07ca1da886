import LayoutLex.Value

/-!
# Character constants

A character is written as itself or as a constant in angle brackets: a name (`<ESC>`) or the octal
digits of its code (`<33>`).
-/

namespace LayoutLex.Literal

/-- The named characters and their codes. -/
def namedCodes : List (String × UInt8) :=
  [("NUL", 0), ("BEL", 7), ("TAB", 9), ("LF", 10), ("FF", 12), ("CR", 13), ("NL", 13), ("ESC", 27),
    ("BROFF", 30), ("BRON", 31), ("QT", 34), ("LT", 60), ("GT", 62), ("DEL", 127)]

/-- The code with one more octal digit; none if the character is no octal digit or the code would
not fit in a byte. -/
def pushOctal? (code : UInt8) (c : Char) : Option UInt8 :=
  if '0' ≤ c ∧ c ≤ '7' then
    let pushed := 8 * code.toNat + (c.toNat - 0x30)
    if pushed < 256 then some (UInt8.ofNat pushed) else none
  else none

/-- The code that octal digits denote; none if a character is no octal digit or the code does not
fit in a byte. -/
def octalCode? (cs : List Char) : Option UInt8 :=
  cs.foldlM pushOctal? 0

/-- The code of what stands between the brackets. -/
def bracketedCode? (inner : List Char) : Option UInt8 :=
  match namedCodes.find? (·.1.toList == inner) with
  | some (_, code) => some code
  | none => if inner.isEmpty then none else octalCode? inner

/-- The code of a constant in angle brackets. -/
def constantCode? : List Char → Option UInt8
  | '<' :: rest =>
    if rest.getLast? = some '>' then bracketedCode? rest.dropLast else none
  | _ => none

/-- The code of a character, written as itself or as a constant. -/
def characterCode? : List Char → Option UInt8
  | [c] => if c.toNat < 256 then some (UInt8.ofNat c.toNat) else none
  | cs => constantCode? cs

/-- The character value that a text denotes. -/
def character? (cs : List Char) : Option Value :=
  (characterCode? cs).map .character

end LayoutLex.Literal
