import LayoutLex.Text.Printable

/-!
# Quoted text

How a message quotes a text: in double quotes, on one line, with every character visible.

* Backslash and double quote get a backslash before them; a single quote stays as it is.
* NUL, tab, carriage return and line feed have one-letter escapes.
* Any other character that is not shown as itself is written by its number in hexadecimal.
-/

namespace LayoutLex.Text

/-- The character as it stands inside quotes. -/
def quotedChar (c : Char) : List Char :=
  match c with
  | '\x00' => ['\\', '0']
  | '\t' => ['\\', 't']
  | '\r' => ['\\', 'r']
  | '\n' => ['\\', 'n']
  | '\\' => ['\\', '\\']
  | '\x22' => ['\\', '\x22']
  | c => if isShown c then [c] else "\\u\x7b".toList ++ Nat.toDigits 16 c.toNat ++ ['\x7d']

/-- The text in double quotes. -/
def quoted (text : String) : String :=
  String.ofList ('\x22' :: text.toList.flatMap quotedChar ++ ['\x22'])

end LayoutLex.Text
