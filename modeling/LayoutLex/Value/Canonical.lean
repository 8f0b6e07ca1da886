import LayoutLex.Number.RealText
import LayoutLex.Text.Quoted
import LayoutLex.Value

/-!
# The canonical text of a value

`Value.text` writes a value the way the language reads it.

* Numbers are written as literals, a logical value as `1` or `0`, null as two double quotes.
* A vector of characters is their codes read as Latin-1, without quotes or spaces; any other
  container is its elements with one space between.

`Value.inspect` shows a value together with its kind.
-/

namespace LayoutLex.Value

/-- The Latin-1 character with the code. -/
def latin (code : UInt8) : Char :=
  Char.ofNat code.toNat

mutual

/-- The canonical text. -/
def text : Value → List Char
  | logical truth => if truth then ['1'] else ['0']
  | integer n => intText n.toInt
  | real x => x.text
  | character code => [latin code]
  | vector ⟨vs, _⟩ =>
    match codes? vs with
    | some (code :: codes) => (code :: codes).map latin
    | _ => spaced vs
  | matrix _ _ ⟨vs, _⟩ => spaced vs
  | list vs => spaced vs
  | null => ['\x22', '\x22']

/-- The texts of the elements with a space between any two. -/
def spaced : List Value → List Char
  | [] => []
  | [v] => text v
  | v :: w :: vs => text v ++ ' ' :: spaced (w :: vs)

end

/-- The canonical text as a string. -/
def canonical (v : Value) : String :=
  String.ofList v.text

/-- The value with its kind. -/
def inspect (v : Value) : String :=
  let shown :=
    match v with
    | character code => "v=" ++ toString code.toNat ++ " chr='" ++ v.canonical ++ "'"
    | _ => if v.isString then Text.quoted v.canonical else "v=" ++ v.canonical
  "#<" ++ v.kind.name ++ " " ++ shown ++ ">"

end LayoutLex.Value
