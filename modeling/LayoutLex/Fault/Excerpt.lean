import LayoutLex.Fault
import LayoutLex.Text.Locate

/-!
# Showing a fault in its source

A fault is shown as a few lines of text:

```text
Error: UnterminatedLiteral (Missing closing `"`)
-> layout.gpl
  |
1 | A:="abc
  | ----^
```

* The first two lines name the fault and the file; without a line at the fault's offset they are
  all there is.
* The source line loses its leading spaces and tabs, then every blank at its ends. The caret's
  place counts bytes of the line, less the spaces and tabs taken off.
-/

namespace LayoutLex.Fault

/-- The text behind as much filling as makes it `width` characters long. -/
def alignRight (fill : Char) (width : Nat) (text : String) : String :=
  String.ofList (List.replicate (width - text.length) fill) ++ text

/-- The spaces and tabs a line begins with. -/
def indentation (line : List Char) : List Char :=
  line.takeWhile fun c => c == ' ' || c == '\t'

/-- The line with the caret under the place in it. -/
def excerpt (located : Text.Located) : String :=
  let number := toString located.number
  let gutter := alignRight ' ' (number.length + 2) "|"
  let indent := indentation located.line
  let shown := String.ofList (Text.trim (located.line.drop indent.length))
  let caret := alignRight '-' (located.column - indent.length + 1) "^"
  gutter ++ "\n" ++ number ++ " | " ++ shown ++ "\n" ++ gutter ++ " " ++ caret ++ "\n"

/-- The first two lines. -/
def heading (fault : Fault) : String :=
  let title :=
    match fault.cause.advice? with
    | none => fault.cause.name
    | some advice => fault.cause.name ++ " (" ++ advice ++ ")"
  "Error: " ++ title ++ "\n-> " ++ fault.position.file ++ "\n"

/-- The fault as it is shown to a reader of `source`. -/
def render (fault : Fault) (source : String) : String :=
  match Text.locate source.toList fault.position.offset with
  | none => fault.heading
  | some located => fault.heading ++ excerpt located

end LayoutLex.Fault
