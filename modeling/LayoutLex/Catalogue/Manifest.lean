import LayoutLex.Catalogue
import LayoutLex.Fault
import LayoutLex.Text.Lines
import LayoutLex.Text.Uppercase
import LayoutLex.Text.Utf8
import LayoutLex.Text.Word

/-!
# Manifests

A catalogue is written down as a manifest, one entry a line:

```text
# drawing
FUNCTION SQRT
command PLOT
Both VARS
```

* Lines end with a line feed. Blanks around a line do not count; empty lines and lines that start
  with `#` say nothing.
* An entry is a role and a name with blanks between. The role may be written in any case; the name
  must be one that a program can contain.
* An entry adds its role to what the name already is. The first line that is no entry makes the
  manifest faulty at the offset where that line starts.
-/

namespace LayoutLex.Catalogue

/-- What an entry says about its name. -/
inductive Role where
  | function | command | both
  deriving DecidableEq, Repr

/-- The role that a word stands for in any case. -/
def Role.ofWord? (word : List Char) : Option Role :=
  let form := Text.uppercase word
  if form = "FUNCTION".toList then some .function
  else if form = "COMMAND".toList then some .command
  else if form = "BOTH".toList then some .both
  else none

/-- A line of a manifest that says something. -/
structure Entry where
  role : Role
  name : String
  deriving DecidableEq, Repr

/-- The entry that a line without surrounding blanks is. -/
def Entry.ofLine? (line : List Char) : Option Entry :=
  match Text.fields line with
  | [word, name] =>
    if Text.isName name then
      (Role.ofWord? word).map fun role => ⟨role, String.ofList name⟩
    else none
  | _ => none

/-- A line without surrounding blanks says nothing. -/
def isComment (line : List Char) : Bool :=
  line.isEmpty || line.head? == some '#'

/-- The catalogue with what an entry says. -/
def add (c : Catalogue) (entry : Entry) : Catalogue :=
  match entry.role with
  | .function => c.addFunction entry.name
  | .command => c.addCommand entry.name
  | .both => (c.addFunction entry.name).addCommand entry.name

/-- The catalogue with what the lines say, the first of which starts at the offset. -/
def addLines (file : String) (offset : Nat) (c : Catalogue) :
    List (List Char) → Except Fault Catalogue
  | [] => .ok c
  | line :: lines =>
    let entryLine := Text.trim line
    let next := offset + Text.byteLength line
    if isComment entryLine then addLines file next c lines
    else
      match Entry.ofLine? entryLine with
      | some entry => addLines file next (c.add entry) lines
      | none => .error ⟨.badEntry (String.ofList entryLine), ⟨offset, file⟩⟩

/-- The catalogue that a manifest describes. -/
def ofManifest (manifest : String) (file : String) : Except Fault Catalogue :=
  addLines file 0 empty (Text.terminated (· == '\n') manifest.toList)

end LayoutLex.Catalogue
