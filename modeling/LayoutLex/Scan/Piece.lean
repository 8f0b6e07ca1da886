import LayoutLex.Fault
import LayoutLex.Text.Blank
import LayoutLex.Text.Utf8
import LayoutLex.Token

/-!
# Pieces and their places

A scan cuts a text into pieces, each with a kind; together the pieces are the text. Placing them
gives tokens.

* With `Spacing.keep` every piece becomes a token. With `Spacing.drop` pieces lose the blanks at
  their ends, and those that are blank throughout are left out.
* `place` assigns byte offsets: a piece starts where the one before it ends, and a token starts
  after the blanks its piece has lost.
* A scan may stop at a delimiter that is never closed. `Split` is what it has cut off before that,
  and what remains.

Results:
* `place_cons`, `place_append`: tokens are placed piece by piece.
-/

namespace LayoutLex.Scan

/-- What becomes of the blanks of a source. -/
inductive Spacing where
  | keep | drop
  deriving DecidableEq, Repr, Inhabited

namespace Spacing

/-- The spacing that a setting asks for; blanks are kept unless it says `false`. -/
def ofSetting : Option String → Spacing
  | some "false" => drop
  | _ => keep

/-- The blanks are kept. -/
def keeps (spacing : Spacing) : Bool :=
  spacing == keep

end Spacing

/-- A piece of a text. -/
structure Piece where
  kind : TokenKind
  text : List Char
  deriving DecidableEq, Repr

/-- The text that pieces make up. -/
def textOf (pieces : List Piece) : List Char :=
  pieces.flatMap (·.text)

/-- A delimiter that is never closed, and the text after it. -/
structure Unclosed where
  delimiter : Char
  rest : List Char
  deriving DecidableEq, Repr

/-- The pieces of a text up to its end or up to a delimiter that is never closed. -/
structure Split where
  pieces : List Piece
  unclosed? : Option Unclosed
  deriving DecidableEq, Repr

namespace Split

/-- One more piece in front. -/
def cons (piece : Piece) (split : Split) : Split :=
  { split with pieces := piece :: split.pieces }

/-- The fault of a split that starts at the offset: its position is just after the delimiter. -/
def fault? (split : Split) (file : String) (start : Nat) : Option Fault :=
  split.unclosed?.map fun unclosed =>
    ⟨.unclosed unclosed.delimiter (String.ofList (unclosed.delimiter :: unclosed.rest)),
      ⟨start + Text.byteLength (textOf split.pieces) + 1, file⟩⟩

end Split

/-! ## Placing -/

/-- The text of a token, and the number of bytes cut off in front of it. -/
def Spacing.cut (spacing : Spacing) (text : List Char) : Nat × List Char :=
  match spacing with
  | .keep => (0, text)
  | .drop => (Text.byteLength (text.takeWhile Text.isBlank), Text.trim text)

/-- The token of a piece that starts at the offset, unless nothing of it is left. -/
def Piece.token? (spacing : Spacing) (file : String) (start : Nat) (piece : Piece) : Option Token :=
  let (skipped, text) := spacing.cut piece.text
  if text.isEmpty then none
  else
    some ⟨piece.kind, String.ofList text,
      ⟨start + skipped, file⟩, ⟨start + skipped + Text.byteLength text, file⟩⟩

/-- The tokens of pieces, the first of which starts at the offset. -/
def place (spacing : Spacing) (file : String) (start : Nat) : List Piece → List Token
  | [] => []
  | piece :: pieces =>
    (piece.token? spacing file start).toList ++
      place spacing file (start + Text.byteLength piece.text) pieces

theorem place_cons (spacing : Spacing) (file : String) (start : Nat) (piece : Piece)
    (pieces : List Piece) :
    place spacing file start (piece :: pieces) =
      (piece.token? spacing file start).toList ++
        place spacing file (start + Text.byteLength piece.text) pieces := rfl

theorem place_append (spacing : Spacing) (file : String) (start : Nat) (a b : List Piece) :
    place spacing file start (a ++ b) =
      place spacing file start a ++
        place spacing file (start + Text.byteLength (textOf a)) b := by
  induction a generalizing start with
  | nil => simp [place, textOf]
  | cons p ps ih =>
    simp [place_cons, ih, textOf, List.append_assoc, Nat.add_assoc]

end LayoutLex.Scan
