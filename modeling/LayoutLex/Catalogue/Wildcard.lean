import LayoutLex.Catalogue
import LayoutLex.Text.Uppercase

/-!
# Wildcards

Names are looked up by patterns. A pattern is put into uppercase first; then `*` stands for any
one character but a line feed, `-` for one or more of them, and every other character for itself.

* `Matches` says what it means for a text to match: it can be cut into one piece for each item.
* `covers` decides it. It goes through the items from the last to the first and keeps, for every
  suffix of the text, whether the items so far match it, so no cut is tried twice.
-/

namespace LayoutLex.Catalogue

/-- A part of a pattern. -/
inductive Item where
  /-- Any one character of a line. -/
  | any
  /-- One or more characters of a line. -/
  | many
  /-- The character itself. -/
  | exactly (c : Char)
  deriving DecidableEq, Repr

namespace Item

/-- The part that a character of an uppercase pattern stands for. -/
def ofChar (c : Char) : Item :=
  if c = '*' then any else if c = '-' then many else exactly c

/-- The piece of text is one that the item stands for. -/
def Takes : Item → List Char → Prop
  | any, piece => ∃ c, piece = [c] ∧ c ≠ '\n'
  | many, piece => piece ≠ [] ∧ ∀ c ∈ piece, c ≠ '\n'
  | exactly d, piece => piece = [d]

/-- Given whether the following items match each suffix of the text, longest first, whether this
item together with them does. -/
def row (item : Item) : List Char → List Bool → List Bool
  | [], _ => [false]
  | c :: cs, following =>
    let after := following.tail
    let shorter := row item cs after
    let here :=
      match item with
      | any => c != '\n' && after.headD false
      | many => c != '\n' && (after.headD false || shorter.headD false)
      | exactly d => c == d && after.headD false
    here :: shorter

end Item

/-- The items of a pattern. -/
def items (pattern : List Char) : List Item :=
  (Text.uppercase pattern).map Item.ofChar

/-- The text can be cut into one piece for each item. -/
inductive Matches : List Item → List Char → Prop
  | nil : Matches [] []
  | cons {item : Item} {parts : List Item} {piece rest : List Char} (takes : item.Takes piece)
    (others : Matches parts rest) : Matches (item :: parts) (piece ++ rest)

/-- The items match the text. -/
def covers (parts : List Item) (text : List Char) : Bool :=
  let finished := List.replicate text.length false ++ [true]
  (parts.foldr (fun item following => item.row text following) finished).headD false

/-- The pattern matches the name. -/
def patternMatches (pattern name : String) : Bool :=
  covers (items pattern.toList) name.toList

/-- The names that the pattern matches; the empty pattern asks for all. Every pattern is understood
here: that one may be too large for a matcher that has to compile it, and then match no name, is
left out. -/
def matching (pattern : String) (names : NameSet) : NameSet :=
  if pattern.isEmpty then names else names.filter (patternMatches pattern)

/-- The functions that the pattern asks for. -/
def functionsMatching (c : Catalogue) (pattern : String) : NameSet :=
  matching pattern c.functions

/-- The commands that the pattern asks for. -/
def commandsMatching (c : Catalogue) (pattern : String) : NameSet :=
  matching pattern c.commands

end LayoutLex.Catalogue
