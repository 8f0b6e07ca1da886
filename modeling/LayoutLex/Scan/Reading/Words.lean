import LayoutLex.Scan.Lexeme
import LayoutLex.Scan.Reading

/-!
# Words while reading

The second scan of a byte source, made byte by byte as the source gives them. What a byte does goes
by its class.

* A letter that starts a name joins the open word, whatever that is, and so do the bytes that go on
  with the name.
* A digit or point closes the open word and starts a number. Only an open minus stays: it is the
  sign of the number.
* A delimiter closes the open word. The byte after it says of what kind it is: two of some
  delimiters are one word, and a minus before a digit or point stays open. At the end of the source
  there is no such byte, so the delimiter stays open too.
* Separators close the open word and are a word if blanks are kept, else they are passed over.
* Any other byte joins the open word.

A byte that has been read only to see where a word ends is given back. A scan that is at its end
closes the open word. None of this can fail.
-/

namespace LayoutLex.Scan.Reading

open ByteSource

variable {σ : Type}

/-- The last character of the open word. -/
def last? (r : Reading σ) : Option Char :=
  r.word.back?.map Char.ofUInt8

/-- The character goes on with a name. -/
def joinsName (_last? : Option Char) (c : Char) : Bool :=
  Text.isNameChar c

/-- The character goes on with a number: a sign does not after a digit. -/
def joinsNumber (last? : Option Char) (c : Char) : Bool :=
  Text.isNumberChar c && !(Text.isSign c && last?.any Char.isDigit)

variable [ByteSource σ]

/-! ## Words read to their end -/

/-- Reads on while what comes joins the open word after its last character. -/
def readWhile (joins : Option Char → Char → Bool) (r : Reading σ) : Reading σ :=
  match _read : next? r.source with
  | (none, after) => { r with source := after }
  | (some b, after) =>
    if joins r.last? (Char.ofUInt8 b) then
      let longer := push { r with source := after } b
      match _look : atEnd after with
      | (true, looked) => { longer with source := looked }
      | (false, looked) => readWhile joins { longer with source := looked }
    else { r with source := back after 1 }
termination_by remaining r.source
decreasing_by
  have hread := remaining_lt r.source b (by rw [_read])
  have hlook := remaining_atEnd after
  rw [_read] at hread
  rw [_look] at hlook
  exact Nat.lt_of_le_of_lt hlook hread

/-- Reads up to the next byte that is no separator. Separators join the open word if blanks are
kept. -/
def readBlanks (r : Reading σ) : Reading σ :=
  match _read : next? r.source with
  | (none, after) => { r with source := after }
  | (some b, after) =>
    if Text.isSpace (Char.ofUInt8 b) then
      readBlanks (if r.spacing.keeps then push { r with source := after } b
        else { r with source := after })
    else { r with source := back after 1 }
termination_by remaining r.source
decreasing_by
  have hread := remaining_lt r.source b (by rw [_read])
  rw [_read] at hread
  split
  · exact hread
  · exact hread

/-! ## The words -/

/-- Reads the name that the byte `b`, which was read last, starts. -/
def readName (b : UInt8) (r : Reading σ) : Reading σ :=
  close (readWhile joinsName (push r b)) .unresolved

/-- Reads the number that the byte `b`, which was read last, starts or follows the sign of. -/
def readNumber (b : UInt8) (r : Reading σ) : Reading σ :=
  let opened := if r.last? = some '-' then r else close r .unresolved
  let read := readWhile joinsNumber (push opened b)
  close read (if Literal.isNumber read.text then .number else .badNumber)

/-- Looks at the byte after the delimiter `c`, which is the open word, to close it. -/
def closeDelimiter (c : Char) (r : Reading σ) : Reading σ :=
  match next? r.source with
  | (none, after) => { r with source := after }
  | (some b, after) =>
    let next := Char.ofUInt8 b
    if pairs.contains (c, next) then close (push { r with source := after } b) .operator
    else
      let returned := { r with source := back after 1 }
      if c == '-' && Text.isNumberStart next then returned
      else close returned (delimiterKind c next)

/-- Reads the delimiter `b`, which was read last. -/
def readDelimiter (b : UInt8) (r : Reading σ) : Reading σ :=
  closeDelimiter (Char.ofUInt8 b) (push (close r .unresolved) b)

/-- Reads the separators that the byte `b`, which was read last, starts. -/
def readSpaces (b : UInt8) (r : Reading σ) : Reading σ :=
  let opened := close r .unresolved
  if r.spacing.keeps then close (readBlanks (push opened b)) .spaces else readBlanks opened

/-- What becomes of the byte read last. -/
def readWord (b : UInt8) (r : Reading σ) : Reading σ :=
  let c := Char.ofUInt8 b
  if Text.isNameStart c then readName b r
  else if Text.isNumberStart c then readNumber b r
  else if Text.isDelimiter c then readDelimiter b r
  else if Text.isSpace c then readSpaces b r
  else push r b

/-! ## The scan -/

theorem remaining_readWhile_le (joins : Option Char → Char → Bool) (r : Reading σ) :
    remaining (readWhile joins r).source ≤ remaining r.source := by
  have hnext : ∀ {s looked after : σ} {ended : Bool} {b? : Option UInt8},
      next? s = (b?, after) → atEnd after = (ended, looked) → remaining looked ≤ remaining s := by
    intro s looked after ended b? hread hlook
    have hle := remaining_atEnd after
    have hnext := remaining_next s
    rw [hlook] at hle
    rw [hread] at hnext
    exact Nat.le_trans hle hnext
  fun_induction readWhile joins r with
  | case1 r after hread =>
    have hle := remaining_next r.source
    rwa [hread] at hle
  | case2 r b after hread _ _ looked hlook => exact hnext hread hlook
  | case3 r b after hread _ _ looked hlook ih => exact Nat.le_trans ih (hnext hread hlook)
  | case4 r b after hread _ =>
    have hback := remaining_back r.source b (by rw [hread])
    rwa [hread] at hback

theorem remaining_readBlanks_le (r : Reading σ) :
    remaining (readBlanks r).source ≤ remaining r.source := by
  fun_induction readBlanks r with
  | case1 r after hread =>
    have hle := remaining_next r.source
    rwa [hread] at hle
  | case2 r b after hread _ ih =>
    have hlt := remaining_lt r.source b (by rw [hread])
    rw [hread] at hlt
    refine Nat.le_trans ih (Nat.le_of_lt ?_)
    split
    · exact hlt
    · exact hlt
  | case3 r b after hread _ =>
    have hback := remaining_back r.source b (by rw [hread])
    rwa [hread] at hback

theorem remaining_closeDelimiter_le (c : Char) (r : Reading σ) :
    remaining (closeDelimiter c r).source ≤ remaining r.source := by
  have hnext := remaining_next r.source
  have hback := remaining_back r.source
  unfold closeDelimiter
  dsimp only
  split
  · next after hread => rwa [hread] at hnext
  · next b after hread =>
    rw [hread] at hnext hback
    split
    · exact hnext
    split
    · exact hback b rfl
    · exact hback b rfl

theorem remaining_readWord_le (b : UInt8) (r : Reading σ) :
    remaining (readWord b r).source ≤ remaining r.source := by
  unfold readWord
  dsimp only
  split
  · exact remaining_readWhile_le joinsName (push r b)
  split
  · unfold readNumber
    dsimp only
    split
    · exact remaining_readWhile_le joinsNumber (push r b)
    · exact remaining_readWhile_le joinsNumber (push (close r .unresolved) b)
  split
  · exact remaining_closeDelimiter_le (Char.ofUInt8 b) (push (close r .unresolved) b)
  split
  · unfold readSpaces
    dsimp only
    split
    · exact remaining_readBlanks_le (push (close r .unresolved) b)
    · exact remaining_readBlanks_le (close r .unresolved)
  · exact Nat.le_refl _

/-- The scan for lexemes from the present position on. -/
def scanWords (r : Reading σ) : Reading σ :=
  match _look : atEnd r.source with
  | (true, looked) => close { r with source := looked } .unresolved
  | (false, looked) =>
    match _read : next? looked with
    | (none, after) => close { r with source := after } .unresolved
    | (some b, after) => scanWords (readWord b { r with source := after })
termination_by remaining r.source
decreasing_by
  have hread := remaining_lt looked b (by rw [_read])
  have hlook := remaining_atEnd r.source
  have hword := remaining_readWord_le b { r with source := after }
  rw [_read] at hread
  rw [_look] at hlook
  exact Nat.lt_of_le_of_lt hword (Nat.lt_of_lt_of_le hread hlook)

end LayoutLex.Scan.Reading
