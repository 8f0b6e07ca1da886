import LayoutLex.Scan.Segment
import LayoutLex.Source

/-!
# Scanning while reading

The first scan of a byte source, made byte by byte as the source gives them.

* Bytes gather in an open word; closing the word makes a token of it.
* A bar, a double quote or a backquote closes the open word and starts one of its own, which is
  read to its end before the scan goes on. A comment that ends with its line is over when the line
  break has been read, so the source is set back by that one byte.
* Two marks say that a comment or a string is being read. A byte that would start a comment inside a
  string, or anything quoted inside either, is left out.
* A delimiter that is never closed ends the scan with a fault. The source is set back to the byte
  after it, and the tokens before it stay. So do the mark and the open word: a scan has to be
  `reset` before it is made again.
-/

namespace LayoutLex.Scan

open ByteSource

/-- A scan under way. -/
structure Reading (σ : Type) where
  source : σ
  spacing : Spacing
  file : String
  /-- The offset of the first byte of the source. -/
  base : Nat
  /-- The bytes of the open word. -/
  word : Array UInt8
  /-- The number of bytes before the open word. -/
  wordStart : Nat
  /-- A comment is being read. -/
  inComment : Bool
  /-- A string is being read. -/
  inString : Bool
  /-- The tokens of the words closed so far. -/
  tokens : List Token

namespace Reading

/-- A scan before its first byte. -/
def start {σ : Type} (source : σ) (spacing : Spacing) (file : String) (base : Nat) : Reading σ :=
  ⟨source, spacing, file, base, #[], 0, false, false, []⟩

variable {σ : Type}

/-- The scan back before its first byte. Only the place of the last word stays, and the next word
has a place of its own. -/
def reset [ByteSource σ] (r : Reading σ) : Reading σ :=
  { r with
    source := rewind r.source
    word := #[]
    inComment := false
    inString := false
    tokens := [] }

/-! ## The marks -/

/-- Sets or clears the mark for what the byte `d` starts. -/
def mark (d : UInt8) (on : Bool) (r : Reading σ) : Reading σ :=
  { r with
    inComment := if isStringQuote (Char.ofUInt8 d) then r.inComment else on
    inString := if isStringQuote (Char.ofUInt8 d) then on else r.inString }

/-! ## The open word -/

/-- The text of the open word. -/
def text (r : Reading σ) : List Char :=
  Text.decodeLossy r.word.toList

/-- Closes the open word. It becomes a token, unless nothing of it is left. -/
def close (r : Reading σ) (kind : TokenKind) : Reading σ :=
  { r with
    word := #[]
    tokens := r.tokens ++
      ((⟨kind, r.text⟩ : Piece).token? r.spacing r.file (r.base + r.wordStart)).toList }

variable [ByteSource σ]

/-- The byte read last goes to the open word, or starts one. -/
def push (r : Reading σ) (b : UInt8) : Reading σ :=
  { r with
    word := r.word.push b
    wordStart := if r.word.isEmpty then position r.source - 1 else r.wordStart }

/-- The byte read last starts a word of its own, with the mark for it. -/
def enter (d : UInt8) (r : Reading σ) : Reading σ :=
  push (close (mark d true r) .unresolved) d

/-! ## Words read to their end -/

/-- Reads up to the next line break or the end. -/
def readLine (r : Reading σ) : Reading σ :=
  match _read : next? r.source with
  | (none, after) => { r with source := after }
  | (some b, after) =>
    if Text.isBreak (Char.ofUInt8 b) then { r with source := back after 1 }
    else readLine (push { r with source := after } b)
termination_by remaining r.source
decreasing_by simpa [_read, push] using remaining_lt r.source b (by rw [_read])

/-- Reads up to and including the next byte `d`; says whether there is one. -/
def readTo (d : UInt8) (r : Reading σ) : Bool × Reading σ :=
  match _look : atEnd r.source with
  | (true, looked) => (false, { r with source := looked })
  | (false, looked) =>
    match _read : next? looked with
    | (none, after) => (false, { r with source := after })
    | (some b, after) =>
      if b = d then (true, push { r with source := after } b)
      else readTo d (push { r with source := after } b)
termination_by remaining r.source
decreasing_by
  have hread := remaining_lt looked b (by rw [_read])
  have hlook := remaining_atEnd r.source
  rw [_read] at hread
  rw [_look] at hlook
  exact Nat.lt_of_lt_of_le hread hlook

/-- Reads the comment that the byte `b`, which was read last, starts; none starts in a string. -/
def readComment (b : UInt8) (r : Reading σ) : Reading σ :=
  if r.inString then r else mark b false (close (readLine (enter b r)) .comment)

/-- Reads what the delimiter `d`, which was read last, encloses, unless something is being read. -/
def readQuoted (d : UInt8) (r : Reading σ) : Option Fault × Reading σ :=
  if r.inComment || r.inString then (none, r)
  else
    match readTo d (enter d r) with
    | (true, r) => (none, mark d false (close r (quotedKind (Char.ofUInt8 d))))
    | (false, r) =>
      let r := { r with source := back r.source (r.word.size - 1) }
      (some ⟨.unclosed (Char.ofUInt8 d) (String.ofList r.text),
        ⟨r.base + position r.source, r.file⟩⟩, r)

/-- What becomes of the byte read last. -/
def step (b : UInt8) (r : Reading σ) : Option Fault × Reading σ :=
  if isBar (Char.ofUInt8 b) then (none, readComment b r)
  else if isQuote (Char.ofUInt8 b) then readQuoted b r
  else (none, push r b)

/-! ## The scan -/

theorem remaining_readLine_le (r : Reading σ) :
    remaining (readLine r).source ≤ remaining r.source := by
  fun_induction readLine r with
  | case1 r after hread =>
    have hnext := remaining_next r.source
    rwa [hread] at hnext
  | case2 r b after hread _ =>
    have hback := remaining_back r.source b (by rw [hread])
    rwa [hread] at hback
  | case3 r b after hread _ ih =>
    have hlt := remaining_lt r.source b (by rw [hread])
    rw [hread] at hlt
    exact Nat.le_trans ih (Nat.le_of_lt hlt)

theorem remaining_readTo_le (d : UInt8) (r : Reading σ) :
    remaining (readTo d r).2.source ≤ remaining r.source := by
  have hnext : ∀ {s looked after : σ} {ended : Bool} {b? : Option UInt8},
      atEnd s = (ended, looked) → next? looked = (b?, after) → remaining after ≤ remaining s := by
    intro s looked after ended b? hlook hread
    have hle := remaining_atEnd s
    have hnext := remaining_next looked
    rw [hlook] at hle
    rw [hread] at hnext
    exact Nat.le_trans hnext hle
  fun_induction readTo d r with
  | case1 r looked hlook =>
    have hle := remaining_atEnd r.source
    rwa [hlook] at hle
  | case2 r looked hlook after hread => exact hnext hlook hread
  | case3 r looked hlook after hread => exact hnext hlook hread
  | case4 r looked hlook b after hread _ ih => exact Nat.le_trans ih (hnext hlook hread)

theorem remaining_readComment_le (b : UInt8) (r : Reading σ) :
    remaining (readComment b r).source ≤ remaining r.source := by
  unfold readComment
  split
  · exact Nat.le_refl _
  · exact remaining_readLine_le (enter b r)

theorem remaining_readQuoted_le {d : UInt8} {r after : Reading σ}
    (h : readQuoted d r = (none, after)) : remaining after.source ≤ remaining r.source := by
  unfold readQuoted at h
  split at h
  · cases h
    exact Nat.le_refl _
  · have hle := remaining_readTo_le d (enter d r)
    split at h
    · next heq =>
      cases h
      rwa [heq] at hle
    · cases h

theorem remaining_step_le {b : UInt8} {r after : Reading σ} (h : step b r = (none, after)) :
    remaining after.source ≤ remaining r.source := by
  unfold step at h
  split at h
  · cases h
    exact remaining_readComment_le b r
  split at h
  · exact remaining_readQuoted_le h
  · cases h
    exact Nat.le_refl _

/-- The scan from the present position on. -/
def scan (r : Reading σ) : Option Fault × Reading σ :=
  match _look : atEnd r.source with
  | (true, looked) => (none, close { r with source := looked } .unresolved)
  | (false, looked) =>
    match _read : next? looked with
    | (none, after) => (none, close { r with source := after } .unresolved)
    | (some b, after) =>
      match _step : step b { r with source := after } with
      | (some fault, stopped) => (some fault, stopped)
      | (none, stepped) => scan stepped
termination_by remaining r.source
decreasing_by
  have hread := remaining_lt looked b (by rw [_read])
  have hlook := remaining_atEnd r.source
  have hstep := remaining_step_le _step
  rw [_read] at hread
  rw [_look] at hlook
  exact Nat.lt_of_le_of_lt hstep (Nat.lt_of_lt_of_le hread hlook)

end Reading

end LayoutLex.Scan
