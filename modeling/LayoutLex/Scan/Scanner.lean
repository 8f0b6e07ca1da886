import LayoutLex.Scan.Reading.Words

/-!
# Scanners

A scanner makes one scan of a byte source and remembers the tokens.

* The scan is made when tokens are first asked for. Once it has succeeded its tokens are given
  again without reading.
* Both scans go with the reading of the source. The scan for lexemes never fails.
* A scan that fails keeps the tokens before the delimiter that is never closed, and stays where it
  has come to. The next question for the tokens resets it and makes it again.
-/

namespace LayoutLex.Scan

/-- The two scans, in the order in which a source goes through them. -/
inductive Pass where
  | segments | lexemes
  deriving DecidableEq, Repr

namespace Pass

/-- The scan that comes first. -/
def first : Pass := segments

/-- The scan that comes after. -/
def next? : Pass → Option Pass
  | segments => some lexemes
  | lexemes => none

end Pass

/-- A scan of a source, made or to be made. -/
structure Scanner (σ : Type) where
  pass : Pass
  /-- How far the last scan has come. -/
  reading : Reading σ
  /-- The last scan has succeeded. -/
  finished : Bool

namespace Scanner

variable {σ : Type}

/-- A scan that is still to be made. Its offsets are counted from the base on. -/
def start (pass : Pass) (source : σ) (spacing : Spacing) (file : String) (base : Nat) :
    Scanner σ :=
  ⟨pass, .start source spacing file base, false⟩

/-- The tokens of the last scan. -/
def collected (s : Scanner σ) : List Token :=
  s.reading.tokens

/-- Makes the scan, from the start of the source. -/
def scan [ByteSource σ] (s : Scanner σ) : Option Fault × Scanner σ :=
  match s.pass with
  | .segments =>
    let (fault?, reading) := s.reading.reset.scan
    (fault?, { s with reading := reading })
  | .lexemes => (none, { s with reading := s.reading.reset.scanWords })

/-- The tokens of the scan, which is made now if it has not succeeded before. -/
def tokens [ByteSource σ] (s : Scanner σ) : Except Fault (List Token) × Scanner σ :=
  if s.finished then (.ok s.collected, s)
  else
    match s.scan with
    | (some fault, after) => (.error fault, after)
    | (none, after) => (.ok after.collected, { after with finished := true })

/-- The collected tokens whose kind is not final. -/
def unresolved (s : Scanner σ) : List Token :=
  s.collected.filter (!·.isResolved)

/-- Every collected token has its final kind. -/
def isResolved (s : Scanner σ) : Bool :=
  s.unresolved.isEmpty

end Scanner

end LayoutLex.Scan
