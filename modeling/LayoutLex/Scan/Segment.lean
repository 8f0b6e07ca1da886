import LayoutLex.Scan.Piece

/-!
# Segments

The first scan of a source separates comments and strings from code.

* A bar starts a comment that runs to just before the next line break or to the end.
* A double quote starts a string and a backquote starts a comment; either runs up to and including
  the next character of the same kind. One that is never closed ends the scan.
* All text between is code, in runs as long as possible. Its pieces are not resolved yet.

The pieces are taken off the front of the text one at a time, so a delimiter inside a piece means
nothing, and the scan ends because the rest grows shorter.
-/

namespace LayoutLex.Scan

/-- Starts a comment that ends with its line. -/
def isBar (c : Char) : Bool :=
  c == '|'

/-- Starts a string. -/
def isStringQuote (c : Char) : Bool :=
  c == '\x22'

/-- Starts a comment that ends with the same character. -/
def isCommentQuote (c : Char) : Bool :=
  c == '\x60'

/-- Starts something that has to be closed. -/
def isQuote (c : Char) : Bool :=
  isStringQuote c || isCommentQuote c

/-- Ends a run of code. -/
def isOpener (c : Char) : Bool :=
  isBar c || isQuote c

/-- What a quote encloses. -/
def quotedKind (c : Char) : TokenKind :=
  if isStringQuote c then .string else .comment

/-- The text up to and including the first `d`, and the text after it. -/
def closing? (d : Char) : List Char → Option (List Char × List Char)
  | [] => none
  | c :: cs =>
    if c = d then some ([c], cs)
    else (closing? d cs).map fun (body, rest) => (c :: body, rest)

theorem closing?_append {d : Char} {cs body rest : List Char}
    (h : closing? d cs = some (body, rest)) : body ++ rest = cs := by
  induction cs generalizing body with
  | nil => cases h
  | cons c cs ih =>
    unfold closing? at h
    split at h
    · cases h; rfl
    · obtain ⟨⟨b, r⟩, hbr, heq⟩ := Option.map_eq_some_iff.mp h
      cases heq
      rw [List.cons_append, ih hbr]

theorem length_of_closing? {d : Char} {cs body rest : List Char}
    (h : closing? d cs = some (body, rest)) : rest.length ≤ cs.length := by
  rw [← closing?_append h, List.length_append]
  exact Nat.le_add_left _ _

/-- The segments of a source. -/
def segments : List Char → Split
  | [] => ⟨[], none⟩
  | c :: cs =>
    if isBar c then
      (segments (cs.dropWhile (!Text.isBreak ·))).cons
        ⟨.comment, c :: cs.takeWhile (!Text.isBreak ·)⟩
    else if isQuote c then
      match _closed : closing? c cs with
      | none => ⟨[], some ⟨c, cs⟩⟩
      | some (body, rest) => (segments rest).cons ⟨quotedKind c, c :: body⟩
    else
      (segments (cs.dropWhile (!isOpener ·))).cons ⟨.unresolved, c :: cs.takeWhile (!isOpener ·)⟩
termination_by cs => cs.length
decreasing_by
  · exact Nat.lt_succ_of_le (List.dropWhile_sublist _).length_le
  · exact Nat.lt_succ_of_le (length_of_closing? _closed)
  · exact Nat.lt_succ_of_le (List.dropWhile_sublist _).length_le

end LayoutLex.Scan
