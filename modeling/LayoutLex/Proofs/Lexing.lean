import LayoutLex.Lexer
import LayoutLex.Proofs.Coverage

/-!
# Lexing without misfits

Both scans account for every character, so the lexemes of a segment always fit into it and the
check of the lexer never fails. Nor is a segment ever without lexemes, since something is left of it
when its blanks are dropped. What is left of lexing is a function of the segments.

* `Split.text` is the whole text of a split: its pieces and what an open delimiter leaves over.
* `Lexer.parts` are the tokens that take the place of a segment.

Results:
* `text_segments`, `textOf_lexemes`: the scans lose no text.
* `refine_eq_parts`: a segment that spans its own text is refined without a fault.
* `lex_eq`: lexing fails with the fault of the first scan and with no other; otherwise it gives the
  parts of the segments, classified.
-/

namespace LayoutLex

open Text Scan

/-! ## The scans lose no text -/

namespace Scan

/-- The text of the pieces and of what is left over. -/
def Split.text (split : Split) : List Char :=
  textOf split.pieces ++
    (split.unclosed?.elim [] fun unclosed => unclosed.delimiter :: unclosed.rest)

theorem textOf_cons (piece : Piece) (pieces : List Piece) :
    textOf (piece :: pieces) = piece.text ++ textOf pieces :=
  List.flatMap_cons

@[simp]
theorem Split.pieces_cons (piece : Piece) (split : Split) :
    (split.cons piece).pieces = piece :: split.pieces := rfl

theorem Split.fault?_cons (piece : Piece) (split : Split) (file : String) (start : Nat) :
    (split.cons piece).fault? file start = split.fault? file (start + byteLength piece.text) := by
  simp [Split.fault?, Split.cons, textOf_cons, Nat.add_assoc]

theorem Split.text_cons (piece : Piece) (split : Split) :
    (split.cons piece).text = piece.text ++ split.text := by
  simp only [Split.text, Split.cons, textOf_cons, List.append_assoc]

/-- The segments and what is left over are the source. -/
theorem text_segments (cs : List Char) : (segments cs).text = cs := by
  fun_induction segments cs with
  | case1 => rfl
  | case2 c cs _ ih =>
    rw [Split.text_cons, ih, List.cons_append, List.takeWhile_append_dropWhile]
  | case3 => rfl
  | case4 c cs _ _ body rest hclosing ih =>
    rw [Split.text_cons, ih, List.cons_append, closing?_append hclosing]
  | case5 c cs _ _ ih =>
    rw [Split.text_cons, ih, List.cons_append, List.takeWhile_append_dropWhile]

/-- The lexemes of a text are the text. -/
theorem textOf_lexemes (cs : List Char) : textOf (lexemes cs) = cs := by
  fun_induction lexemes cs with
  | case1 => rfl
  | case2 c cs ih => rw [textOf_cons, ih, lexeme_append]

end Scan

/-! ## Refining a segment -/

namespace Lexer

/-- The tokens that take the place of a segment. -/
def parts (spacing : Spacing) (segment : Token) : List Token :=
  if segment.isResolved then [segment]
  else
    place spacing segment.span.start.file segment.span.start.offset (lexemes segment.text.toList)

theorem mapM_eq_ok {α β ε : Type} {f : α → Except ε β} {g : α → β} {as : List α}
    (h : ∀ a ∈ as, f a = .ok (g a)) : as.mapM f = .ok (as.map g) := by
  induction as with
  | nil => rfl
  | cons a as ih =>
    rw [List.mapM_cons, h a List.mem_cons_self, ih fun b hb => h b (List.mem_cons_of_mem a hb)]
    rfl

theorem eq_ok_of_toOption_eq_some {ε α : Type} {e : Except ε α} {a : α}
    (h : e.toOption = some a) : e = .ok a := by
  cases e with
  | error fault => cases h
  | ok found => exact congrArg _ (Option.some.inj h)

/-- The parts of a segment lie over its text. -/
theorem covers_parts {spacing : Spacing} {segment : Token} (hne : segment.text.toList ≠ [])
    (hstop : segment.span.stop.offset =
      segment.span.start.offset + byteLength segment.text.toList) :
    Covers spacing.gap segment.span.start.offset segment.text.toList (parts spacing segment) := by
  unfold parts
  split
  · have h : Covers spacing.gap segment.span.start.offset (segment.text.toList ++ []) [segment] :=
      .token hne rfl hstop (.nil _)
    rwa [List.append_nil] at h
  · have h := covers_place spacing segment.span.start.file segment.span.start.offset
      (lexemes segment.text.toList)
    rwa [textOf_lexemes] at h

/-- A segment has parts if it has a character that may not be left out. -/
theorem parts_ne_nil {spacing : Spacing} {segment : Token}
    (hsolid : ∃ c ∈ segment.text.toList, spacing.gap c = false)
    (hstop : segment.span.stop.offset =
      segment.span.start.offset + byteLength segment.text.toList) :
    parts spacing segment ≠ [] := by
  obtain ⟨c, hc, hgap⟩ := hsolid
  intro hnil
  have hcover : Covers spacing.gap segment.span.start.offset segment.text.toList
      (parts spacing segment) := covers_parts (List.ne_nil_of_mem hc) hstop
  rw [hnil] at hcover
  rw [gap_of_covers_nil hcover c hc] at hgap
  cases hgap

/-- **No part of a segment is a misfit**, and no segment is without parts. -/
theorem refine_eq_parts (lexer : Lexer) {segment : Token}
    (hsolid : ∃ c ∈ segment.text.toList, lexer.spacing.gap c = false)
    (hstop : segment.span.stop.offset =
      segment.span.start.offset + byteLength segment.text.toList) :
    lexer.refine segment = .ok (parts lexer.spacing segment) := by
  have hparts : parts lexer.spacing segment ≠ [] := parts_ne_nil hsolid hstop
  obtain ⟨c, hc, -⟩ := hsolid
  have hcover : Covers lexer.spacing.gap segment.span.start.offset segment.text.toList
      (parts lexer.spacing segment) := covers_parts (List.ne_nil_of_mem hc) hstop
  unfold parts at hparts hcover ⊢
  unfold refine
  by_cases hres : segment.isResolved = true
  · rw [if_pos hres, if_pos hres]
  · rw [if_neg hres] at hparts hcover
    rw [if_neg hres, if_neg hres, if_neg (mt List.isEmpty_iff.mp hparts),
      mapM_eq_ok (g := id), List.map_id]
    intro part hpart
    obtain ⟨hlow, -, hhigh⟩ := bounds_of_covers hcover hpart
    have hfit : segment.span.contains part.span = true :=
      Span.contains_iff.mpr ⟨hlow, hstop ▸ hhigh⟩
    unfold checkFit
    rw [if_pos hfit]
    rfl

/-! ## Lexing a source -/

theorem classified_text_span (c : Catalogue) (t : Token) :
    (t.classified c).text = t.text ∧ (t.classified c).span = t.span := by
  unfold Token.classified
  split
  · exact ⟨rfl, rfl⟩
  · exact ⟨rfl, rfl⟩

/-- The placed segments of a source. -/
def segmentsOf (spacing : Spacing) (file : String) (text : List Char) : List Token :=
  place spacing file 0 (segments text).pieces

/-- **Lexing is the first scan, its fault if it has one, and the parts of its segments.** -/
theorem lex_eq (lexer : Lexer) (text : List Char) (file : String) :
    lexer.lex text file =
      match (segments text).fault? file 0 with
      | some fault => .error fault
      | none => .ok (((segmentsOf lexer.spacing file text).flatMap (parts lexer.spacing)).map
          (Token.classified lexer.catalogue)) := by
  have hcover := covers_place lexer.spacing file 0 (segments text).pieces
  have hrefined : (segmentsOf lexer.spacing file text).mapM lexer.refine =
      .ok ((segmentsOf lexer.spacing file text).map (parts lexer.spacing)) := by
    refine mapM_eq_ok fun segment hsegment => ?_
    obtain ⟨_, _, _, _, hstop⟩ := exists_split_of_covers hcover hsegment
    exact refine_eq_parts lexer (exists_not_gap_of_mem_place hsegment) hstop
  unfold segmentsOf at hrefined
  unfold lex segmentsOf
  split
  · next hfault => simp only [hfault]; rfl
  · next hfault =>
    simp only [hfault, hrefined]
    rw [List.flatMap_def]
    rfl

end Lexer

end LayoutLex
