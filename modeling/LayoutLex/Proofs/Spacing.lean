import LayoutLex.Proofs.Lexemes
import LayoutLex.Proofs.Lexing

/-!
# Dropping blanks does not move the cuts

A source lexed with its blanks dropped has the tokens of the same source lexed with its blanks
kept, each without the blanks at its ends, and without those that are blank throughout. Blanks are
dropped twice, from a segment before its lexemes are taken and from each lexeme, so the lexemes
compared are those of two different texts.

* A blank in front of a text is a lexeme of its own or joins the first one
  (`lexemes_cons_blank`).
* A blank after a text is a lexeme of its own or joins the last one
  (`extents_place_lexemes_append_blank`). The last lexeme may change its kind, so here only the
  extents of tokens agree.

Results:
* `place_drop`: dropping blanks from placed pieces is trimming the tokens.
* `extents_place_lexemes_trim`: the lexemes of a trimmed text are those of the text.
* `tokenize_drop_eq`: the extents of a source without blanks are its trimmed extents with blanks.
-/

namespace LayoutLex

open Text Scan

/-- What a token covers of a source. -/
structure Extent where
  text : String
  span : Span
  deriving DecidableEq, Repr

/-- The extent of a token. -/
def Token.extent (t : Token) : Extent :=
  ⟨t.text, t.span⟩

/-- The blanks at the start of a text. -/
def Text.leading (cs : List Char) : List Char :=
  cs.takeWhile isBlank

/-- The blanks at the end of a text. -/
def Text.trailing (cs : List Char) : List Char :=
  (cs.reverse.takeWhile isBlank).reverse

/-- The extent without the blanks at its ends, if anything is left. -/
def Extent.trimmed? (e : Extent) : Option Extent :=
  let cs := e.text.toList
  if trim cs = [] then none
  else
    some ⟨String.ofList (trim cs),
      ⟨{ e.span.start with offset := e.span.start.offset + byteLength (leading cs) },
        { e.span.stop with offset := e.span.stop.offset - byteLength (trailing cs) }⟩⟩

/-! ## Trimming -/

namespace Text

theorem trimStart_cons {c : Char} (h : isBlank c = true) (cs : List Char) :
    trimStart (c :: cs) = trimStart cs :=
  List.dropWhile_cons_of_pos h

theorem trim_cons {c : Char} (h : isBlank c = true) (cs : List Char) :
    trim (c :: cs) = trim cs := by
  rw [trim, trimStart_cons h, trim]

theorem trimEnd_append {c : Char} (h : isBlank c = true) (cs : List Char) :
    trimEnd (cs ++ [c]) = trimEnd cs := by
  rw [trimEnd, List.reverse_append, List.reverse_singleton, List.singleton_append,
    List.dropWhile_cons_of_pos h, trimEnd]

theorem trim_append {c : Char} (h : isBlank c = true) (cs : List Char) :
    trim (cs ++ [c]) = trim cs := by
  unfold trim
  cases hstart : trimStart cs with
  | nil =>
    rw [trimStart, dropWhile_append_of_eq_nil hstart, List.dropWhile_cons_of_pos h]
    rfl
  | cons d ds =>
    have hne : cs.dropWhile isBlank ≠ [] := by
      rw [← trimStart, hstart]
      exact List.cons_ne_nil d ds
    rw [trimStart, dropWhile_append_of_ne_nil hne, ← trimStart, hstart, trimEnd_append h]

/-- A character in front stays unless it is a blank and nothing else is left. -/
theorem trimEnd_cons (c : Char) (cs : List Char) :
    trimEnd (c :: cs) = if isBlank c = true ∧ trimEnd cs = [] then [] else c :: trimEnd cs := by
  unfold trimEnd
  rw [List.reverse_cons, List.dropWhile_append]
  generalize cs.reverse.dropWhile isBlank = kept
  cases kept with
  | nil => cases hc : isBlank c <;> simp [hc]
  | cons d kept => simp

theorem trimEnd_append_of_not_isBlank {run : List Char} (h : ∀ c ∈ run, isBlank c = false)
    (rest : List Char) : trimEnd (run ++ rest) = run ++ trimEnd rest := by
  induction run with
  | nil => rfl
  | cons c run ih =>
    have hc := h c List.mem_cons_self
    rw [List.cons_append, trimEnd_cons, if_neg (by simp [hc]),
      ih fun d hd => h d (List.mem_cons_of_mem c hd), List.cons_append]

/-- Only the text that goes on to the end loses blanks, unless it is blank throughout. -/
theorem trimEnd_append_of_trimEnd_ne_nil {b : List Char} (h : trimEnd b ≠ [])
    (a : List Char) : trimEnd (a ++ b) = a ++ trimEnd b := by
  have hne : b.reverse.dropWhile isBlank ≠ [] := by
    intro hnil
    apply h
    rw [trimEnd, hnil]
    rfl
  rw [trimEnd, List.reverse_append, dropWhile_append_of_ne_nil hne, List.reverse_append,
    List.reverse_reverse]
  rfl

/-- A character that is no blank is kept with all that stands between it and the outer blanks. -/
theorem trim_append_cons {front back : List Char} {c : Char} (hc : isBlank c = false) :
    trim (front ++ c :: back) = trimStart front ++ c :: trimEnd back := by
  have hend : trimEnd (c :: back) = c :: trimEnd back := by
    rw [trimEnd_cons, if_neg (by simp [hc])]
  have hne : trimEnd (c :: back) ≠ [] := by
    rw [hend]
    exact List.cons_ne_nil c _
  rw [trim, trimStart, dropWhile_append_of_stops_right (stops_cons.mpr hc), ← trimStart,
    trimEnd_append_of_trimEnd_ne_nil hne, hend]

theorem trimEnd_of_not_isBlank {cs : List Char} (h : ∀ c ∈ cs, isBlank c = false) :
    trimEnd cs = cs := by
  have hend := trimEnd_append_of_not_isBlank h []
  rw [List.append_nil] at hend
  exact hend.trans (List.append_nil cs)

theorem trim_of_not_isBlank {cs : List Char} (h : ∀ c ∈ cs, isBlank c = false) : trim cs = cs := by
  have hstart : trimStart cs = cs :=
    dropWhile_of_stops fun c hc => h c (List.mem_of_mem_head? hc)
  rw [trim, hstart, trimEnd_of_not_isBlank h]

theorem stops_trimEnd {p : Char → Bool} {cs : List Char} (h : Stops p cs) :
    Stops p (trimEnd cs) := by
  cases cs with
  | nil => exact h
  | cons c cs =>
    rw [trimEnd_cons]
    split
    · exact stops_nil
    · exact stops_cons.mpr (stops_cons.mp h)

theorem isBlank_of_trim_eq_nil {cs : List Char} (h : trim cs = []) :
    ∀ c ∈ cs, isBlank c = true := by
  intro c hc
  have hsplit := takeWhile_append_trimStart cs
  have htrailing := trimEnd_append_takeWhile (trimStart cs)
  rw [← trim, h, List.nil_append] at htrailing
  rw [← hsplit, ← htrailing] at hc
  rcases List.mem_append.mp hc with hc | hc
  · exact mem_takeWhile hc
  · exact mem_takeWhile (List.mem_reverse.mp hc)

/-- Unless a text is blank throughout, it is its leading blanks, its trimmed text and its trailing
blanks. -/
theorem leading_append_trim_append_trailing {cs : List Char} (h : trim cs ≠ []) :
    leading cs ++ trim cs ++ trailing cs = cs := by
  have hsplit : leading cs ++ trimStart cs = cs := takeWhile_append_trimStart cs
  have hne : (trimStart cs).reverse.dropWhile isBlank ≠ [] := by
    intro hnil
    apply h
    rw [trim, trimEnd, hnil]
    rfl
  have hreverse : cs.reverse = (trimStart cs).reverse ++ (leading cs).reverse := by
    rw [← List.reverse_append, hsplit]
  have htrailing : trailing cs = ((trimStart cs).reverse.takeWhile isBlank).reverse := by
    rw [trailing, hreverse, takeWhile_append_of_ne_nil hne]
  rw [htrailing, List.append_assoc, trim, trimEnd_append_takeWhile, hsplit]

end Text

/-! ## Dropping blanks is trimming tokens -/

variable {file : String} {start : Nat}

theorem extent_token?_drop (piece : Piece) :
    ((piece.token? .drop file start).map Token.extent) =
      ((piece.token? .keep file start).map Token.extent).bind Extent.trimmed? := by
  unfold Piece.token? Spacing.cut
  by_cases hempty : piece.text = []
  · simp [hempty, trim_nil]
  by_cases htrim : trim piece.text = []
  · simp [hempty, htrim, Extent.trimmed?, Token.extent]
  · have hlength := congrArg byteLength (leading_append_trim_append_trailing htrim)
    rw [byteLength_append, byteLength_append] at hlength
    have hstop : start + byteLength (leading piece.text) + byteLength (trim piece.text) =
        start + byteLength piece.text - byteLength (trailing piece.text) := by omega
    simp [hempty, htrim, Extent.trimmed?, Token.extent, ← hstop, leading]

/-- **Dropping the blanks of placed pieces is trimming the extents of the tokens.** -/
theorem place_drop (file : String) (start : Nat) (pieces : List Piece) :
    (place .drop file start pieces).map Token.extent =
      ((place .keep file start pieces).map Token.extent).filterMap Extent.trimmed? := by
  induction pieces generalizing start with
  | nil => rfl
  | cons piece pieces ih =>
    have htoList : ∀ e? : Option Extent,
        (e?.bind Extent.trimmed?).toList = e?.toList.filterMap Extent.trimmed? := by
      intro e?
      cases e? with
      | none => rfl
      | some e => cases htrimmed : e.trimmed? <;> simp [htrimmed]
    rw [place_cons, place_cons, List.map_append, List.map_append, List.filterMap_append, ih,
      ← Option.toList_map, ← Option.toList_map, extent_token?_drop, htoList]

theorem token?_blank {c : Char} (h : isBlank c = true) (kind : TokenKind) :
    (⟨kind, [c]⟩ : Piece).token? .drop file start = none := by
  have htrim : trim [c] = [] := by rw [trim_cons h, trim_nil]
  simp [Piece.token?, Spacing.cut, htrim]

/-- A text without blanks has none to lose. -/
theorem Scan.Spacing.cut_of_not_isBlank {text : List Char} (h : ∀ c ∈ text, isBlank c = false)
    (spacing : Spacing) : spacing.cut text = (0, text) := by
  cases spacing with
  | keep => rfl
  | drop =>
    have hfront : text.takeWhile isBlank = [] :=
      takeWhile_of_stops fun c hc => h c (List.mem_of_mem_head? hc)
    rw [Spacing.cut, trim_of_not_isBlank h, hfront, byteLength_nil]

/-- A piece that has no blanks to lose is a token over all of it. -/
theorem token?_of_cut {spacing : Spacing} {text : List Char} (hne : text ≠ [])
    (hcut : spacing.cut text = (0, text)) (kind : TokenKind) :
    (⟨kind, text⟩ : Piece).token? spacing file start =
      some ⟨kind, String.ofList text, ⟨start, file⟩, ⟨start + byteLength text, file⟩⟩ := by
  simp [Piece.token?, hcut, hne]

theorem place_of_cut {spacing : Spacing} {text : List Char} (hne : text ≠ [])
    (hcut : spacing.cut text = (0, text)) (kind : TokenKind) :
    place spacing file start [⟨kind, text⟩] =
      [⟨kind, String.ofList text, ⟨start, file⟩, ⟨start + byteLength text, file⟩⟩] := by
  rw [place_cons, token?_of_cut hne hcut]
  rfl

/-- A piece without blanks is the same token in either spacing. -/
theorem token?_of_not_isBlank {piece : Piece} (h : ∀ c ∈ piece.text, isBlank c = false) :
    piece.token? .drop file start = piece.token? .keep file start := by
  rw [Piece.token?, Piece.token?, Spacing.cut_of_not_isBlank h, Spacing.cut_of_not_isBlank h]

theorem kind_of_token? {spacing : Spacing} {piece : Piece} {t : Token}
    (h : piece.token? spacing file start = some t) : t.kind = piece.kind := by
  unfold Piece.token? at h
  split at h
  split at h
  · cases h
  · cases h
    rfl

/-- Tokens have the same extents if the pieces have the same texts. -/
theorem extents_place_congr {ps qs : List Piece} (h : ps.map (·.text) = qs.map (·.text))
    (spacing : Spacing) (file : String) (start : Nat) :
    (place spacing file start ps).map Token.extent =
      (place spacing file start qs).map Token.extent := by
  induction ps generalizing qs start with
  | nil =>
    rw [List.map_nil, eq_comm, List.map_eq_nil_iff] at h
    rw [h]
  | cons p ps ih =>
    cases qs with
    | nil => cases h
    | cons q qs =>
      have htext : p.text = q.text := (List.cons.inj h).1
      have hrest : ps.map (·.text) = qs.map (·.text) := (List.cons.inj h).2
      have hpiece : (p.token? spacing file start).map Token.extent =
          (q.token? spacing file start).map Token.extent := by
        unfold Piece.token?
        rw [htext]
        split
        split <;> rfl
      rw [place_cons, place_cons, List.map_append, List.map_append, ← Option.toList_map,
        ← Option.toList_map, hpiece, htext, ih hrest]

/-! ## Blanks in front of a text -/

/-- A blank in front of a piece moves the piece. -/
theorem token?_cons_blank {c : Char} (h : isBlank c = true) (kind : TokenKind) (cs : List Char) :
    (⟨kind, c :: cs⟩ : Piece).token? .drop file start =
      (⟨kind, cs⟩ : Piece).token? .drop file (start + c.utf8Size) := by
  simp [Piece.token?, Spacing.cut, List.takeWhile_cons_of_pos h, trim_cons h, Nat.add_assoc]

/-- **A blank in front of a text is a lexeme of its own or joins the first one.** -/
theorem lexemes_cons_blank {c : Char} (h : isBlank c = true) (cs : List Char) :
    (∃ kind, lexemes (c :: cs) = ⟨kind, [c]⟩ :: lexemes cs) ∨
      ∃ p ps, lexemes cs = p :: ps ∧ lexemes (c :: cs) = ⟨p.kind, c :: p.text⟩ :: ps := by
  rw [lexemes_cons]
  cases cs with
  | nil =>
    have hrest : (lexeme c []).2 = [] := List.eq_nil_of_suffix_nil (suffix_lexeme c [])
    have htext := lexeme_append c []
    rw [hrest, List.append_nil] at htext
    exact Or.inl ⟨(lexeme c []).1.kind, by rw [hrest, ← htext]⟩
  | cons d ds =>
    rcases isSpace_or_isOther_of_isBlank h with hc | hc
    · rw [lexeme_of_space hc]
      by_cases hd : isSpace d = true
      · refine Or.inr ⟨_, _, lexemes_cons d ds, ?_⟩
        rw [lexeme_of_space hd, List.takeWhile_cons_of_pos hd, List.dropWhile_cons_of_pos hd]
      · refine Or.inl ⟨.spaces, ?_⟩
        rw [List.takeWhile_cons_of_neg hd, List.dropWhile_cons_of_neg hd]
    · rw [lexeme_of_other hc]
      by_cases hd : isOther d = true
      · refine Or.inr ⟨_, _, lexemes_cons d ds, ?_⟩
        rw [lexeme_of_other hd]
        simp only [other, List.takeWhile_cons_of_pos hd, List.dropWhile_cons_of_pos hd]
        split
        · rfl
        · split <;> rfl
      · simp only [other, List.takeWhile_cons_of_neg hd, List.dropWhile_cons_of_neg hd]
        by_cases hname : isNameStart d = true
        · refine Or.inr ⟨_, _, lexemes_cons d ds, ?_⟩
          rw [if_pos hname, lexeme_of_nameStart hname]
          rfl
        · refine Or.inl ⟨.unresolved, ?_⟩
          rw [if_neg hname]

theorem place_lexemes_cons_blank {c : Char} (h : isBlank c = true) (cs : List Char) :
    place .drop file start (lexemes (c :: cs)) =
      place .drop file (start + c.utf8Size) (lexemes cs) := by
  rcases lexemes_cons_blank h cs with ⟨kind, heq⟩ | ⟨p, ps, hcs, heq⟩
  · rw [heq, place_cons, token?_blank h, byteLength_cons, byteLength_nil, Nat.add_zero]
    rfl
  · rw [heq, hcs, place_cons, place_cons, token?_cons_blank h, byteLength_cons, Nat.add_assoc]

/-- Blanks in front of a text move its lexemes. -/
theorem place_lexemes_leading {blanks : List Char} (h : ∀ c ∈ blanks, isBlank c = true)
    (cs : List Char) :
    place .drop file start (lexemes (blanks ++ cs)) =
      place .drop file (start + byteLength blanks) (lexemes cs) := by
  induction blanks generalizing start with
  | nil => rfl
  | cons c blanks ih =>
    rw [List.cons_append, place_lexemes_cons_blank (h c List.mem_cons_self),
      ih fun d hd => h d (List.mem_cons_of_mem c hd), byteLength_cons, Nat.add_assoc]

/-! ## Blanks after a text -/

/-- A blank after a piece does not change its extent. -/
theorem extent_token?_append_blank (file : String) (start : Nat) {c : Char} (h : isBlank c = true)
    (kind kind' : TokenKind) (cs : List Char) :
    ((⟨kind, cs ++ [c]⟩ : Piece).token? .drop file start).map Token.extent =
      ((⟨kind', cs⟩ : Piece).token? .drop file start).map Token.extent := by
  unfold Piece.token? Spacing.cut
  by_cases htrim : trim cs = []
  · simp [trim_append h, htrim]
  · have hne : cs.dropWhile isBlank ≠ [] := by
      intro hnil
      apply htrim
      rw [trim, trimStart, hnil]
      rfl
    simp [trim_append h, htrim, takeWhile_append_of_ne_nil hne, Token.extent]

/-- **A blank after a text is a lexeme of its own or joins the last one**, whose kind it may
change. -/
theorem extents_place_lexemes_append_blank {c : Char} (h : isBlank c = true) (cs : List Char) :
    (place .drop file start (lexemes (cs ++ [c]))).map Token.extent =
      (place .drop file start (lexemes cs)).map Token.extent := by
  fun_induction lexemes cs generalizing start with
  | case1 => rw [List.nil_append, place_lexemes_cons_blank h, lexemes]; rfl
  | case2 d ds ih =>
    rw [List.cons_append, lexemes_cons]
    by_cases hlast : (lexeme d ds).2 = []
    · have hall : (lexeme d ds).1.text = d :: ds := by
        have htext := lexeme_append d ds
        rwa [hlast, List.append_nil] at htext
      have htext := lexeme_append d (ds ++ [c])
      rw [hlast, lexemes]
      rcases List.suffix_cons_iff.mp (suffix_lexeme_append hlast [c]) with hrest | hrest
      · -- The blank is a lexeme of its own.
        rw [hrest, ← List.cons_append] at htext
        have hsame : [(lexeme d (ds ++ [c])).1].map (·.text) = [(lexeme d ds).1].map (·.text) := by
          rw [List.map_singleton, List.map_singleton, hall, List.append_cancel_right htext]
        have hextents := extents_place_congr hsame .drop file start
        rw [hrest, place_cons, place_lexemes_cons_blank h, lexemes]
        exact hextents
      · -- The blank joins the last lexeme.
        rw [List.eq_nil_of_suffix_nil hrest, List.append_nil] at htext
        have hextent := extent_token?_append_blank file start h (lexeme d (ds ++ [c])).1.kind
          (lexeme d ds).1.kind (d :: ds)
        rw [List.cons_append, ← htext, ← hall] at hextent
        rw [List.eq_nil_of_suffix_nil hrest, lexemes, place_cons, place_cons, List.map_append,
          List.map_append, ← Option.toList_map, ← Option.toList_map, hextent]
        rfl
    · rw [lexeme_append_of_ne_nil hlast, place_cons, place_cons, List.map_append, List.map_append,
        ih]

/-- Blanks after a text leave the extents of its lexemes as they are. -/
theorem extents_place_lexemes_trailing {blanks : List Char} (h : ∀ c ∈ blanks, isBlank c = true)
    (cs : List Char) :
    (place .drop file start (lexemes (cs ++ blanks))).map Token.extent =
      (place .drop file start (lexemes cs)).map Token.extent := by
  induction blanks generalizing cs with
  | nil => rw [List.append_nil]
  | cons c blanks ih =>
    rw [← List.singleton_append, ← List.append_assoc,
      ih (fun d hd => h d (List.mem_cons_of_mem c hd)),
      extents_place_lexemes_append_blank (h c List.mem_cons_self)]

/-- **The lexemes of a trimmed text are those of the text.** -/
theorem extents_place_lexemes_trim {cs : List Char} (h : trim cs ≠ []) :
    (place .drop file (start + byteLength (leading cs)) (lexemes (trim cs))).map Token.extent =
      (place .drop file start (lexemes cs)).map Token.extent := by
  have hleading : ∀ c ∈ leading cs, isBlank c = true := fun _ hc => mem_takeWhile hc
  have htrailing : ∀ c ∈ trailing cs, isBlank c = true :=
    fun _ hc => mem_takeWhile (List.mem_reverse.mp hc)
  calc (place .drop file (start + byteLength (leading cs)) (lexemes (trim cs))).map Token.extent
      = (place .drop file start (lexemes (leading cs ++ trim cs))).map Token.extent := by
        rw [place_lexemes_leading hleading]
    _ = (place .drop file start
          (lexemes (leading cs ++ trim cs ++ trailing cs))).map Token.extent := by
        rw [extents_place_lexemes_trailing htrailing]
    _ = (place .drop file start (lexemes cs)).map Token.extent := by
        rw [leading_append_trim_append_trailing h]

/-- A text that is blank throughout has no lexemes once blanks are dropped. -/
theorem place_lexemes_of_trim_eq_nil {cs : List Char} (h : trim cs = []) :
    place .drop file start (lexemes cs) = [] := by
  have hplace : place .drop file start (lexemes (cs ++ [])) =
      place .drop file (start + byteLength cs) (lexemes []) :=
    place_lexemes_leading (isBlank_of_trim_eq_nil h) []
  rw [List.append_nil, lexemes] at hplace
  exact hplace

/-! ## Segments and their lexemes -/

namespace Lexer

theorem extent_classified (c : Catalogue) (t : Token) : (t.classified c).extent = t.extent := by
  obtain ⟨htext, hspan⟩ := classified_text_span c t
  rw [Token.extent, Token.extent, htext, hspan]

/-- A segment that has its kind is the only part of itself. -/
theorem flatMap_parts_of_resolved {spacing : Spacing} {file : String} {start : Nat} {piece : Piece}
    (hkind : piece.kind ≠ .unresolved) :
    (piece.token? spacing file start).toList.flatMap (parts spacing) =
      (piece.token? spacing file start).toList := by
  cases htoken : piece.token? spacing file start with
  | none => rfl
  | some t => simp [parts, Token.isResolved, kind_of_token? htoken, hkind]

/-- The parts of a segment without blanks are its trimmed parts with blanks. -/
theorem extents_parts (file : String) (start : Nat) (segment : Piece) :
    ((segment.token? .drop file start).toList.flatMap (parts .drop)).map Token.extent =
      (((segment.token? .keep file start).toList.flatMap (parts .keep)).map
        Token.extent).filterMap Extent.trimmed? := by
  by_cases hempty : segment.text = []
  · simp [Piece.token?, Spacing.cut, hempty, trim_nil]
  by_cases hkind : segment.kind = .unresolved
  · have hkeep : (segment.token? .keep file start).toList.flatMap (parts .keep) =
        place .keep file start (lexemes segment.text) := by
      simp [Piece.token?, Spacing.cut, hempty, parts, Token.isResolved, hkind]
    rw [hkeep, ← place_drop]
    by_cases htrim : trim segment.text = []
    · rw [place_lexemes_of_trim_eq_nil htrim]
      simp [Piece.token?, Spacing.cut, htrim]
    · rw [← extents_place_lexemes_trim htrim]
      simp [Piece.token?, Spacing.cut, htrim, parts, Token.isResolved, hkind, leading]
  · have hplace := place_drop file start [segment]
    rw [place_cons, place_cons, place, place, List.append_nil, List.append_nil] at hplace
    rw [flatMap_parts_of_resolved hkind, flatMap_parts_of_resolved hkind, hplace]

theorem extents_flatMap_parts (file : String) (start : Nat) (segments : List Piece) :
    ((place .drop file start segments).flatMap (parts .drop)).map Token.extent =
      (((place .keep file start segments).flatMap (parts .keep)).map
        Token.extent).filterMap Extent.trimmed? := by
  induction segments generalizing start with
  | nil => rfl
  | cons segment segments ih =>
    rw [place_cons, place_cons, List.flatMap_append, List.flatMap_append, List.map_append,
      List.map_append, List.filterMap_append, extents_parts, ih]

/-- **Dropping blanks does not move the cuts.** Without blanks a source has the same fault as with
blanks, or the same tokens as far as their texts and spans go, once every token has lost the blanks
at its ends and those of which nothing is left are gone. -/
theorem tokenize_drop_eq (catalogue : Catalogue) (source : String) (file? : Option String) :
    ((⟨catalogue, .drop⟩ : Lexer).tokenize source file?).map (List.map Token.extent) =
      ((⟨catalogue, .keep⟩ : Lexer).tokenize source file?).map fun tokens =>
        (tokens.map Token.extent).filterMap Extent.trimmed? := by
  have hclassified : ∀ tokens : List Token,
      (tokens.map (Token.classified catalogue)).map Token.extent = tokens.map Token.extent := by
    intro tokens
    rw [List.map_map]
    exact List.map_congr_left fun t _ => extent_classified catalogue t
  rw [tokenize, tokenize, lex_eq, lex_eq]
  cases (segments source.toList).fault? (file?.getD defaultFile) 0 with
  | some fault => rfl
  | none =>
    simp only [Except.map, hclassified, segmentsOf, extents_flatMap_parts]

end Lexer

end LayoutLex
