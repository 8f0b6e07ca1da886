import LayoutLex.Proofs.Bytes
import LayoutLex.Proofs.Runs
import LayoutLex.Scan.Piece

/-!
# Tokens over a text

`Covers gap start cs tokens`: the tokens lie over the text `cs`, whose first byte has the offset
`start`, one after the other, and leave out only characters of the class `gap`. It is built from
the left, one character left out or one token at a time, so it goes through concatenation
(`covers_append`) and through the refinement of single tokens (`covers_flatMap`).

Results:
* `covers_place`: placed pieces lie over the text that the pieces make up.
* `bounds_of_covers`, `pairwise_of_covers`, `exists_split_of_covers`: each token lies within the
  text, after the token before it, and over its own characters.
* `exists_token_of_covers`: a character that may not be left out lies under a token, and every
  placed token has such a character (`exists_not_gap_of_mem_place`).
* `tiles_of_covers`, `flatMap_text_of_covers`: if nothing may be left out, the tokens are the text.
-/

namespace LayoutLex

open Text Scan

/-- The characters that may be left out between tokens. -/
def Scan.Spacing.gap : Spacing → Char → Bool
  | .keep, _ => false
  | .drop, c => isBlank c

/-- The tokens lie over the text from the offset on and leave out only characters in `gap`. -/
inductive Covers (gap : Char → Bool) : Nat → List Char → List Token → Prop
  | nil (start : Nat) : Covers gap start [] []
  | skip {start : Nat} {c : Char} {cs : List Char} {tokens : List Token} (hgap : gap c = true)
      (hrest : Covers gap (start + c.utf8Size) cs tokens) : Covers gap start (c :: cs) tokens
  | token {start : Nat} {t : Token} {cs : List Char} {tokens : List Token}
      (hne : t.text.toList ≠ []) (hstart : t.span.start.offset = start)
      (hstop : t.span.stop.offset = start + byteLength t.text.toList)
      (hrest : Covers gap (start + byteLength t.text.toList) cs tokens) :
      Covers gap start (t.text.toList ++ cs) (t :: tokens)

/-- The tokens stand side by side from the offset `start` to the offset `stop`. -/
def Tiles : Nat → List Token → Nat → Prop
  | start, [], stop => start = stop
  | start, t :: tokens, stop => t.span.start.offset = start ∧ Tiles t.span.stop.offset tokens stop

variable {gap : Char → Bool} {start : Nat} {cs : List Char} {tokens : List Token}

/-! ## Building coverings -/

theorem covers_append {ds : List Char} {more : List Token} (h : Covers gap start cs tokens)
    (hmore : Covers gap (start + byteLength cs) ds more) :
    Covers gap start (cs ++ ds) (tokens ++ more) := by
  induction h with
  | nil start => simpa using hmore
  | skip hgap _ ih =>
    refine .skip hgap (ih ?_)
    rwa [byteLength_cons, ← Nat.add_assoc] at hmore
  | token hne hstart hstop _ ih =>
    rw [List.append_assoc]
    refine .token hne hstart hstop (ih ?_)
    rwa [byteLength_append, ← Nat.add_assoc] at hmore

theorem covers_of_gap (h : ∀ c ∈ cs, gap c = true) : Covers gap start cs [] := by
  induction cs generalizing start with
  | nil => exact .nil start
  | cons c cs ih =>
    exact .skip (h c List.mem_cons_self) (ih fun d hd => h d (List.mem_cons_of_mem c hd))

/-- A token may be replaced by tokens that lie over its text. -/
theorem covers_flatMap {f : Token → List Token} (h : Covers gap start cs tokens)
    (hf : ∀ t ∈ tokens, t.span.stop.offset = t.span.start.offset + byteLength t.text.toList →
      Covers gap t.span.start.offset t.text.toList (f t)) :
    Covers gap start cs (tokens.flatMap f) := by
  induction h with
  | nil start => exact .nil start
  | skip hgap _ ih => exact .skip hgap (ih hf)
  | @token start t cs tokens hne hstart hstop _ ih =>
    rw [List.flatMap_cons]
    have ht := hf t List.mem_cons_self (by rw [hstop, hstart])
    rw [hstart] at ht
    exact covers_append ht (ih fun u hu => hf u (List.mem_cons_of_mem t hu))

/-- Coverings do not depend on the kinds of tokens. -/
theorem covers_map {f : Token → Token} (hf : ∀ t, (f t).text = t.text ∧ (f t).span = t.span)
    (h : Covers gap start cs tokens) : Covers gap start cs (tokens.map f) := by
  induction h with
  | nil start => exact .nil start
  | skip hgap _ ih => exact .skip hgap ih
  | @token start t cs tokens hne hstart hstop _ ih =>
    obtain ⟨htext, hspan⟩ := hf t
    rw [List.map_cons, ← htext]
    rw [← htext] at hne hstop ih
    rw [← hspan] at hstart hstop
    exact .token hne hstart hstop ih

/-! ## Placed pieces -/

theorem trim_append_trailing (cs : List Char) :
    trim cs ++ ((trimStart cs).reverse.takeWhile isBlank).reverse = trimStart cs :=
  trimEnd_append_takeWhile (trimStart cs)

/-- A text that is not empty is covered by a token of its own. -/
theorem covers_single {text : List Char} (hne : text ≠ []) (kind : TokenKind) (file : String)
    (start : Nat) :
    Covers gap start text
      [⟨kind, String.ofList text, ⟨start, file⟩, ⟨start + byteLength text, file⟩⟩] := by
  let t : Token := ⟨kind, String.ofList text, ⟨start, file⟩, ⟨start + byteLength text, file⟩⟩
  have h : Covers gap start (t.text.toList ++ []) [t] :=
    .token (by simpa [t] using hne) rfl (by simp [t]) (.nil _)
  simpa [t] using h

/-- The token of a piece lies over the piece. -/
theorem covers_token? (spacing : Spacing) (file : String) (start : Nat) (piece : Piece) :
    Covers spacing.gap start piece.text (piece.token? spacing file start).toList := by
  cases spacing with
  | keep =>
    by_cases hempty : piece.text = []
    · simpa [Piece.token?, Spacing.cut, hempty] using Covers.nil start
    · simpa [Piece.token?, Spacing.cut, hempty] using covers_single hempty piece.kind file start
  | drop =>
    have hlead : Covers Spacing.drop.gap start (piece.text.takeWhile isBlank) [] :=
      covers_of_gap fun c hc => mem_takeWhile hc
    have htrail : ∀ start, Covers Spacing.drop.gap start
        ((trimStart piece.text).reverse.takeWhile isBlank).reverse [] := fun _ =>
      covers_of_gap fun c hc => mem_takeWhile (List.mem_reverse.mp hc)
    have hrest : Covers Spacing.drop.gap (start + byteLength (piece.text.takeWhile isBlank))
        (trimStart piece.text) (piece.token? .drop file start).toList := by
      rw [← trim_append_trailing]
      by_cases hempty : trim piece.text = []
      · simpa [Piece.token?, Spacing.cut, hempty] using htrail _
      · have h := covers_append (covers_single hempty piece.kind file
          (start + byteLength (piece.text.takeWhile isBlank))) (htrail _)
        simpa [Piece.token?, Spacing.cut, hempty] using h
    have h := covers_append hlead hrest
    rwa [takeWhile_append_trimStart, List.nil_append] at h

/-- **Placed pieces lie over the text that they make up.** -/
theorem covers_place (spacing : Spacing) (file : String) (start : Nat) (pieces : List Piece) :
    Covers spacing.gap start (textOf pieces) (place spacing file start pieces) := by
  induction pieces generalizing start with
  | nil => exact .nil start
  | cons piece pieces ih =>
    rw [place_cons]
    exact covers_append (covers_token? spacing file start piece) (ih _)

/-- A token comes from a piece. -/
theorem exists_piece_of_mem_place {spacing : Spacing} {file : String} {start : Nat}
    {pieces : List Piece} {t : Token} (h : t ∈ place spacing file start pieces) :
    ∃ piece ∈ pieces, t.kind = piece.kind ∧ t.text = String.ofList (spacing.cut piece.text).2 := by
  induction pieces generalizing start with
  | nil => cases h
  | cons piece pieces ih =>
    rw [place_cons, List.mem_append, Option.mem_toList] at h
    rcases h with h | h
    · obtain ⟨-, htoken⟩ := Option.ite_none_left_eq_some.mp h
      cases htoken
      exact ⟨piece, List.mem_cons_self, rfl, rfl⟩
    · obtain ⟨found, hfound, heq⟩ := ih h
      exact ⟨found, List.mem_cons_of_mem piece hfound, heq⟩

/-- What is left of a text without blanks at its end ends with a character that is none. -/
theorem exists_mem_trimEnd {cs : List Char} (h : trimEnd cs ≠ []) :
    ∃ c ∈ trimEnd cs, isBlank c = false := by
  have hstops : Stops isBlank (cs.reverse.dropWhile isBlank) := stops_dropWhile isBlank cs.reverse
  unfold trimEnd at h ⊢
  obtain ⟨c, rest, hlast⟩ := List.exists_cons_of_ne_nil (mt List.reverse_eq_nil_iff.mpr h)
  rw [hlast, stops_cons] at hstops
  exact ⟨c, by simp [hlast], hstops⟩

/-! ## What a covering says -/

/-- A token lies over its own characters of the text. -/
theorem exists_split_of_covers (h : Covers gap start cs tokens) {t : Token} (ht : t ∈ tokens) :
    ∃ before after, cs = before ++ t.text.toList ++ after ∧
      t.span.start.offset = start + byteLength before ∧
      t.span.stop.offset = t.span.start.offset + byteLength t.text.toList := by
  induction h with
  | nil => exact absurd ht List.not_mem_nil
  | @skip start c cs tokens _ _ ih =>
    obtain ⟨before, after, rfl, hstart, hstop⟩ := ih ht
    refine ⟨c :: before, after, by simp, ?_, hstop⟩
    rw [hstart, byteLength_cons, Nat.add_assoc]
  | @token start u cs tokens _ hstart hstop _ ih =>
    rcases List.mem_cons.mp ht with rfl | ht
    · exact ⟨[], cs, by simp, by simpa using hstart, by rw [hstop, hstart]⟩
    · obtain ⟨before, after, rfl, hstart', hstop'⟩ := ih ht
      refine ⟨u.text.toList ++ before, after, by simp, ?_, hstop'⟩
      rw [hstart', byteLength_append, Nat.add_assoc]

/-- No token is empty. -/
theorem text_ne_nil_of_covers (h : Covers gap start cs tokens) {t : Token} (ht : t ∈ tokens) :
    t.text.toList ≠ [] := by
  induction h with
  | nil => exact absurd ht List.not_mem_nil
  | skip _ _ ih => exact ih ht
  | token hne _ _ _ ih =>
    rcases List.mem_cons.mp ht with rfl | ht
    · exact hne
    · exact ih ht

/-- A placed token has a character that may not be left out. -/
theorem exists_not_gap_of_mem_place {spacing : Spacing} {file : String} {pieces : List Piece}
    {t : Token} (h : t ∈ place spacing file start pieces) :
    ∃ c ∈ t.text.toList, spacing.gap c = false := by
  obtain ⟨piece, -, -, htext⟩ := exists_piece_of_mem_place h
  have hne := text_ne_nil_of_covers (covers_place spacing file start pieces) h
  rw [htext, String.toList_ofList] at hne ⊢
  cases spacing with
  | keep =>
    obtain ⟨c, hc⟩ := List.exists_mem_of_ne_nil _ hne
    exact ⟨c, hc, rfl⟩
  | drop => exact exists_mem_trimEnd hne

/-- Where there is no token everything may be left out. -/
theorem gap_of_covers_nil (h : Covers gap start cs []) : ∀ c ∈ cs, gap c = true := by
  generalize hnone : ([] : List Token) = tokens at h
  induction h with
  | nil => exact List.forall_mem_nil _
  | skip hgap _ ih => exact List.forall_mem_cons.mpr ⟨hgap, ih hnone⟩
  | token => cases hnone

/-- A token has bytes, and all of them are bytes of the text. -/
theorem bounds_of_covers (h : Covers gap start cs tokens) {t : Token} (ht : t ∈ tokens) :
    start ≤ t.span.start.offset ∧ t.span.start.offset < t.span.stop.offset ∧
      t.span.stop.offset ≤ start + byteLength cs := by
  have hpos := byteLength_pos (text_ne_nil_of_covers h ht)
  obtain ⟨before, after, rfl, hstart, hstop⟩ := exists_split_of_covers h ht
  simp only [byteLength_append]
  omega

/-- The tokens stand in the order of the text. -/
theorem pairwise_of_covers (h : Covers gap start cs tokens) :
    tokens.Pairwise fun a b => a.span.stop.offset ≤ b.span.start.offset := by
  induction h with
  | nil => exact .nil
  | skip _ _ ih => exact ih
  | token _ _ hstop hrest ih =>
    refine List.pairwise_cons.mpr ⟨fun u hu => ?_, ih⟩
    rw [hstop]
    exact (bounds_of_covers hrest hu).1

/-- A character that may not be left out has each of its bytes under a token. -/
theorem exists_token_of_covers (h : Covers gap start cs tokens) {i : Nat} {c : Char}
    (hc : HoldsAt cs i c) (hgap : gap c = false) :
    ∃ t ∈ tokens, t.span.start.offset ≤ start + i ∧ start + i < t.span.stop.offset := by
  induction h generalizing i with
  | nil => exact absurd (lt_of_holdsAt hc) (Nat.not_lt_zero i)
  | @skip start d cs tokens hd _ ih =>
    rcases holdsAt_append (a := [d]) hc with hhere | ⟨hle, hrest⟩
    · rw [eq_of_holdsAt_singleton hhere, hd] at hgap
      exact absurd hgap (by decide)
    · obtain ⟨t, ht, hlow, hhigh⟩ := ih hrest
      rw [byteLength_cons, byteLength_nil] at hle hlow hhigh
      exact ⟨t, ht, by omega, by omega⟩
  | @token start t cs tokens _ hstart hstop _ ih =>
    rcases holdsAt_append hc with hhere | ⟨hle, hrest⟩
    · have hlt := lt_of_holdsAt hhere
      exact ⟨t, List.mem_cons_self, by omega, by omega⟩
    · obtain ⟨u, hu, hlow, hhigh⟩ := ih hrest
      exact ⟨u, List.mem_cons_of_mem t hu, by omega, by omega⟩

/-- Where nothing may be left out, the tokens stand side by side. -/
theorem tiles_of_covers (hgap : ∀ c, gap c = false) (h : Covers gap start cs tokens) :
    Tiles start tokens (start + byteLength cs) := by
  induction h with
  | nil => rfl
  | @skip _ c _ _ hc _ _ =>
    rw [hgap c] at hc
    exact absurd hc (by decide)
  | token _ hstart hstop _ ih =>
    rw [byteLength_append, ← Nat.add_assoc]
    rw [← hstop] at ih ⊢
    exact ⟨hstart, ih⟩

/-- Where nothing may be left out, the tokens are the text. -/
theorem flatMap_text_of_covers (hgap : ∀ c, gap c = false) (h : Covers gap start cs tokens) :
    tokens.flatMap (·.text.toList) = cs := by
  induction h with
  | nil => rfl
  | @skip _ c _ _ hc _ _ =>
    rw [hgap c] at hc
    exact absurd hc (by decide)
  | token _ _ _ _ ih => rw [List.flatMap_cons, ih]

end LayoutLex
