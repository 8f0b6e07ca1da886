import LayoutLex.Proofs.Lexing

/-!
# The tokens of a source lose none of its text

The tokens lie over the source: in order, each over its own bytes, with nothing but blanks between
them, and with nothing at all between them when blanks are kept.

Results:
* `covers_of_lex`: the tokens of a source are a covering of it.
* `join_text_of_lex`: with blanks kept, their texts are the source.
* `tokenize_lossless`: what this says about the bytes of the source.
-/

namespace LayoutLex

open Text Scan

/-- The offset is that of a byte under the token. -/
def Token.Spans (t : Token) (i : Nat) : Prop :=
  t.span.start.offset ≤ i ∧ i < t.span.stop.offset

/-! ## Coverings from the start of a source -/

section

variable {gap : Char → Bool} {cs : List Char} {tokens : List Token}

/-- The text of a token is what stands there. -/
theorem bytesBetween_of_covers (h : Covers gap 0 cs tokens) {t : Token} (ht : t ∈ tokens) :
    bytesBetween cs t.span.start.offset t.span.stop.offset = encode t.text.toList := by
  obtain ⟨before, after, heq, hstart, hstop⟩ := exists_split_of_covers h ht
  rw [hstop, hstart, Nat.zero_add, heq, bytesBetween_append]

/-- A byte of a character that may not be left out is under a token. -/
theorem exists_spans_of_covers (h : Covers gap 0 cs tokens) {i : Nat} {c : Char}
    (hc : HoldsAt cs i c) (hgap : gap c = false) : ∃ t ∈ tokens, t.Spans i := by
  obtain ⟨t, ht, hlow, hhigh⟩ := exists_token_of_covers h hc hgap
  exact ⟨t, ht, by omega, by omega⟩

/-- Only blanks are ever left out. -/
theorem isBlank_of_gap {spacing : Spacing} {c : Char} (h : spacing.gap c = true) :
    isBlank c = true := by
  cases spacing with
  | keep => cases h
  | drop => exact h

end

/-! ## The tokens of a source -/

namespace Lexer

/-- A source that is lexed has no open delimiter, so its segments are all of it. -/
theorem textOf_segments_of_fault? {text : List Char} {file : String}
    (h : (segments text).fault? file 0 = none) : textOf (segments text).pieces = text := by
  have hnone : (segments text).unclosed? = none := Option.map_eq_none_iff.mp h
  have htext := text_segments text
  rw [Split.text, hnone, Option.elim_none, List.append_nil] at htext
  exact htext

/-- **The tokens of a source are a covering of it.** -/
theorem covers_of_lex {lexer : Lexer} {text : List Char} {file : String} {tokens : List Token}
    (h : lexer.lex text file = .ok tokens) : Covers lexer.spacing.gap 0 text tokens := by
  rw [lex_eq] at h
  split at h
  · cases h
  · next hfault =>
    cases h
    have hcover := covers_place lexer.spacing file 0 (segments text).pieces
    have hne := fun t ht => text_ne_nil_of_covers hcover (t := t) ht
    rw [textOf_segments_of_fault? hfault] at hcover
    refine covers_map (classified_text_span lexer.catalogue) (covers_flatMap hcover ?_)
    intro segment hsegment hstop
    exact covers_parts (hne segment hsegment) hstop

/-- With blanks kept, the texts of the tokens put together are the source. -/
theorem join_text_of_lex {lexer : Lexer} (hkeep : lexer.spacing = .keep) {text : List Char}
    {file : String} {tokens : List Token} (h : lexer.lex text file = .ok tokens) :
    String.join (tokens.map (·.text)) = String.ofList text := by
  have hgap : ∀ c, lexer.spacing.gap c = false := by
    intro c
    rw [hkeep]
    rfl
  rw [← flatMap_text_of_covers hgap (covers_of_lex h)]
  apply String.toList_injective
  rw [String.toList_ofList, String.toList_join, List.flatMap_map]

/-- **Nothing of a source is lost, moved or changed.** Every token has bytes, they are bytes of the
source, and its text is what stands there; the tokens are in the order of the source; a byte under
no token is one of a blank. With blanks kept every byte is under a token, and the tokens stand side
by side from the start of the source to its end. Offsets of a source below 2^32 bytes fit into 32
bits. -/
theorem tokenize_lossless {lexer : Lexer} {source : String} {file? : Option String}
    {tokens : List Token} (h : lexer.tokenize source file? = .ok tokens) :
    (∀ t ∈ tokens, t.span.start.offset < t.span.stop.offset ∧
      t.span.stop.offset ≤ byteLength source.toList ∧
      bytesBetween source.toList t.span.start.offset t.span.stop.offset = encode t.text.toList) ∧
    (tokens.Pairwise fun a b => a.span.stop.offset ≤ b.span.start.offset) ∧
    (∀ i < byteLength source.toList, (∀ t ∈ tokens, ¬ t.Spans i) →
      ∃ c, HoldsAt source.toList i c ∧ isBlank c = true) ∧
    (lexer.spacing = .keep →
      (∀ i < byteLength source.toList, ∃ t ∈ tokens, t.Spans i) ∧
      Tiles 0 tokens (byteLength source.toList) ∧
      String.join (tokens.map (·.text)) = source) ∧
    (byteLength source.toList < UInt32.size → ∀ t ∈ tokens, t.span.stop.offset < UInt32.size) := by
  have hcover : Covers lexer.spacing.gap 0 source.toList tokens := covers_of_lex h
  refine ⟨?_, pairwise_of_covers hcover, ?_, ?_, ?_⟩
  · intro t ht
    obtain ⟨-, hlt, hle⟩ := bounds_of_covers hcover ht
    exact ⟨hlt, by omega, bytesBetween_of_covers hcover ht⟩
  · intro i hi huncovered
    obtain ⟨c, hc⟩ := exists_holdsAt hi
    have hout : lexer.spacing.gap c = true := by
      rw [← Bool.not_eq_false]
      intro hgap
      obtain ⟨t, ht, hspans⟩ := exists_spans_of_covers hcover hc hgap
      exact huncovered t ht hspans
    exact ⟨c, hc, isBlank_of_gap hout⟩
  · intro hkeep
    have hgap : ∀ c, lexer.spacing.gap c = false := by
      intro c
      rw [hkeep]
      rfl
    refine ⟨fun i hi => ?_, ?_, ?_⟩
    · obtain ⟨c, hc⟩ := exists_holdsAt hi
      exact exists_spans_of_covers hcover hc (hgap c)
    · have htiles := tiles_of_covers hgap hcover
      rwa [Nat.zero_add] at htiles
    · have htext := flatMap_text_of_covers hgap hcover
      apply String.toList_injective
      rw [← htext, String.toList_join, List.flatMap_map]
  · intro hsize t ht
    obtain ⟨-, -, hle⟩ := bounds_of_covers hcover ht
    omega

theorem tokenize_lossless_literals :
    let tokens : List Token :=
      [⟨.unresolved, "A", ⟨0, "shell"⟩, ⟨1, "shell"⟩⟩,
        ⟨.operator, ":=", ⟨1, "shell"⟩, ⟨3, "shell"⟩⟩,
        ⟨.string, "\"é|\"", ⟨3, "shell"⟩, ⟨8, "shell"⟩⟩, ⟨.spaces, " ", ⟨8, "shell"⟩, ⟨9, "shell"⟩⟩,
        ⟨.comment, "|\u00a0", ⟨9, "shell"⟩, ⟨12, "shell"⟩⟩]
    tokenize ⟨.empty, .keep⟩ "A:=\"é|\" |\u00a0" none = .ok tokens ∧ Tiles 0 tokens 12 := by
  intro tokens
  have hsome : (tokenize ⟨.empty, .keep⟩ "A:=\"é|\" |\u00a0" none).toOption = some tokens := by
    decide +kernel
  have h : tokenize ⟨.empty, .keep⟩ "A:=\"é|\" |\u00a0" none = .ok tokens := by
    cases hlex : tokenize ⟨.empty, .keep⟩ "A:=\"é|\" |\u00a0" none with
    | error fault =>
      rw [hlex] at hsome
      cases hsome
    | ok found =>
      rw [hlex] at hsome
      exact congrArg _ (Option.some.inj hsome)
  obtain ⟨-, -, -, hkeep, -⟩ := tokenize_lossless h
  exact ⟨h, (hkeep rfl).2.1⟩

end Lexer

end LayoutLex
