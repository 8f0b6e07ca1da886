import LayoutLex.Proofs.LastLexeme
import LayoutLex.Proofs.Unclosed

/-!
# Stretches of code

A source is stretches of code with comments and strings between them. Its tokens are those of the
stretches, which the blanks around a stretch do not matter to once they are dropped, and one for
each comment and string.

* `stretch` are the tokens of one stretch, `scanned` those of a source, before they are classified.

Results:
* `scanned_code`, `scanned_line`, `scanned_closed`: a source is scanned stretch by stretch.
* `lex_eq_ok_iff`: lexing succeeds when nothing is left open, with the tokens scanned.
-/

namespace LayoutLex

open Text Scan

/-! ## Classification -/

theorem Catalogue.kindOf_ne_spaces (c : Catalogue) (word : String) : c.kindOf word ≠ .spaces := by
  unfold Catalogue.kindOf
  split
  · decide
  split
  · decide
  split
  · decide
  split
  · decide
  split
  · decide
  split <;> decide

/-- A word that the table has is always classified. -/
theorem Catalogue.kindOf_ne_unresolved {c : Catalogue} {word : String}
    (hlisted : Operator.isOperator word = true) : c.kindOf word ≠ .unresolved := by
  rw [Catalogue.kindOf, if_pos hlisted]
  split
  · decide
  split
  · decide
  split <;> decide

theorem Catalogue.kindOf_of_not_mem {c : Catalogue} {word : String} (hmem : word ∉ c.symbols)
    (hlisted : Operator.isOperator word = true) : c.kindOf word = .operator := by
  have hnot : c.isFunction word = false ∧ c.isCommand word = false := by
    simpa [Catalogue.symbols, Catalogue.isFunction, Catalogue.isCommand] using hmem
  simp [Catalogue.kindOf, Catalogue.isFunctionOnly, Catalogue.isCommandOnly, Catalogue.isBoth, hnot,
    hlisted]

theorem classified_of_unresolved (c : Catalogue) {t : Token} (h : t.kind = .unresolved) :
    t.classified c = { t with kind := c.kindOf t.text } := by
  rw [Token.classified, if_neg (by simp [Token.isResolved, h])]

theorem classified_of_ne_unresolved (c : Catalogue) {t : Token} (h : t.kind ≠ .unresolved) :
    t.classified c = t := by
  rw [Token.classified, if_pos (by simp [Token.isResolved, h])]

theorem wordsOf_classified (c : Catalogue) (tokens : List Token) :
    wordsOf (tokens.map (Token.classified c)) = (wordsOf tokens).map (Token.classified c) := by
  have hkind : ∀ t : Token, ((t.classified c).kind != .spaces) = (t.kind != .spaces) := by
    intro t
    unfold Token.classified
    split
    · rfl
    · next hres =>
      have hunresolved : t.kind = .unresolved := by simpa [Token.isResolved] using hres
      have hne := c.kindOf_ne_spaces t.text
      rw [hunresolved]
      exact bne_iff_ne.mpr hne
  rw [wordsOf, wordsOf, List.filter_map]
  exact congrArg _ (List.filter_congr fun t _ => hkind t)

namespace Lexer

/-- Classification changes the kind alone. -/
theorem classified_eq (c : Catalogue) (t : Token) :
    t.classified c = { t with kind := (t.classified c).kind } := by
  obtain ⟨htext, hspan⟩ := classified_text_span c t
  cases hclassified : t.classified c with
  | mk kind text span =>
    rw [hclassified] at htext hspan
    rw [← htext, ← hspan]

end Lexer

/-! ## Trimming a stretch -/

theorem Text.isBlank_of_trimEnd_eq_nil {cs : List Char} (h : trimEnd cs = []) :
    ∀ c ∈ cs, isBlank c = true := by
  intro c hc
  have hsplit := trimEnd_append_takeWhile cs
  rw [h, List.nil_append] at hsplit
  rw [← hsplit, List.mem_reverse] at hc
  exact mem_takeWhile hc

theorem Text.trimEnd_of_isBlank {cs : List Char} (h : ∀ c ∈ cs, isBlank c = true) :
    trimEnd cs = [] := by
  induction cs with
  | nil => rfl
  | cons c cs ih =>
    have hcs : trimEnd cs = [] := ih fun d hd => h d (List.mem_cons_of_mem c hd)
    rw [trimEnd_cons, if_pos ⟨h c List.mem_cons_self, hcs⟩]

namespace Lexer

variable {spacing : Spacing} {file : String} {start : Nat}

/-- What the lexemes of a stretch are taken from. -/
def cutEnd (spacing : Spacing) (code : List Char) : List Char :=
  match spacing with
  | .keep => code
  | .drop => trimEnd code

/-- The tokens of a stretch of code that starts at the offset. -/
def stretch (spacing : Spacing) (file : String) (start : Nat) (code : List Char) : List Token :=
  place spacing file start (lexemes (cutEnd spacing code))

/-- The tokens of a text that starts at the offset, before they are classified. -/
def scanned (spacing : Spacing) (file : String) (start : Nat) (text : List Char) : List Token :=
  (place spacing file start (segments text).pieces).flatMap (parts spacing)

theorem stretch_nil : stretch spacing file start [] = [] := by
  have hcut : cutEnd spacing [] = [] := by cases spacing <;> rfl
  rw [stretch, hcut, lexemes]
  rfl

theorem scanned_nil : scanned spacing file start [] = [] := by
  rw [scanned, segments]
  rfl

/-- The parts of a segment of code are the tokens of a stretch: the blanks in front of it are
dropped with it or with its first lexeme. -/
theorem flatMap_parts_code (code : List Char) :
    ((⟨.unresolved, code⟩ : Piece).token? spacing file start).toList.flatMap (parts spacing) =
      stretch spacing file start code := by
  cases spacing with
  | keep =>
    by_cases hempty : code = []
    · rw [hempty, stretch_nil]
      rfl
    · simp [Piece.token?, Spacing.cut, hempty, parts, Token.isResolved, stretch, cutEnd]
  | drop =>
    by_cases htrim : trim code = []
    · have hblank := isBlank_of_trim_eq_nil htrim
      rw [stretch, cutEnd, trimEnd_of_isBlank hblank, lexemes]
      simp [Piece.token?, Spacing.cut, htrim, place]
    · have hleading : ∀ c ∈ leading code, isBlank c = true := fun _ hc => mem_takeWhile hc
      have hend : leading code ++ trim code = trimEnd code := by
        rw [trim, ← trimEnd_append_of_trimEnd_ne_nil htrim, leading, takeWhile_append_trimStart]
      rw [stretch, cutEnd, ← hend, place_lexemes_leading hleading]
      simp [Piece.token?, Spacing.cut, htrim, parts, Token.isResolved, leading]

theorem scanned_of_cons {text rest : List Char} {piece : Piece}
    (h : segments text = (segments rest).cons piece) :
    scanned spacing file start text =
      (piece.token? spacing file start).toList.flatMap (parts spacing) ++
        scanned spacing file (start + byteLength piece.text) rest := by
  rw [scanned, h, Split.pieces_cons, place_cons, List.flatMap_append]
  rfl

/-- A stretch of code up to an opener or to the end is scanned by itself. -/
theorem scanned_code (spacing : Spacing) (file : String) (start : Nat) {code rest : List Char}
    (hcode : ∀ c ∈ code, isOpener c = false)
    (hrest : Stops (!isOpener ·) rest) :
    scanned spacing file start (code ++ rest) =
      stretch spacing file start code ++ scanned spacing file (start + byteLength code) rest := by
  cases code with
  | nil => rw [stretch_nil]; rfl
  | cons c cs =>
    have hrun : ∀ d ∈ cs, (!isOpener d) = true := fun d hd => by
      rw [hcode d (List.mem_cons_of_mem c hd)]
      rfl
    have hsegments : segments (c :: cs ++ rest) = (segments rest).cons ⟨.unresolved, c :: cs⟩ := by
      rw [List.cons_append, segments_code (hcode c List.mem_cons_self),
        takeWhile_append_of_stops hrun hrest, dropWhile_append_of_stops hrun hrest]
    rw [scanned_of_cons hsegments, flatMap_parts_code]

/-- A comment that ends with its line is scanned by itself. -/
theorem scanned_line {c : Char} (hbar : isBar c = true) (cs : List Char) :
    scanned spacing file start (c :: cs) =
      ((⟨.comment, c :: cs.takeWhile (!isBreak ·)⟩ : Piece).token? spacing file start).toList ++
        scanned spacing file (start + byteLength (c :: cs.takeWhile (!isBreak ·)))
          (cs.dropWhile (!isBreak ·)) := by
  rw [scanned_of_cons (segments_line hbar cs), flatMap_parts_of_resolved (by simp)]

/-- A string or quoted comment is scanned by itself. -/
theorem scanned_closed {d : Char} (hquote : isQuote d = true) {body : List Char} (hbody : d ∉ body)
    (rest : List Char) :
    scanned spacing file start (d :: (body ++ d :: rest)) =
      ((⟨quotedKind d, d :: (body ++ [d])⟩ : Piece).token? spacing file start).toList ++
        scanned spacing file (start + byteLength (d :: (body ++ [d]))) rest := by
  rw [scanned_of_cons (segments_closed hquote hbody rest),
    flatMap_parts_of_resolved (quotedKind_ne_unresolved d)]

/-! ## Lexing -/

/-- **Lexing succeeds when nothing is left open**, and gives the tokens scanned, classified. -/
theorem lex_eq_ok_iff {lexer : Lexer} {text : List Char} {file : String} {tokens : List Token} :
    lexer.lex text file = .ok tokens ↔
      (segments text).unclosed? = none ∧
        tokens = (scanned lexer.spacing file 0 text).map (Token.classified lexer.catalogue) := by
  rw [lex_eq]
  cases hunclosed : (segments text).unclosed? with
  | some unclosed =>
    rw [Split.fault?, hunclosed]
    constructor
    · intro h
      cases h
    · rintro ⟨h, -⟩
      cases h
  | none =>
    rw [Split.fault?, hunclosed, Option.map_none]
    constructor
    · intro h
      exact ⟨rfl, (Except.ok.inj h).symm⟩
    · rintro ⟨-, rfl⟩
      rfl

end Lexer

end LayoutLex
