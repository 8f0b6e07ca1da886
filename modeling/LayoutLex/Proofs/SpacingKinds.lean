import Mathlib.Data.List.Forall2
import LayoutLex.Proofs.OperatorTokens
import LayoutLex.Proofs.Stretches

/-!
# What spacing does to kinds

Dropping blanks trims every stretch of code before it is cut into words, so a delimiter at its end
has lost the separators that decided its kind. All other words of a source that has no blanks but
separators keep their kinds.

* `Paired` is how a word of the source with blanks kept and the token that it is with blanks dropped
  compare before they are classified, `SameKind` how they compare after.

Results:
* `place_drop_lexemes`: dropping blanks is leaving out the separators.
* `paired_scanned`: words and tokens of a source are paired.
* `tokenize_kinds`: so they have the same kinds, but for delimiters before separators at the end of
  a stretch.
-/

namespace LayoutLex

open Text Scan

/-- The only blanks of the text are separators. -/
def Text.Plain (cs : List Char) : Prop :=
  ∀ c ∈ cs, isBlank c = true → isSpace c = true

theorem Text.plain_iff {cs : List Char} :
    Plain cs ↔ cs.all (fun c => !isBlank c || isSpace c) = true := by
  simp only [Plain, List.all_eq_true, Bool.or_eq_true, Bool.not_eq_true']
  refine forall_congr' fun c => forall_congr' fun _ => ?_
  cases isBlank c <;> simp

instance (cs : List Char) : Decidable (Plain cs) :=
  decidable_of_iff _ Text.plain_iff.symm

namespace Scan

variable {file : String} {start : Nat} {c d : Char} {ds : List Char}

/-! ## Words have no separators -/

theorem not_isSpace_of_not_isBlank (h : isBlank c = false) : isSpace c = false := by
  rw [← Bool.not_eq_true]
  intro hspace
  rw [isBlank_of_isSpace hspace] at h
  cases h

theorem not_isBlank_of_mem_number (h : startsNumber d ds = true) :
    ∀ c ∈ d :: numberTail d ds, isBlank c = false := by
  refine List.forall_mem_cons.mpr ⟨?_, fun c hc =>
    not_isBlank_of_isNumberChar (isNumberChar_of_mem_numberTail hc)⟩
  rcases Bool.or_eq_true_iff.mp h with hstart | hminus
  · exact not_isBlank_of_isNumberStart hstart
  · rw [beq_iff_eq.mp (Bool.and_eq_true_iff.mp hminus).1]
    rfl

theorem not_isBlank_of_mem_delimiter (hd : isDelimiter d = true) :
    ∀ c ∈ (delimiter d ds).1.text, isBlank c = false := by
  have hblank := not_isBlank_of_isDelimiter hd
  cases ds with
  | nil => simpa [delimiter] using hblank
  | cons next rest =>
    rw [delimiter]
    split
    · next hpair =>
      have hnext : isBlank next = false := by
        rw [← Bool.not_eq_true]
        intro hnext
        rw [not_mem_pairs_of_isBlank hnext] at hpair
        cases hpair
      simp [hblank, hnext]
    · simpa using hblank

theorem not_isSpace_of_mem_other (hd : isOther d = true) :
    ∀ c ∈ (other d ds).1.text, isSpace c = false := by
  have hrun : ∀ c ∈ d :: ds.takeWhile isOther, isSpace c = false :=
    List.forall_mem_cons.mpr ⟨(isOther_iff.mp hd).1, fun c hc =>
      (isOther_iff.mp (mem_takeWhile hc)).1⟩
  unfold other
  split
  · exact hrun
  · next e rest _ =>
    split
    · next he =>
      refine List.forall_mem_append.mpr ⟨hrun, List.forall_mem_cons.mpr ⟨?_, fun c hc => ?_⟩⟩
      · exact not_isSpace_of_not_isBlank (not_isBlank_of_isNameStart he)
      · exact not_isSpace_of_not_isBlank (not_isBlank_of_isNameChar (mem_takeWhile hc))
    · exact hrun

/-- **A lexeme that is no run of separators has none.** -/
theorem not_isSpace_of_mem_lexeme (hspace : isSpace d = false) (ds : List Char) :
    (lexeme d ds).1.kind ≠ .spaces ∧ ∀ c ∈ (lexeme d ds).1.text, isSpace c = false := by
  rcases firstCharacter_cases d ds with
    hd | hd | ⟨-, hname, hd⟩ | ⟨-, hname, hnumber, hd⟩ | hd
  · rw [hspace] at hd
    cases hd
  · rw [lexeme_of_nameStart hd]
    exact ⟨by simp, List.forall_mem_cons.mpr ⟨hspace, fun c hc =>
      not_isSpace_of_not_isBlank (not_isBlank_of_isNameChar (mem_takeWhile hc))⟩⟩
  · rw [lexeme_of_number hspace hname hd]
    refine ⟨?_, fun c hc => not_isSpace_of_not_isBlank (not_isBlank_of_mem_number hd c hc)⟩
    rcases kind_number (d :: numberTail d ds) with hkind | hkind
    · rw [hkind]
      decide
    · rw [hkind]
      decide
  · rw [lexeme_of_delimiter hspace hname hnumber hd]
    refine ⟨?_, fun c hc => not_isSpace_of_not_isBlank (not_isBlank_of_mem_delimiter hd c hc)⟩
    cases ds with
    | nil => simp [delimiter]
    | cons next rest =>
      rw [delimiter]
      split
      · simp
      · exact delimiterKind_ne_spaces d next
  · rw [lexeme_of_other hd]
    refine ⟨?_, not_isSpace_of_mem_other hd⟩
    rw [kind_other]
    decide

/-! ## Dropping blanks is leaving out separators -/

theorem wordsOf_token?_of_not_isSpace {piece : Piece} (hkind : piece.kind ≠ .spaces) :
    wordsOf (piece.token? .keep file start).toList = (piece.token? .keep file start).toList := by
  cases htoken : piece.token? .keep file start with
  | none => rfl
  | some t => simp [wordsOf, kind_of_token? htoken, hkind]

/-- **In a text whose blanks are separators, dropping them leaves the words.** -/
theorem place_drop_lexemes {cs : List Char} (h : Plain cs) :
    place .drop file start (lexemes cs) = wordsOf (place .keep file start (lexemes cs)) := by
  fun_induction lexemes cs generalizing start with
  | case1 => rfl
  | case2 d ds ih =>
    have hmem : ∀ c, c ∈ (lexeme d ds).1.text ∨ c ∈ (lexeme d ds).2 → c ∈ d :: ds := by
      intro c hc
      rw [← lexeme_append d ds]
      exact List.mem_append.mpr hc
    rw [place_cons, place_cons, wordsOf_append, ih fun c hc => h c (hmem c (Or.inr hc))]
    congr 1
    cases hspace : isSpace d with
    | true =>
      have hblanks : ∀ c ∈ d :: ds.takeWhile isSpace, isBlank c = true :=
        List.forall_mem_cons.mpr ⟨isBlank_of_isSpace hspace, fun c hc =>
          isBlank_of_isSpace (mem_takeWhile hc)⟩
      have hnone : (⟨.spaces, d :: ds.takeWhile isSpace⟩ : Piece).token? .drop file start = none :=
        token?_append_blanks hblanks .spaces []
      rw [lexeme_of_space hspace, wordsOf_token?_spaces, hnone]
      rfl
    | false =>
      obtain ⟨hkind, hall⟩ := not_isSpace_of_mem_lexeme hspace ds
      rw [wordsOf_token?_of_not_isSpace hkind, token?_of_not_isBlank]
      intro c hc
      rw [← Bool.not_eq_true]
      intro hblank
      have hspace := h c (hmem c (Or.inl hc)) hblank
      rw [hall c hc] at hspace
      cases hspace

end Scan

namespace Lexer

variable {file : String} {start : Nat}

theorem isSpace_of_mem_trailing {code : List Char} (h : Plain code) :
    ∀ c ∈ trailing code, isSpace c = true := by
  intro c hc
  have hsplit : trimEnd code ++ trailing code = code := trimEnd_append_takeWhile code
  exact h c (hsplit ▸ List.mem_append_right (trimEnd code) hc)
    (mem_takeWhile (List.mem_reverse.mp hc))

/-- **In either spacing a stretch has the same words**, but for the last one if separators follow
it. -/
theorem settles_stretch {code : List Char} (h : Plain code) (file : String) (start : Nat) :
    stretch .drop file start code = wordsOf (stretch .keep file start code) ∨
      ∃ b blanks, trailing code = b :: blanks ∧ isSpace b = true ∧
        Settles b (start + byteLength (trimEnd code)) (stretch .drop file start code)
          (wordsOf (stretch .keep file start code)) := by
  have hsplit : trimEnd code ++ trailing code = code := trimEnd_append_takeWhile code
  have hleft : Plain (trimEnd code) := fun c hc =>
    h c (hsplit ▸ List.mem_append_left (trailing code) hc)
  have hright := isSpace_of_mem_trailing h
  have hdrop : stretch .drop file start code =
      wordsOf (place .keep file start (lexemes (trimEnd code))) := place_drop_lexemes hleft
  cases htrailing : trailing code with
  | nil =>
    left
    rw [htrailing, List.append_nil] at hsplit
    rw [hdrop, hsplit]
    rfl
  | cons b blanks =>
    right
    rw [htrailing] at hsplit hright
    obtain ⟨hb, hblanks⟩ := List.forall_mem_cons.mp hright
    have hnil : ∀ offset, wordsOf (place .keep file offset (lexemes blanks)) = [] := by
      intro offset
      have hwords : wordsOf (place .keep file offset (lexemes (blanks ++ []))) =
          wordsOf (place .keep file (offset + byteLength blanks) (lexemes [])) :=
        words_lexemes_separators hblanks []
      rwa [List.append_nil, lexemes] at hwords
    have hkeep : wordsOf (stretch .keep file start code) =
        wordsOf (place .keep file start (settle b (lexemes (trimEnd code)))) := by
      have hwords : wordsOf (place .keep file start (lexemes (trimEnd code ++ b :: blanks))) = _ :=
        words_lexemes_append_space hb (trimEnd code) blanks
      rwa [hnil, List.append_nil, hsplit] at hwords
    refine ⟨b, blanks, rfl, hb, ?_⟩
    rw [hdrop, hkeep]
    exact settles_place b (trimEnd code)

/-! ## Words and tokens in pairs -/

/-- The offset is at the end of the last word of a stretch of code: some separators stand there,
and after them a comment, a string or the end of the source. -/
def EndsStretch (source : List Char) (offset : Nat) : Prop :=
  ∃ before blanks after, source = before ++ blanks ++ after ∧ byteLength before = offset ∧
    blanks ≠ [] ∧ (∀ c ∈ blanks, isSpace c = true) ∧ Stops (!isOpener ·) after

/-- A word of the source and the token that it is once blanks are dropped, neither classified. -/
inductive Paired (source : List Char) (word : Token) : Token → Prop
  /-- They have the same kind, and the same text if it is to be classified. -/
  | same {t : Token} (hkind : t.kind = word.kind)
      (htext : word.kind = .unresolved → t.text = word.text) : Paired source word t
  /-- The word is a delimiter with the kind it has before a separator, the token has none. -/
  | settled {b d : Char} {t : Token} (hends : EndsStretch source t.span.stop.offset)
      (hb : isSpace b = true) (hd : isDelimiter d = true) (hkind : t.kind = .unresolved)
      (htext : t.text = String.singleton d) (hword : word = { t with kind := delimiterKind d b }) :
      Paired source word t

theorem paired_refl (source : List Char) (tokens : List Token) :
    List.Forall₂ (Paired source) tokens tokens :=
  List.forall₂_same.mpr fun _ _ => .same rfl fun _ => rfl

/-- The words and the tokens of a stretch of code are paired. -/
theorem paired_stretch {code after : List Char} (h : Plain code)
    (hafter : Stops (!isOpener ·) after) (before : List Char) :
    List.Forall₂ (Paired (before ++ (code ++ after)))
      (wordsOf (stretch .keep file (byteLength before) code))
      (stretch .drop file (byteLength before) code) := by
  rcases settles_stretch h file (byteLength before) with
    heq | ⟨b, blanks, htrailing, hb, hsettles⟩
  · rw [heq]
    exact paired_refl _ _
  · generalize wordsOf (stretch .keep file (byteLength before) code) = words at hsettles
    generalize stretch .drop file (byteLength before) code = tokens at hsettles
    cases hsettles with
    | same => exact paired_refl _ _
    | last own hd hkind htext hstop =>
      refine List.rel_append (paired_refl _ _) (.cons (.settled ?_ hb hd hkind htext rfl) .nil)
      refine ⟨before ++ trimEnd code, trailing code, after, ?_, ?_, ?_, ?_, hafter⟩
      · have hsplit : trimEnd code ++ trailing code = code := trimEnd_append_takeWhile code
        rw [List.append_assoc before, hsplit, List.append_assoc]
      · rw [byteLength_append, hstop]
      · rw [htrailing]
        exact List.cons_ne_nil b blanks
      · exact isSpace_of_mem_trailing h

/-- A comment or string is one word in either spacing. -/
theorem paired_token? (source : List Char) {kind : TokenKind} {c : Char} {cs : List Char}
    (hc : isBlank c = false) (hkind : kind ≠ .unresolved) (hspaces : kind ≠ .spaces) :
    List.Forall₂ (Paired source)
      (wordsOf ((⟨kind, c :: cs⟩ : Piece).token? .keep file start).toList)
      ((⟨kind, c :: cs⟩ : Piece).token? .drop file start).toList := by
  have htrim : trim (c :: cs) ≠ [] := by
    intro hnil
    rw [isBlank_of_trim_eq_nil hnil c List.mem_cons_self] at hc
    cases hc
  have hsome : ∀ spacing, ∃ t, (⟨kind, c :: cs⟩ : Piece).token? spacing file start = some t ∧
      t.kind = kind := by
    intro spacing
    cases spacing with
    | keep => exact ⟨_, rfl, rfl⟩
    | drop => exact ⟨_, if_neg (by simpa using htrim), rfl⟩
  obtain ⟨word, hword, hwordKind⟩ := hsome .keep
  obtain ⟨t, ht, htKind⟩ := hsome .drop
  rw [wordsOf_token?_of_not_isSpace hspaces, hword, ht]
  refine .cons (.same (htKind.trans hwordKind.symm) fun hunresolved => ?_) .nil
  exact absurd (hwordKind.symm.trans hunresolved) hkind

/-- **The words and the tokens of a source are paired.** -/
theorem paired_scanned {before text : List Char} (h : Plain text) :
    List.Forall₂ (Paired (before ++ text)) (wordsOf (scanned .keep file (byteLength before) text))
      (scanned .drop file (byteLength before) text) := by
  fun_induction segments text generalizing before with
  | case1 =>
    rw [scanned_nil, scanned_nil]
    exact .nil
  | case2 c cs hbar ih =>
    have hsplit : c :: cs.takeWhile (!isBreak ·) ++ cs.dropWhile (!isBreak ·) = c :: cs := by
      rw [List.cons_append, List.takeWhile_append_dropWhile]
    have hblank : isBlank c = false := by
      rw [isBar_iff.mp hbar]
      rfl
    have htail := @ih (before ++ c :: cs.takeWhile (!isBreak ·)) fun d hd =>
      h d (hsplit ▸ List.mem_append_right _ hd)
    rw [List.append_assoc, hsplit, byteLength_append] at htail
    rw [scanned_line hbar, scanned_line hbar, wordsOf_append]
    exact List.rel_append (paired_token? _ hblank (by decide) (by decide)) htail
  | case3 c cs _ hquote hclosing =>
    rw [scanned, scanned, segments_unclosed hquote (closing?_eq_none_iff.mp hclosing)]
    exact .nil
  | case4 c cs _ hquote text tail hclosing ih =>
    obtain ⟨body, hbody, rfl, rfl⟩ := exists_body_of_closing? hclosing
    have hsplit : c :: (body ++ [c]) ++ tail = c :: (body ++ c :: tail) := by simp
    have hblank : isBlank c = false := by
      rcases isQuote_iff.mp hquote with rfl | rfl
      · rfl
      · rfl
    have htail := @ih (before ++ c :: (body ++ [c])) fun d hd =>
      h d (hsplit ▸ List.mem_append_right _ hd)
    rw [List.append_assoc, hsplit, byteLength_append] at htail
    rw [scanned_closed hquote hbody, scanned_closed hquote hbody, wordsOf_append]
    exact List.rel_append
      (paired_token? _ hblank (quotedKind_ne_unresolved c) (quotedKind_ne_spaces c)) htail
  | case5 c cs hbar hquote ih =>
    have hsplit : c :: cs.takeWhile (!isOpener ·) ++ cs.dropWhile (!isOpener ·) = c :: cs := by
      rw [List.cons_append, List.takeWhile_append_dropWhile]
    have hcode : ∀ d ∈ c :: cs.takeWhile (!isOpener ·), isOpener d = false :=
      List.forall_mem_cons.mpr ⟨by simp [isOpener, hbar, hquote], fun d hd => by
        simpa using mem_takeWhile hd⟩
    have hrest : Stops (!isOpener ·) (cs.dropWhile (!isOpener ·)) := stops_dropWhile _ cs
    have hfront : List.Forall₂ (Paired _)
        (wordsOf (stretch .keep file (byteLength before) (c :: cs.takeWhile (!isOpener ·))))
        (stretch .drop file (byteLength before) (c :: cs.takeWhile (!isOpener ·))) :=
      paired_stretch (fun d hd => h d (hsplit ▸ List.mem_append_left _ hd)) hrest before
    have htail := @ih (before ++ c :: cs.takeWhile (!isOpener ·)) fun d hd =>
      h d (hsplit ▸ List.mem_append_right _ hd)
    rw [hsplit] at hfront
    rw [List.append_assoc, hsplit, byteLength_append] at htail
    have hscanned : ∀ spacing, scanned spacing file (byteLength before) (c :: cs) =
        stretch spacing file (byteLength before) (c :: cs.takeWhile (!isOpener ·)) ++
          scanned spacing file (byteLength before + byteLength (c :: cs.takeWhile (!isOpener ·)))
            (cs.dropWhile (!isOpener ·)) := by
      intro spacing
      rw [← scanned_code spacing file _ hcode hrest, hsplit]
    rw [hscanned, hscanned, wordsOf_append]
    exact List.rel_append hfront htail

/-! ## Kinds -/

/-- What a word of the source with blanks kept has in common with the token that it is once blanks
are dropped. -/
inductive SameKind (c : Catalogue) (source : List Char) (word t : Token) : Prop
  /-- The kind is the same, and so is the text of a word without a kind. -/
  | same (hkind : t.kind = word.kind) (htext : word.kind = .unresolved → t.text = word.text) :
      SameKind c source word t
  /-- A sign that ends its stretch is dyadic before the separators there and is classified as a word
  without them. -/
  | sign (hends : EndsStretch source word.span.stop.offset)
      (htext : word.text = "+" ∨ word.text = "-") (hword : word.kind = .dyadic)
      (ht : t.kind = c.kindOf word.text) : SameKind c source word t
  /-- Any other delimiter that ends its stretch and has an entry in the table is an operator before
  the separators there, while without them the catalogue's word counts first. -/
  | listed {d : Char} (hends : EndsStretch source word.span.stop.offset)
      (hd : isDelimiter d = true) (htext : word.text = String.singleton d)
      (hoperator : Operator.isOperator word.text = true) (hmem : word.text ∈ c.symbols)
      (hword : word.kind = .operator) (ht : t.kind = c.kindOf word.text) : SameKind c source word t
  /-- Nothing is said about a colon that ends its stretch. -/
  | colon (hends : EndsStretch source word.span.stop.offset) (hword : word.text = ":")
      (ht : t.text = ":") : SameKind c source word t

theorem delimiterKind_sign {d b : Char} (hd : isSign d = true) (hb : isSpace b = true) :
    delimiterKind d b = .dyadic := by
  have hstart : isPairStart d = false := by
    simp only [isSign, Bool.or_eq_true, beq_iff_eq] at hd
    rcases hd with rfl | rfl
    · decide
    · decide
  rw [delimiterKind, hstart, if_neg Bool.false_ne_true, if_pos hd, if_pos hb]

/-- **A delimiter before separators** is of the kind that its word has, but for the exceptions. -/
theorem sameKind_settled (c : Catalogue) {source : List Char} {b d : Char} {t : Token}
    (hends : EndsStretch source t.span.stop.offset) (hb : isSpace b = true)
    (hd : isDelimiter d = true) (hkind : t.kind = .unresolved)
    (htext : t.text = String.singleton d) :
    SameKind c source (({ t with kind := delimiterKind d b } : Token).classified c)
      (t.classified c) := by
  rcases delimiterKind_cases d b with hsign | rfl | hunresolved | ⟨hoperator, hlisted⟩
  · rw [delimiterKind_sign hsign hb, classified_of_ne_unresolved c (by simp),
      classified_of_unresolved c hkind]
    refine .sign hends ?_ rfl rfl
    simp only [isSign, Bool.or_eq_true, beq_iff_eq] at hsign
    rcases hsign with rfl | rfl
    · exact Or.inl htext
    · exact Or.inr htext
  · rw [classified_eq, classified_of_unresolved c hkind]
    exact .colon hends htext htext
  · rw [hunresolved, ← hkind]
    exact .same rfl fun _ => rfl
  · rw [hoperator, classified_of_ne_unresolved c (by simp), classified_of_unresolved c hkind]
    rw [← htext] at hlisted
    by_cases hmem : t.text ∈ c.symbols
    · exact .listed hends hd htext hlisted hmem rfl rfl
    · exact .same (Catalogue.kindOf_of_not_mem hmem hlisted) (by simp)

theorem sameKind_of_paired (c : Catalogue) {source : List Char} {word t : Token}
    (h : Paired source word t) : SameKind c source (word.classified c) (t.classified c) := by
  cases h with
  | same hkind htext =>
    by_cases hunresolved : word.kind = .unresolved
    · rw [classified_of_unresolved c hunresolved,
        classified_of_unresolved c (hkind.trans hunresolved), htext hunresolved]
      exact .same rfl fun _ => rfl
    · rw [classified_of_ne_unresolved c hunresolved,
        classified_of_ne_unresolved c (hkind ▸ hunresolved)]
      exact .same hkind htext
  | settled hends hb hd hkind htext hword =>
    rw [hword]
    exact sameKind_settled c hends hb hd hkind htext

/-- The texts that nothing could classify, colons aside. -/
def openNames (tokens : List Token) : List String :=
  (Token.unresolvedTexts tokens).filter (· != ":")

theorem openNames_cons (t : Token) (tokens : List Token) :
    openNames (t :: tokens) = openNames [t] ++ openNames tokens := by
  simp only [openNames, Token.unresolvedTexts]
  rw [← List.filter_append, ← List.map_append, ← List.filter_append, List.singleton_append]

theorem openNames_of_unresolved {t : Token} (h : t.kind = .unresolved) :
    openNames [t] = [t.text].filter (· != ":") := by
  have hres : t.isResolved = false := by simp [Token.isResolved, h]
  simp [openNames, Token.unresolvedTexts, hres]

theorem openNames_of_ne_unresolved {t : Token} (h : t.kind ≠ .unresolved) : openNames [t] = [] := by
  simp [openNames, Token.unresolvedTexts, Token.isResolved, h]

theorem openNames_of_colon {t : Token} (h : t.text = ":") : openNames [t] = [] := by
  by_cases hres : t.isResolved = true
  · simp [openNames, Token.unresolvedTexts, hres]
  · simp [openNames, Token.unresolvedTexts, hres, h]

theorem openNames_wordsOf (tokens : List Token) :
    openNames (wordsOf tokens) = openNames tokens := by
  have hfilter : (wordsOf tokens).filter (!·.isResolved) = tokens.filter (!·.isResolved) := by
    rw [wordsOf, List.filter_filter]
    refine List.filter_congr fun t _ => ?_
    cases hkind : t.kind <;> simp [Token.isResolved, hkind]
  rw [openNames, openNames, Token.unresolvedTexts, Token.unresolvedTexts, hfilter]

/-- A word and its token leave the same name open: the exceptions are all classified. -/
theorem SameKind.openNames_eq {c : Catalogue} {source : List Char} {word t : Token}
    (h : SameKind c source word t) : openNames [word] = openNames [t] := by
  have hclassified : ∀ {kind : TokenKind}, Operator.isOperator word.text = true →
      word.kind = kind → kind ≠ .unresolved → t.kind = c.kindOf word.text →
        openNames [word] = openNames [t] := by
    intro kind hlisted hword hkind ht
    rw [openNames_of_ne_unresolved (hword ▸ hkind),
      openNames_of_ne_unresolved (ht ▸ Catalogue.kindOf_ne_unresolved hlisted)]
  cases h with
  | same hkind htext =>
    by_cases hunresolved : word.kind = .unresolved
    · rw [openNames_of_unresolved hunresolved, openNames_of_unresolved (hkind.trans hunresolved),
        htext hunresolved]
    · rw [openNames_of_ne_unresolved hunresolved, openNames_of_ne_unresolved (hkind ▸ hunresolved)]
  | sign _ htext hword ht =>
    refine hclassified ?_ hword (by decide) ht
    rcases htext with htext | htext
    · rw [htext]
      decide
    · rw [htext]
      decide
  | listed _ _ _ hlisted _ hword ht => exact hclassified hlisted hword (by decide) ht
  | colon _ hword ht => rw [openNames_of_colon hword, openNames_of_colon ht]

theorem openNames_eq {c : Catalogue} {source : List Char} {words tokens : List Token}
    (h : List.Forall₂ (SameKind c source) words tokens) : openNames words = openNames tokens := by
  induction h with
  | nil => rfl
  | cons hword _ ih => rw [openNames_cons, hword.openNames_eq, ih, ← openNames_cons]

/-- **Spacing matters to kinds only at the end of a stretch of code.** When a source whose blanks
are all separators can be lexed in one spacing it can be lexed in the other. The words with blanks
kept are the tokens with blanks dropped, one for one, and have the same kinds, unless a word is a
delimiter with nothing but separators between it and the next comment or string or the end of the
source. The names that nothing could classify are the same, colons aside. -/
theorem tokenize_kinds {catalogue : Catalogue} {spacing : Spacing} {source : String}
    {file? : Option String} {tokens : List Token} (hplain : Plain source.toList)
    (h : (⟨catalogue, spacing⟩ : Lexer).tokenize source file? = .ok tokens) :
    ∃ kept dropped, (⟨catalogue, .keep⟩ : Lexer).tokenize source file? = .ok kept ∧
      (⟨catalogue, .drop⟩ : Lexer).tokenize source file? = .ok dropped ∧
      List.Forall₂ (SameKind catalogue source.toList) (wordsOf kept) dropped ∧
      (Token.unresolvedTexts kept).filter (· != ":") =
        (Token.unresolvedTexts dropped).filter (· != ":") := by
  obtain ⟨hclosed, -⟩ := lex_eq_ok_iff.mp h
  have hpaired : List.Forall₂ (Paired source.toList)
      (wordsOf (scanned .keep (file?.getD defaultFile) 0 source.toList))
      (scanned .drop (file?.getD defaultFile) 0 source.toList) :=
    @paired_scanned (file?.getD defaultFile) [] source.toList hplain
  have hsame : List.Forall₂ (SameKind catalogue source.toList)
      (wordsOf ((scanned .keep (file?.getD defaultFile) 0 source.toList).map
        (Token.classified catalogue)))
      ((scanned .drop (file?.getD defaultFile) 0 source.toList).map
        (Token.classified catalogue)) := by
    rw [wordsOf_classified, List.forall₂_map_left_iff, List.forall₂_map_right_iff]
    exact hpaired.imp fun _ _ => sameKind_of_paired catalogue
  have hnames := openNames_eq hsame
  rw [openNames_wordsOf] at hnames
  exact ⟨_, _, lex_eq_ok_iff.mpr ⟨hclosed, rfl⟩, lex_eq_ok_iff.mpr ⟨hclosed, rfl⟩, hsame, hnames⟩

theorem tokenize_kinds_sum :
    ∃ kept dropped, (⟨.empty, .keep⟩ : Lexer).tokenize "A + |B" none = .ok kept ∧
      (⟨.empty, .drop⟩ : Lexer).tokenize "A + |B" none = .ok dropped ∧
      List.Forall₂ (SameKind .empty "A + |B".toList) (wordsOf kept) dropped ∧
      (Token.unresolvedTexts kept).filter (· != ":") =
        (Token.unresolvedTexts dropped).filter (· != ":") := by
  have hplain : Plain "A + |B".toList := by decide
  have h : tokenize ⟨.empty, .drop⟩ "A + |B" none =
      .ok [⟨.unresolved, "A", ⟨0, "shell"⟩, ⟨1, "shell"⟩⟩,
        ⟨.operator, "+", ⟨2, "shell"⟩, ⟨3, "shell"⟩⟩,
        ⟨.comment, "|B", ⟨4, "shell"⟩, ⟨6, "shell"⟩⟩] :=
    eq_ok_of_toOption_eq_some (by decide +kernel)
  exact tokenize_kinds hplain h

/-- A catalogue can list an operator of the table. At the end of a stretch its word counts then. -/
example :
    let catalogue := Catalogue.empty.addFunction ";"
    (tokenize ⟨catalogue, .keep⟩ "A; " none).toOption.map (List.map Token.kind) =
        some [.unresolved, .operator, .spaces] ∧
      (tokenize ⟨catalogue, .drop⟩ "A; " none).toOption.map (List.map Token.kind) =
        some [.unresolved, .function] := by
  decide +kernel

/-- A sign that a space follows at the end of a source is dyadic with blanks kept and an operator of
no certain number of operands with blanks dropped. -/
theorem not_tokenize_kinds_eq :
    ¬ ∀ (catalogue : Catalogue) (source : String) (file? : Option String)
      (kept dropped : List Token), Plain source.toList →
      (⟨catalogue, .keep⟩ : Lexer).tokenize source file? = .ok kept →
      (⟨catalogue, .drop⟩ : Lexer).tokenize source file? = .ok dropped →
        (wordsOf kept).map (·.kind) = dropped.map (·.kind) := by
  intro hall
  have hplain : Plain "A + ".toList := by decide
  have hkept : tokenize ⟨.empty, .keep⟩ "A + " none =
      .ok [⟨.unresolved, "A", ⟨0, "shell"⟩, ⟨1, "shell"⟩⟩,
        ⟨.spaces, " ", ⟨1, "shell"⟩, ⟨2, "shell"⟩⟩, ⟨.dyadic, "+", ⟨2, "shell"⟩, ⟨3, "shell"⟩⟩,
        ⟨.spaces, " ", ⟨3, "shell"⟩, ⟨4, "shell"⟩⟩] :=
    eq_ok_of_toOption_eq_some (by decide +kernel)
  have hdropped : tokenize ⟨.empty, .drop⟩ "A + " none =
      .ok [⟨.unresolved, "A", ⟨0, "shell"⟩, ⟨1, "shell"⟩⟩,
        ⟨.operator, "+", ⟨2, "shell"⟩, ⟨3, "shell"⟩⟩] :=
    eq_ok_of_toOption_eq_some (by decide +kernel)
  exact absurd (hall _ _ _ _ _ hplain hkept hdropped) (by decide)

end Lexer

end LayoutLex
