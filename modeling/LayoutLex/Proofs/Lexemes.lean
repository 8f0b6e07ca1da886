import LayoutLex.Proofs.Runs
import LayoutLex.Scan.Lexeme

/-!
# How far a lexeme looks

What a lexeme is depends on its own characters and the one after it. So text added at the end of a
source changes nothing up to the last lexeme, and can only make that one longer.

Results:
* `lexeme_of_space`, `lexeme_of_nameStart`, `lexeme_of_number`, `lexeme_of_delimiter`,
  `lexeme_of_other`: the lexeme for each class of first character.
* `lexeme_append_of_ne_nil`: a lexeme before the end of a text stays when the text goes on.
* `suffix_lexeme_append`: the last lexeme of a text stays or grows when the text goes on.
-/

namespace LayoutLex.Scan

open Text

/-! ## The classes of first characters -/

theorem not_isNameStart_of_isSpace {c : Char} (h : isSpace c = true) : isNameStart c = false := by
  simp only [isSpace, isBreak, Bool.or_eq_true, beq_iff_eq] at h
  rcases h with (rfl | rfl) | rfl | rfl <;> rfl

theorem isOther_iff {c : Char} :
    isOther c = true ↔ isSpace c = false ∧ isNameStart c = false ∧ isNumberStart c = false ∧
      isDelimiter c = false := by
  simp [isOther, and_assoc]

theorem not_startsNumber_of_isOther {c : Char} (h : isOther c = true) (cs : List Char) :
    startsNumber c cs = false := by
  obtain ⟨-, -, hnumber, hdelimiter⟩ := isOther_iff.mp h
  have hminus : c ≠ '-' := by
    rintro rfl
    exact absurd hdelimiter (by decide)
  simp [startsNumber, hnumber, hminus]

theorem isNumberChar_of_isNumberStart {c : Char} (h : isNumberStart c = true) :
    isNumberChar c = true := by
  rcases Bool.or_eq_true_iff.mp h with hdigit | hpoint
  · simp [isNumberChar, hdigit]
  · simp [isNumberChar, hpoint]

theorem toNat_of_isNameStart {c : Char} (h : isNameStart c = true) :
    65 ≤ c.toNat ∧ c.toNat ≤ 90 :=
  of_decide_eq_true h

theorem not_isBlank_of_isNameStart {c : Char} (h : isNameStart c = true) : isBlank c = false := by
  have hrange := toNat_of_isNameStart h
  simp [isBlank]
  omega

theorem not_isBlank_of_isNumberStart {c : Char} (h : isNumberStart c = true) :
    isBlank c = false := by
  simp only [isNumberStart, Char.isDigit, Bool.or_eq_true, beq_iff_eq, ge_iff_le,
    Bool.and_eq_true, decide_eq_true_eq, UInt32.le_iff_toNat_le] at h
  rcases h with h | rfl
  · simp only [isBlank, Char.toNat]
    simp at h ⊢
    omega
  · rfl

theorem not_isSpace_of_isNumberStart {c : Char} (h : isNumberStart c = true) :
    isSpace c = false := by
  rw [← Bool.not_eq_true]
  intro hspace
  have hblank := isBlank_of_isSpace hspace
  rw [not_isBlank_of_isNumberStart h] at hblank
  cases hblank

theorem not_isNumberStart_of_isSpace {c : Char} (h : isSpace c = true) :
    isNumberStart c = false := by
  rw [← Bool.not_eq_true]
  intro hstart
  rw [not_isSpace_of_isNumberStart hstart] at h
  cases h

theorem not_isBlank_of_isNumberChar {c : Char} (h : isNumberChar c = true) :
    isBlank c = false := by
  simp only [isNumberChar, isSign, Bool.or_eq_true, beq_iff_eq] at h
  rcases h with (((hdigit | rfl) | (rfl | rfl)) | rfl) | rfl
  · exact not_isBlank_of_isNumberStart (by rw [isNumberStart, hdigit, Bool.true_or])
  · rfl
  · rfl
  · rfl
  · rfl
  · rfl

theorem not_isBlank_of_isNameChar {c : Char} (h : isNameChar c = true) : isBlank c = false := by
  simp only [isNameChar, Bool.or_eq_true, beq_iff_eq] at h
  rcases h with (((hupper | hdigit) | rfl) | rfl) | rfl
  · exact not_isBlank_of_isNameStart hupper
  · exact not_isBlank_of_isNumberStart (by rw [isNumberStart, hdigit, Bool.true_or])
  · rfl
  · rfl
  · rfl

theorem not_isBlank_of_isDelimiter {c : Char} (h : isDelimiter c = true) : isBlank c = false := by
  have hall : delimiters.all (!isBlank ·) = true := by decide
  simpa using List.all_eq_true.mp hall c (List.contains_iff_mem.mp h)

theorem not_isNameStart_of_isNumberStart {c : Char} (h : isNumberStart c = true) :
    isNameStart c = false := by
  rw [← Bool.not_eq_true]
  intro hname
  have hrange := toNat_of_isNameStart hname
  rcases Bool.or_eq_true_iff.mp h with hdigit | hpoint
  · have hle : c.toNat ≤ 57 := of_decide_eq_true (Bool.and_eq_true_iff.mp hdigit).2
    omega
  · rw [beq_iff_eq.mp hpoint] at hname
    cases hname

theorem classes_of_isDelimiter {c : Char} (h : isDelimiter c = true) :
    isSpace c = false ∧ isNameStart c = false ∧ isNumberStart c = false := by
  have hall : delimiters.all
      (fun c => !isSpace c && !isNameStart c && !isNumberStart c) = true := by decide
  simpa [and_assoc] using List.all_eq_true.mp hall c (List.contains_iff_mem.mp h)

theorem not_isDelimiter_of_isSpace {c : Char} (h : isSpace c = true) : isDelimiter c = false := by
  rw [← Bool.not_eq_true]
  intro hdelimiter
  rw [(classes_of_isDelimiter hdelimiter).1] at h
  cases h

theorem not_isDelimiter_of_isNameStart {c : Char} (h : isNameStart c = true) :
    isDelimiter c = false := by
  rw [← Bool.not_eq_true]
  intro hdelimiter
  rw [(classes_of_isDelimiter hdelimiter).2.1] at h
  cases h

/-- A blank is a separator or has no meaning of its own. -/
theorem isSpace_or_isOther_of_isBlank {c : Char} (h : isBlank c = true) :
    isSpace c = true ∨ isOther c = true := by
  have hne : ∀ {b : Bool}, (b = true → isBlank c = false) → b = false := by
    intro b hb
    cases b with
    | false => rfl
    | true => rw [hb rfl] at h; cases h
  cases hspace : isSpace c with
  | true => exact Or.inl rfl
  | false =>
    exact Or.inr (isOther_iff.mpr ⟨hspace, hne not_isBlank_of_isNameStart,
      hne not_isBlank_of_isNumberStart, hne not_isBlank_of_isDelimiter⟩)

variable {c : Char} {cs rest tail : List Char}

theorem lexeme_of_space (h : isSpace c = true) (cs : List Char) :
    lexeme c cs = (⟨.spaces, c :: cs.takeWhile isSpace⟩, cs.dropWhile isSpace) := by
  rw [lexeme, if_pos h]

theorem lexeme_of_nameStart (h : isNameStart c = true) (cs : List Char) :
    lexeme c cs = (⟨.unresolved, c :: cs.takeWhile isNameChar⟩, cs.dropWhile isNameChar) := by
  have hspace : ¬ isSpace c = true := by
    intro hspace
    rw [not_isNameStart_of_isSpace hspace] at h
    cases h
  rw [lexeme, if_neg hspace, if_pos h]

theorem lexeme_of_number (hspace : isSpace c = false) (hname : isNameStart c = false)
    (h : startsNumber c cs = true) :
    lexeme c cs = (number (c :: numberTail c cs), cs.drop (numberTail c cs).length) := by
  rw [lexeme, if_neg (by simp [hspace]), if_neg (by simp [hname]), if_pos h]

theorem startsNumber_cases (h : startsNumber c cs = true) : isNumberStart c = true ∨ c = '-' := by
  unfold startsNumber at h
  rcases Bool.or_eq_true_iff.mp h with h | h
  · exact Or.inl h
  · exact Or.inr (beq_iff_eq.mp (Bool.and_eq_true_iff.mp h).1)

/-- A number that starts with no digit or point has a sign, and one of these after it. -/
theorem exists_of_startsNumber (h : startsNumber c cs = true) (hc : ¬ isNumberStart c = true) :
    c = '-' ∧ ∃ d ds, cs = d :: ds ∧ isNumberStart d = true := by
  rw [startsNumber, Bool.eq_false_iff.mpr hc, Bool.false_or, Bool.and_eq_true, beq_iff_eq] at h
  cases cs with
  | nil => cases h.2
  | cons d ds => exact ⟨h.1, d, ds, rfl, h.2⟩

/-- The sign of a number goes before its first digit or point. -/
theorem numberTail_minus {d : Char} (hd : isNumberStart d = true) (ds : List Char) :
    numberTail '-' (d :: ds) = d :: numberTail d ds := by
  rw [numberTail, if_pos (by rw [isNumberChar_of_isNumberStart hd]; simp)]

theorem lexeme_of_startsNumber (h : startsNumber c cs = true) :
    lexeme c cs = (number (c :: numberTail c cs), cs.drop (numberTail c cs).length) := by
  refine lexeme_of_number ?_ ?_ h
  · rcases startsNumber_cases h with hstart | rfl
    · exact not_isSpace_of_isNumberStart hstart
    · rfl
  · rcases startsNumber_cases h with hstart | rfl
    · exact not_isNameStart_of_isNumberStart hstart
    · rfl

theorem lexeme_of_delimiter (hspace : isSpace c = false) (hname : isNameStart c = false)
    (hnumber : startsNumber c cs = false) (h : isDelimiter c = true) :
    lexeme c cs = delimiter c cs := by
  rw [lexeme, if_neg (by simp [hspace]), if_neg (by simp [hname]), if_neg (by simp [hnumber]),
    if_pos h]

theorem lexeme_of_other (h : isOther c = true) (cs : List Char) : lexeme c cs = other c cs := by
  have hnumber := not_startsNumber_of_isOther h cs
  obtain ⟨hspace, hname, -, hdelimiter⟩ := isOther_iff.mp h
  rw [lexeme, if_neg (by simp [hspace]), if_neg (by simp [hname]), if_neg (by simp [hnumber]),
    if_neg (by simp [hdelimiter])]

theorem kind_other (c : Char) (cs : List Char) : (other c cs).1.kind = .unresolved := by
  unfold other
  split
  · rfl
  · split
    · rfl
    · rfl

/-- Every first character belongs to one of the classes. -/
theorem firstCharacter_cases (c : Char) (cs : List Char) :
    isSpace c = true ∨ isNameStart c = true ∨
      (isSpace c = false ∧ isNameStart c = false ∧ startsNumber c cs = true) ∨
      (isSpace c = false ∧ isNameStart c = false ∧ startsNumber c cs = false ∧
        isDelimiter c = true) ∨
      isOther c = true := by
  rw [isOther_iff]
  have hnumber : isNumberStart c = true → startsNumber c cs = true := by
    intro h
    simp [startsNumber, h]
  cases isSpace c <;> cases isNameStart c <;> cases hs : startsNumber c cs <;>
    cases isDelimiter c <;> simp_all

theorem lexemes_cons (c : Char) (cs : List Char) :
    lexemes (c :: cs) = (lexeme c cs).1 :: lexemes (lexeme c cs).2 := by
  rw [lexemes]

/-! ## A text that goes on -/

theorem startsNumber_append (hne : cs ≠ []) (c : Char) (tail : List Char) :
    startsNumber c (cs ++ tail) = startsNumber c cs := by
  cases cs with
  | nil => exact absurd rfl hne
  | cons d cs => rfl

theorem startsNumber_append_of_startsNumber (h : startsNumber c cs = true) (tail : List Char) :
    startsNumber c (cs ++ tail) = true := by
  cases cs with
  | cons d cs => exact h
  | nil =>
    have hstart : isNumberStart c = true := by simpa [startsNumber] using h
    simp [startsNumber, hstart]

theorem numberTail_append_of_ne_nil {last : Char} (h : cs.drop (numberTail last cs).length ≠ [])
    (tail : List Char) : numberTail last (cs ++ tail) = numberTail last cs := by
  induction cs generalizing last with
  | nil => exact absurd List.drop_nil h
  | cons d cs ih =>
    rw [List.cons_append, numberTail, numberTail]
    rw [numberTail] at h
    split
    · next hd =>
      rw [if_pos hd, List.length_cons, List.drop_succ_cons] at h
      rw [ih h]
    · rfl

theorem isNumberChar_of_mem_numberTail {last d : Char} (h : d ∈ numberTail last cs) :
    isNumberChar d = true := by
  induction cs generalizing last with
  | nil => cases h
  | cons c cs ih =>
    rw [numberTail] at h
    split at h
    · next hc =>
      rcases List.mem_cons.mp h with rfl | h
      · exact (Bool.and_eq_true_iff.mp hc).1
      · exact ih h
    · cases h

/-- A number ends where its characters do. -/
theorem numberTail_append {last : Char} (h : numberTail last cs = cs)
    (hrest : Stops isNumberChar rest) :
    numberTail last (cs ++ rest) = cs := by
  induction cs generalizing last with
  | nil =>
    cases rest with
    | nil => rfl
    | cons d rest =>
      rw [List.nil_append, numberTail, stops_cons.mp hrest]
      rfl
  | cons c cs ih =>
    rw [numberTail] at h
    rw [List.cons_append, numberTail]
    split at h
    · next hc => rw [if_pos hc, ih (List.cons.inj h).2]
    · cases h

/-- A number that goes on to the end of its text takes what it can of a text added there. -/
theorem suffix_drop_numberTail {last : Char} (h : cs.drop (numberTail last cs).length = [])
    (tail : List Char) : (cs ++ tail).drop (numberTail last (cs ++ tail)).length <:+ tail := by
  induction cs generalizing last with
  | nil => exact List.drop_suffix _ _
  | cons d cs ih =>
    rw [numberTail] at h
    rw [List.cons_append, numberTail]
    split
    · next hd =>
      rw [if_pos hd, List.length_cons, List.drop_succ_cons] at h
      rw [List.length_cons, List.drop_succ_cons]
      exact ih h
    · next hd =>
      rw [if_neg hd] at h
      cases h

theorem delimiter_append_of_ne_nil (h : (delimiter c cs).2 ≠ []) (tail : List Char) :
    delimiter c (cs ++ tail) = ((delimiter c cs).1, (delimiter c cs).2 ++ tail) := by
  cases cs with
  | nil => exact absurd rfl h
  | cons next rest =>
    rw [List.cons_append, delimiter, delimiter]
    split
    · rfl
    · rfl

theorem other_append_of_ne_nil (h : (other c cs).2 ≠ []) (tail : List Char) :
    other c (cs ++ tail) = ((other c cs).1, (other c cs).2 ++ tail) := by
  cases hdrop : cs.dropWhile isOther with
  | nil =>
    simp only [other, hdrop] at h
    exact absurd rfl h
  | cons d rest =>
    have hne : cs.dropWhile isOther ≠ [] := by simp [hdrop]
    simp only [other, hdrop] at h
    simp only [other, takeWhile_append_of_ne_nil hne, dropWhile_append_of_ne_nil hne, hdrop,
      List.cons_append]
    split
    · next hd =>
      rw [if_pos hd] at h
      simp only [takeWhile_append_of_ne_nil h, dropWhile_append_of_ne_nil h]
    · rfl

/-- **A lexeme before the end of a text stays as it is when the text goes on.** -/
theorem lexeme_append_of_ne_nil (h : (lexeme c cs).2 ≠ []) (tail : List Char) :
    lexeme c (cs ++ tail) = ((lexeme c cs).1, (lexeme c cs).2 ++ tail) := by
  have hne : cs ≠ [] := by
    rintro rfl
    exact h (List.eq_nil_of_length_eq_zero (Nat.lt_one_iff.mp (length_lexeme_lt c [])))
  rcases firstCharacter_cases c cs with
    hc | hc | ⟨hspace, hname, hc⟩ | ⟨hspace, hname, hnumber, hc⟩ | hc
  · rw [lexeme_of_space hc] at h ⊢
    rw [lexeme_of_space hc, takeWhile_append_of_ne_nil h, dropWhile_append_of_ne_nil h]
  · rw [lexeme_of_nameStart hc] at h ⊢
    rw [lexeme_of_nameStart hc, takeWhile_append_of_ne_nil h, dropWhile_append_of_ne_nil h]
  · rw [lexeme_of_number hspace hname hc] at h ⊢
    rw [lexeme_of_number hspace hname (startsNumber_append hne c tail ▸ hc),
      numberTail_append_of_ne_nil h]
    have hlen : (numberTail c cs).length ≤ cs.length := by
      have hsplit := congrArg List.length (numberTail_append_drop c cs)
      rw [List.length_append] at hsplit
      omega
    rw [List.drop_append_of_le_length hlen]
  · rw [lexeme_of_delimiter hspace hname hnumber hc] at h ⊢
    rw [lexeme_of_delimiter hspace hname (startsNumber_append hne c tail ▸ hnumber) hc,
      delimiter_append_of_ne_nil h]
  · rw [lexeme_of_other hc] at h ⊢
    rw [lexeme_of_other hc, other_append_of_ne_nil h]

theorem suffix_lexeme (c : Char) (cs : List Char) : (lexeme c cs).2 <:+ cs := by
  have happend := lexeme_append c cs
  cases htext : (lexeme c cs).1.text with
  | nil => exact absurd htext (lexeme_text_ne_nil c cs)
  | cons d text =>
    rw [htext, List.cons_append] at happend
    exact ⟨text, (List.cons.inj happend).2⟩

theorem suffix_delimiter_append (hne : cs ≠ []) (h : (delimiter c cs).2 = []) (tail : List Char) :
    (delimiter c (cs ++ tail)).2 <:+ tail := by
  cases cs with
  | nil => exact absurd rfl hne
  | cons next rest =>
    rw [delimiter] at h
    rw [List.cons_append, delimiter]
    split
    · next hpair =>
      rw [if_pos hpair] at h
      rw [show rest = [] from h]
      exact List.suffix_rfl
    · next hpair =>
      rw [if_neg hpair] at h
      cases h

theorem suffix_other (c : Char) (cs : List Char) : (other c cs).2 <:+ cs.dropWhile isOther := by
  unfold other
  split
  · exact List.nil_suffix
  · next d rest hdrop =>
    rw [hdrop]
    split
    · exact (List.dropWhile_suffix _).trans (List.suffix_cons d rest)
    · exact List.suffix_rfl

theorem suffix_other_append (h : (other c cs).2 = []) (tail : List Char) :
    (other c (cs ++ tail)).2 <:+ tail := by
  cases hdrop : cs.dropWhile isOther with
  | nil =>
    have hsuffix := suffix_other c (cs ++ tail)
    rw [dropWhile_append_of_eq_nil hdrop] at hsuffix
    exact hsuffix.trans (List.dropWhile_suffix _)
  | cons d rest =>
    have hne : cs.dropWhile isOther ≠ [] := by simp [hdrop]
    simp only [other, hdrop] at h
    simp only [other, dropWhile_append_of_ne_nil hne, hdrop, List.cons_append]
    split
    · next hd =>
      rw [if_pos hd] at h
      simp only [dropWhile_append_of_eq_nil h]
      exact List.dropWhile_suffix _
    · next hd =>
      rw [if_neg hd] at h
      cases h

/-- **The last lexeme of a text stays or grows when the text goes on.** -/
theorem suffix_lexeme_append (h : (lexeme c cs).2 = []) (tail : List Char) :
    (lexeme c (cs ++ tail)).2 <:+ tail := by
  by_cases hne : cs = []
  · rw [hne, List.nil_append]
    exact suffix_lexeme c tail
  rcases firstCharacter_cases c cs with
    hc | hc | ⟨hspace, hname, hc⟩ | ⟨hspace, hname, hnumber, hc⟩ | hc
  · rw [lexeme_of_space hc] at h ⊢
    rw [dropWhile_append_of_eq_nil h]
    exact List.dropWhile_suffix _
  · rw [lexeme_of_nameStart hc] at h ⊢
    rw [dropWhile_append_of_eq_nil h]
    exact List.dropWhile_suffix _
  · rw [lexeme_of_number hspace hname hc] at h
    rw [lexeme_of_number hspace hname (startsNumber_append hne c tail ▸ hc)]
    exact suffix_drop_numberTail h tail
  · rw [lexeme_of_delimiter hspace hname hnumber hc] at h
    rw [lexeme_of_delimiter hspace hname (startsNumber_append hne c tail ▸ hnumber) hc]
    exact suffix_delimiter_append hne h tail
  · rw [lexeme_of_other hc] at h ⊢
    exact suffix_other_append h tail

end LayoutLex.Scan
