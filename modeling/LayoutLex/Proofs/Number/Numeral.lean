import LayoutLex.Literal
import LayoutLex.Proofs.Number.Shortest
import LayoutLex.Proofs.Runs
import LayoutLex.Text.Word

/-!
# Numerals read back

A numeral is written as its sign, its digits, a point with the digits after it and an exponent. If
there are digits where digits must be, of any scripts (`Spelled`), the text is taken apart into the
same numeral, because each part ends where the next one starts; and every text that is taken apart
is put together again from its parts.

* `Numeral.text` is the text with `e` for the mark of the exponent, `Numeral.written` that with any
  mark.
* `Plain` numerals have ASCII digits only, and some before their exponent.

Results:
* `Plain.exists_numberStart`: what follows the sign starts with a digit or a point.
* `read?_eq_some_iff`: a text is read as the numeral that it is written for.
* `read?_text`: the text of a plain numeral reads back as the numeral.
* `read?_of_read?`: as a literal, a numeral has the form its parts give it.
-/

namespace LayoutLex

open Text

namespace Numeral

/-! ## The text of a numeral -/

/-- The minus sign of what is negative. -/
def signText (negative : Bool) : List Char :=
  if negative then ['-'] else []

/-- The point and the digits after it. -/
def placesText : Option (List Char) → List Char
  | none => []
  | some ds => '.' :: ds

/-- The mark, sign and digits of an exponent. -/
def exponentText : Option (Bool × List Char) → List Char
  | none => []
  | some (negative, ds) => 'e' :: (signText negative ++ ds)

/-- A numeral as a text. -/
def text (n : Numeral) : List Char :=
  signText n.negative ++ (n.whole ++ placesText n.places? ++ exponentText n.exponent?)

/-- All digits are ASCII, and there are some of them, also in the exponent. -/
structure Plain (n : Numeral) : Prop where
  mantissa_ne_nil : n.mantissa ≠ []
  isDigit_mantissa : ∀ c ∈ n.mantissa, c.isDigit = true
  exponent_ne_nil : ∀ e ∈ n.exponent?, e.2 ≠ []
  isDigit_exponent : ∀ e ∈ n.exponent?, ∀ c ∈ e.2, c.isDigit = true

variable {n : Numeral}

theorem Plain.isDigit_whole (h : n.Plain) : ∀ c ∈ n.whole, c.isDigit = true :=
  fun c hc => h.isDigit_mantissa c (List.mem_append_left _ hc)

theorem Plain.isDigit_places (h : n.Plain) : ∀ ds ∈ n.places?, ∀ c ∈ ds, c.isDigit = true := by
  intro ds hds c hc
  refine h.isDigit_mantissa c (List.mem_append_right _ ?_)
  rw [Option.mem_def.mp hds]
  exact hc

theorem Plain.wellFormed (h : n.Plain) : n.WellFormed := by
  refine ⟨?_, h.exponent_ne_nil⟩
  rw [or_iff_not_imp_right]
  intro hplaces hwhole
  rw [Option.not_isSome_iff_eq_none] at hplaces
  exact h.mantissa_ne_nil (by rw [mantissa, hwhole, hplaces]; rfl)

/-- A numeral without its sign starts with a digit or a point. -/
theorem Plain.exists_numberStart (h : n.Plain) :
    ∃ c cs, n.whole ++ placesText n.places? ++ exponentText n.exponent? = c :: cs ∧
      isNumberStart c = true := by
  cases hwhole : n.whole with
  | cons c cs =>
    refine ⟨c, _, rfl, ?_⟩
    have hdigit := h.isDigit_whole c (hwhole ▸ List.mem_cons_self)
    rw [isNumberStart, hdigit, Bool.true_or]
  | nil =>
    have hsome := h.wellFormed.1.resolve_left (not_not_intro hwhole)
    obtain ⟨ds, hds⟩ := Option.isSome_iff_exists.mp hsome
    rw [hds]
    exact ⟨'.', _, rfl, rfl⟩

/-! ## Numerals in digits of any script -/

/-- An exponent with the given mark. -/
def exponentWith (mark : Char) : Option (Bool × List Char) → List Char
  | none => []
  | some (negative, ds) => mark :: (signText negative ++ ds)

/-- A numeral as a text, with the given mark before its exponent. -/
def written (mark : Char) (n : Numeral) : List Char :=
  signText n.negative ++ (n.whole ++ placesText n.places? ++ exponentWith mark n.exponent?)

theorem written_e (n : Numeral) : n.written 'e' = n.text := by
  rw [written, text]
  cases n.exponent? with
  | none => rfl
  | some e => rfl

/-- There are digits where digits must be, and all of them are in the class. -/
structure Spelled (digit : Char → Bool) (n : Numeral) : Prop where
  wellFormed : n.WellFormed
  mantissa : ∀ c ∈ n.mantissa, digit c = true
  exponent : ∀ e ∈ n.exponent?, ∀ c ∈ e.2, digit c = true

theorem Plain.spelled (h : n.Plain) : n.Spelled Char.isDigit :=
  ⟨h.wellFormed, h.isDigit_mantissa, h.isDigit_exponent⟩

theorem Spelled.ofAscii (h : n.Spelled Char.isDigit) : n.Spelled isDecimalDigit :=
  ⟨h.wellFormed, fun c hc => isDecimalDigit_of_isDigit (h.mantissa c hc),
    fun e he c hc => isDecimalDigit_of_isDigit (h.exponent e he c hc)⟩

variable {digit : Char → Bool}

theorem Spelled.whole (h : n.Spelled digit) : ∀ c ∈ n.whole, digit c = true :=
  fun c hc => h.mantissa c (List.mem_append_left _ hc)

theorem Spelled.places (h : n.Spelled digit) : ∀ ds ∈ n.places?, ∀ c ∈ ds, digit c = true := by
  intro ds hds c hc
  refine h.mantissa c (List.mem_append_right _ ?_)
  rw [Option.mem_def.mp hds]
  exact hc

/-! ## Reading a numeral -/

variable {mark : Char}

theorem isExponentMark_iff {c : Char} : isExponentMark c = true ↔ c = 'e' ∨ c = 'E' := by
  simp [isExponentMark]

theorem head?_ne_minus {cs : List Char} (h : ∀ c ∈ cs, isDecimalDigit c = true) :
    cs.head? ≠ some '-' := by
  intro hhead
  have := h '-' (List.mem_of_head? hhead)
  revert this
  decide

theorem sign_signText (negative : Bool) {cs : List Char} (h : cs.head? ≠ some '-') :
    sign (signText negative ++ cs) = (negative, cs) := by
  cases negative with
  | true => rfl
  | false =>
    rw [signText, if_neg Bool.false_ne_true, List.nil_append]
    unfold sign
    split
    · exact absurd rfl h
    · rfl

theorem signText_sign (cs : List Char) : signText (sign cs).1 ++ (sign cs).2 = cs := by
  unfold sign
  split
  · rfl
  · rfl

theorem stops_exponentWith (hmark : isExponentMark mark = true) (e? : Option (Bool × List Char)) :
    Stops isDecimalDigit (exponentWith mark e?) := by
  cases e? with
  | none => exact stops_nil
  | some e =>
    rcases isExponentMark_iff.mp hmark with rfl | rfl
    · exact stops_cons.mpr (by decide)
    · exact stops_cons.mpr (by decide)

theorem readPlaces_written (hmark : isExponentMark mark = true) {places? : Option (List Char)}
    (e? : Option (Bool × List Char)) (h : ∀ ds ∈ places?, ∀ c ∈ ds, isDecimalDigit c = true) :
    readPlaces (placesText places? ++ exponentWith mark e?) = (places?, exponentWith mark e?) := by
  cases places? with
  | none =>
    cases e? with
    | none => rfl
    | some e =>
      rcases isExponentMark_iff.mp hmark with rfl | rfl
      · rfl
      · rfl
  | some ds =>
    have htake := takeWhile_append_of_stops (h ds rfl) (stops_exponentWith hmark e?)
    have hdrop := dropWhile_append_of_stops (h ds rfl) (stops_exponentWith hmark e?)
    rw [placesText, List.cons_append, readPlaces, htake, hdrop]

theorem placesText_readPlaces (cs : List Char) :
    placesText (readPlaces cs).1 ++ (readPlaces cs).2 = cs ∧
      ∀ ds ∈ (readPlaces cs).1, ∀ c ∈ ds, isDecimalDigit c = true := by
  unfold readPlaces
  split
  · refine ⟨?_, fun ds hds c hc => ?_⟩
    · rw [placesText, List.cons_append, List.takeWhile_append_dropWhile]
    · cases hds
      exact mem_takeWhile hc
  · exact ⟨rfl, fun ds hds => by cases hds⟩

theorem readExponent?_exponentWith (hmark : isExponentMark mark = true)
    {e? : Option (Bool × List Char)} (hne : ∀ e ∈ e?, e.2 ≠ [])
    (h : ∀ e ∈ e?, ∀ c ∈ e.2, isDecimalDigit c = true) :
    readExponent? (exponentWith mark e?) = some e? := by
  cases e? with
  | none => rfl
  | some e =>
    obtain ⟨negative, ds⟩ := e
    have hdigits : ∀ c ∈ ds, isDecimalDigit c = true := h _ rfl
    have hempty : ds.isEmpty = false := List.isEmpty_eq_false_iff.mpr (hne _ rfl)
    have hall : ds.all isDecimalDigit = true := List.all_eq_true.mpr hdigits
    simp only [exponentWith, readExponent?, sign_signText negative (head?_ne_minus hdigits), hmark,
      hempty, hall]
    rfl

theorem exists_of_readExponent? {cs : List Char} {e? : Option (Bool × List Char)}
    (h : readExponent? cs = some e?) : ∃ mark, isExponentMark mark = true ∧
      cs = exponentWith mark e? ∧ ∀ e ∈ e?, ∀ c ∈ e.2, isDecimalDigit c = true := by
  cases cs with
  | nil =>
    cases h
    exact ⟨'e', rfl, rfl, fun e he => by cases he⟩
  | cons c rest =>
    simp only [readExponent?] at h
    split at h
    · next hc =>
      cases h
      simp only [Bool.and_eq_true, List.all_eq_true] at hc
      refine ⟨c, hc.1.1, ?_, fun e he => ?_⟩
      · rw [exponentWith, signText_sign]
      · cases he
        exact hc.2
    · cases h

/-- What follows the sign is no second sign. -/
theorem Spelled.head?_ne_minus (h : n.Spelled isDecimalDigit) (mark : Char) :
    (n.whole ++ (placesText n.places? ++ exponentWith mark n.exponent?)).head? ≠ some '-' := by
  rcases h.wellFormed.1 with hne | hsome
  · rw [List.head?_append_of_ne_nil _ hne]
    exact Numeral.head?_ne_minus h.whole
  · obtain ⟨ds, hds⟩ := Option.isSome_iff_exists.mp hsome
    cases hwhole : n.whole with
    | nil =>
      rw [hds, List.nil_append, placesText, List.cons_append, List.head?_cons]
      decide
    | cons c cs =>
      have hminus := Numeral.head?_ne_minus h.whole
      rwa [hwhole] at hminus

theorem read?_written (h : n.Spelled isDecimalDigit) (hmark : isExponentMark mark = true) :
    read? (n.written mark) = some n := by
  have hstops : Stops isDecimalDigit (placesText n.places? ++ exponentWith mark n.exponent?) := by
    cases n.places? with
    | none => exact stops_exponentWith hmark _
    | some ds => exact stops_cons.mpr (by decide)
  have htake := takeWhile_append_of_stops h.whole hstops
  have hdrop := dropWhile_append_of_stops h.whole hstops
  have hplaces := readPlaces_written hmark n.exponent? h.places
  have hexponent := readExponent?_exponentWith hmark h.wellFormed.2 h.exponent
  have hempty : (n.whole.isEmpty && n.places?.isNone) = false := by
    rcases h.wellFormed.1 with hne | hsome
    · rw [List.isEmpty_eq_false_iff.mpr hne, Bool.false_and]
    · rw [Option.isNone_eq_false_iff.mpr hsome, Bool.and_false]
  have hsign := sign_signText n.negative (h.head?_ne_minus mark)
  unfold written read?
  rw [List.append_assoc]
  simp only [hsign, htake, hdrop, hplaces, hexponent, hempty]
  rfl

/-- **A text is read as the numeral that it is written for**, and no other text is read. -/
theorem read?_eq_some_iff {cs : List Char} :
    read? cs = some n ↔
      n.Spelled isDecimalDigit ∧ ∃ mark, isExponentMark mark = true ∧ cs = n.written mark := by
  constructor
  · intro h
    have hwellFormed := wellFormed_of_read? h
    have hsign := signText_sign cs
    have hwhole := (sign cs).2.takeWhile_append_dropWhile (p := isDecimalDigit)
    obtain ⟨hplaces, hdigits⟩ := placesText_readPlaces ((sign cs).2.dropWhile isDecimalDigit)
    simp only [read?] at h
    split at h
    · cases h
    obtain ⟨e?, he, rfl⟩ := Option.map_eq_some_iff.mp h
    obtain ⟨mark, hmark, htail, hexponent⟩ := exists_of_readExponent? he
    refine ⟨⟨hwellFormed, fun c hc => ?_, hexponent⟩, mark, hmark, ?_⟩
    · rcases List.mem_append.mp hc with hc | hc
      · exact mem_takeWhile hc
      · cases hsome : (readPlaces ((sign cs).2.dropWhile isDecimalDigit)).1 with
        | none =>
          simp only [hsome] at hc
          cases hc
        | some ds =>
          simp only [hsome] at hc
          exact hdigits ds hsome c hc
    · rw [written, ← htail, List.append_assoc, hplaces, hwhole, hsign]
  · rintro ⟨h, mark, hmark, rfl⟩
    exact read?_written h hmark

/-- **The text of a numeral reads back as the numeral.** -/
theorem read?_text (h : n.Plain) : read? n.text = some n := by
  rw [← written_e]
  exact read?_written h.spelled.ofAscii rfl

end Numeral

/-! ## Numerals as literals -/

namespace Literal

/-- The form of a numeral is never that of a logical value. -/
theorem ofNumeral_ne_logical (n : Numeral) : Form.ofNumeral n ≠ .logical := by
  unfold Form.ofNumeral
  split
  · decide
  · split <;> decide

/-- A numeral is read as the value of its form. -/
theorem read?_of_read? {word : List Char} {n : Numeral} (h : Numeral.read? word = some n) :
    Literal.read? word = (Form.ofNumeral n).value? word := by
  have hform := ofNumeral_ne_logical n
  have hfind : Form.all.find? (·.accepts word) = some (Form.ofNumeral n) := by
    cases hn : Form.ofNumeral n with
    | logical => exact absurd hn hform
    | float => simp [Form.all, Form.accepts, h, hn]
    | real => simp [Form.all, Form.accepts, h, hn]
    | integer => simp [Form.all, Form.accepts, h, hn]
  rw [Literal.read?, hfind]
  rfl

end Literal

end LayoutLex
