import LayoutLex.Proofs.Number.Row
import LayoutLex.Value.Canonical

/-!
# Numeric values survive printing and lexing

The canonical text of a container of numbers, nested to any depth, is a row of its leaves
(`row_text`): a number is a numeral, and containers put spaces between their elements. Empty
containers inside have no text, so spaces may stand next to each other and at the ends.

Results:
* `row_text`: the text of a value whose leaves are numbers is a row of them.
* `tokenize_canonical`: lexing the text gives the leaves, one number token for each.
-/

namespace LayoutLex

namespace Value

/-! ## The leaves of a value -/

mutual

/-- What is no container, from left to right. -/
def leaves : Value → List Value
  | vector ⟨vs, _⟩ => leavesOf vs
  | matrix _ _ ⟨vs, _⟩ => leavesOf vs
  | list vs => leavesOf vs
  | v => [v]

/-- The leaves of the elements. -/
def leavesOf : List Value → List Value
  | [] => []
  | v :: vs => leaves v ++ leavesOf vs

end

/-- The value is an integer or a finite real. -/
def isNumber : Value → Bool
  | integer _ => true
  | real x => x.isFinite
  | _ => false

/-! ## The text of a numeric value -/

/-- A vector that does not start with a character is written like any other container. -/
theorem text_vector {vs : List Value} (h : ∀ leaf ∈ leavesOf vs, leaf.isNumber = true)
    (mode? : Option Mode) : text (vector ⟨vs, mode?⟩) = spaced vs := by
  cases vs with
  | nil => rfl
  | cons v vs =>
    have hcodes : codes? (v :: vs) = none := by
      cases v with
      | character code =>
        have hleaf : (character code).isNumber = true := h _ (by simp [leavesOf, leaves])
        cases hleaf
      | _ => rfl
    rw [text, hcodes]

/-- A number is one numeral. -/
theorem row_number {v : Value} (h : v.isNumber = true) : Row v.text [v] := by
  cases v with
  | integer n =>
    have hvalue := literal_intText n
    rw [← text_ofInt] at hvalue
    rw [text, ← text_ofInt]
    exact Row.single (plain_ofInt _) hvalue
  | real x =>
    have hvalue := literal_text h
    rw [text_eq_numeral h] at hvalue
    rw [text, text_eq_numeral h]
    exact Row.single (x.shortest.plain_numeral x.negative) hvalue
  | _ => cases h

mutual

/-- **The text of a value whose leaves are numbers is a row of them.** -/
theorem row_text (v : Value) (h : ∀ leaf ∈ v.leaves, leaf.isNumber = true) :
    Row v.text v.leaves := by
  cases v with
  | vector contents =>
    obtain ⟨vs, mode?⟩ := contents
    rw [leaves] at h ⊢
    rw [text_vector h]
    exact row_spaced vs h
  | matrix rows columns contents =>
    obtain ⟨vs, mode?⟩ := contents
    exact row_spaced vs h
  | list vs => exact row_spaced vs h
  | _ => exact row_number (h _ List.mem_cons_self)

theorem row_spaced (vs : List Value) (h : ∀ leaf ∈ leavesOf vs, leaf.isNumber = true) :
    Row (spaced vs) (leavesOf vs) := by
  match vs with
  | [] => exact Row.nil
  | [v] =>
    rw [leavesOf, leavesOf, List.append_nil] at h ⊢
    exact row_text v h
  | v :: w :: vs =>
    rw [leavesOf] at h ⊢
    rw [spaced]
    exact (row_text v fun leaf hleaf => h leaf (List.mem_append_left _ hleaf)).append
      (row_spaced (w :: vs) fun leaf hleaf => h leaf (List.mem_append_right _ hleaf))

end

end Value

namespace Lexer

/-- **Numeric values survive printing and lexing.** The text of a value whose leaves are numbers
gives one number token for each leaf and no other token, and the tokens denote the leaves in order,
reals to the last bit. -/
theorem tokenize_canonical (catalogue : Catalogue) {v : Value}
    (h : ∀ leaf ∈ v.leaves, leaf.isNumber = true) (file? : Option String) :
    ∃ tokens, (⟨catalogue, .drop⟩ : Lexer).tokenize v.canonical file? = .ok tokens ∧
      (∀ t ∈ tokens, t.kind = .number) ∧ tokens.map Token.literal? = v.leaves.map some := by
  rw [tokenize, Value.canonical, String.toList_ofList]
  exact (v.row_text h).lex catalogue (file?.getD defaultFile)

theorem tokenize_canonical_nested :
    let half := Value.real (.ofBits 0xBFE0000000000000)
    let small := Value.real (.ofBits 0x3E7AD7F29ABCAF48)
    let least := Value.integer Int64.minValue
    let zero := Value.real (.zero true)
    let v := Value.list [.vector ⟨[half, small], some .real⟩, .vector ⟨[], none⟩,
      .matrix 1 2 ⟨[least, .integer 7], some .integer2⟩, .list [.vector ⟨[], none⟩], zero]
    v.canonical = "-.5 1.e-7  -9223372036854775808 7  -0." ∧
      (∀ leaf ∈ v.leaves, leaf.isNumber = true) ∧
      ∃ tokens, tokenize ⟨.empty, .drop⟩ v.canonical none = .ok tokens ∧
        (∀ t ∈ tokens, t.kind = .number) ∧
        tokens.map Token.literal? =
          [some half, some small, some least, some (.integer 7), some zero] := by
  intro half small least zero v
  have h : ∀ leaf ∈ v.leaves, leaf.isNumber = true := by decide
  exact ⟨by decide +kernel, h, tokenize_canonical .empty h none⟩

end Lexer

end LayoutLex
