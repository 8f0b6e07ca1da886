import LayoutLex.Number.Decimal
import Mathlib.Data.Nat.Log
import Mathlib.Tactic.Ring

/-!
# Digits and what they denote

Writing a whole number and reading its digits gives the number back. Digits are read from the
front, so a text of two parts denotes the first part moved up by the length of the second.

Results:
* `digitsValue_digits`: digits denote the number they were taken from.
* `digitsValue_append`, `digitsValue_zeros`: digits behind and in front of others.
* `pow_digitCount_le`, `lt_pow_digitCount`: the number of digits bounds the number.
-/

namespace LayoutLex

/-! ## One digit -/

/-- The character of a digit is a digit and stands for it. -/
theorem digitCharacter {n : Nat} (h : n < 10) :
    (Char.ofNat (0x30 + n)).isDigit = true ∧ (Char.ofNat (0x30 + n)).toNat - 0x30 = n := by
  have hall : ∀ n < 10, (Char.ofNat (0x30 + n)).isDigit = true ∧
      (Char.ofNat (0x30 + n)).toNat - 0x30 = n := by decide
  exact hall n h

/-! ## Many digits -/

theorem digitsValue_foldl (n : Nat) (ds : List Char) :
    ds.foldl (fun n c => 10 * n + (c.toNat - 0x30)) n = n * 10 ^ ds.length + digitsValue ds := by
  unfold digitsValue
  induction ds generalizing n with
  | nil => rw [List.foldl_nil, List.foldl_nil, List.length_nil, Nat.pow_zero, Nat.mul_one,
      Nat.add_zero]
  | cons d ds ih =>
    rw [List.foldl_cons, List.foldl_cons, ih, ih (10 * 0 + (d.toNat - 0x30)), List.length_cons]
    ring

/-- **Digits in front of others count for as much more as there are others.** -/
theorem digitsValue_append (cs ds : List Char) :
    digitsValue (cs ++ ds) = digitsValue cs * 10 ^ ds.length + digitsValue ds := by
  rw [← digitsValue_foldl, digitsValue, List.foldl_append, digitsValue]

theorem digitsValue_zeros (n : Nat) : digitsValue (List.replicate n '0') = 0 := by
  induction n with
  | zero => rfl
  | succ n ih =>
    rw [List.replicate_succ', digitsValue_append, ih]
    rfl

/-- **Digits denote the number they were taken from.** -/
theorem digitsValue_digits (n : Nat) : digitsValue (digits n) = n := by
  fun_induction digits n with
  | case1 n h =>
    obtain ⟨-, hvalue⟩ := digitCharacter h
    rw [digitsValue, List.foldl_cons, List.foldl_nil, hvalue, Nat.mul_zero, Nat.zero_add]
  | case2 n h ih =>
    obtain ⟨-, hvalue⟩ := digitCharacter (Nat.mod_lt n (by decide : 0 < 10))
    rw [digitsValue_append, ih, digitsValue, List.foldl_cons, List.foldl_nil, hvalue]
    have hsplit := Nat.div_add_mod n 10
    rw [List.length_singleton]
    omega

theorem isDigit_of_mem_digits {n : Nat} {c : Char} (h : c ∈ digits n) : c.isDigit = true := by
  fun_induction digits n with
  | case1 n hlt =>
    obtain ⟨hdigit, -⟩ := digitCharacter hlt
    rw [List.mem_singleton] at h
    rw [h, hdigit]
  | case2 n hlt ih =>
    obtain ⟨hdigit, -⟩ := digitCharacter (Nat.mod_lt n (by decide : 0 < 10))
    rcases List.mem_append.mp h with h | h
    · exact ih h
    · rw [List.mem_singleton] at h
      rw [h, hdigit]

theorem isDigit_of_mem_zeros {n : Nat} {c : Char} (h : c ∈ List.replicate n '0') :
    c.isDigit = true := by
  rw [List.eq_of_mem_replicate h]
  rfl

/-! ## The number of digits -/

theorem digitCount_eq_log (n : Nat) : digitCount n = Nat.log 10 n + 1 := by
  fun_induction digitCount n with
  | case1 n h => rw [Nat.log_of_lt h]
  | case2 n h ih => rw [ih, Nat.log_of_one_lt_of_le (by decide) (Nat.le_of_not_lt h)]

theorem digitCount_pos (n : Nat) : 0 < digitCount n := by
  rw [digitCount_eq_log]
  exact Nat.succ_pos _

theorem digits_ne_nil (n : Nat) : digits n ≠ [] := by
  rw [← List.length_pos_iff, length_digits]
  exact digitCount_pos n

theorem pow_digitCount_le {n : Nat} (h : n ≠ 0) : 10 ^ (digitCount n - 1) ≤ n := by
  rw [digitCount_eq_log, Nat.add_sub_cancel]
  exact Nat.pow_log_le_self 10 h

theorem lt_pow_digitCount (n : Nat) : n < 10 ^ digitCount n := by
  rw [digitCount_eq_log]
  exact Nat.lt_pow_succ_log_self (by decide) n

end LayoutLex
