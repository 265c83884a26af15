import Gatehouse.Text.Numeral
import Mathlib.Data.List.Induction

/-!
# Decimal numerals are read back

A number is written in digits that spell it, without a zero in front, and so it is read back wherever
there is room for it. In turn, a numeral without a zero in front is the one that its number is written
with.
-/

namespace Gatehouse

namespace Decimal

theorem isDigit_of_mem_toDigits (n : Nat) : ∀ c ∈ Nat.toDigits 10 n, c.isDigit = true :=
  fun _ hc => Nat.isDigit_of_mem_toDigits (by decide) (by decide) hc

/-- What a number is written with starts with a digit. -/
theorem exists_toDigits_eq_cons (n : Nat) :
    ∃ c cs, Nat.toDigits 10 n = c :: cs ∧ c.isDigit = true := by
  obtain ⟨c, cs, hcons⟩ := List.exists_cons_of_ne_nil (Nat.toDigits_ne_nil (n := n) (b := 10))
  exact ⟨c, cs, hcons, isDigit_of_mem_toDigits n c (hcons ▸ List.mem_cons_self)⟩

theorem ne_of_isDigit {c d : Char} (hc : c.isDigit = true) (hd : d.isDigit = false) : c ≠ d := by
  rintro rfl
  cases hc.symm.trans hd

theorem isNumeral_toDigits (n : Nat) : isNumeral (Nat.toDigits 10 n) = true := by
  have hne : (Nat.toDigits 10 n).isEmpty = false := List.isEmpty_eq_false_iff.2 Nat.toDigits_ne_nil
  rw [isNumeral, hne, Bool.not_false, Bool.true_and, List.all_eq_true]
  exact isDigit_of_mem_toDigits n

theorem value_toDigits (n : Nat) : value (Nat.toDigits 10 n) = n := by
  have h := Nat.ofDigitChars_ten_toDigits (n := n)
  simpa only [value, Nat.ofDigitChars_eq_foldl, Nat.mul_comm] using h

/-- A numeral starts with a zero only if it is zero. -/
theorem head?_toDigits {n : Nat} (h : 0 < n) : (Nat.toDigits 10 n).head? ≠ some '0' := by
  induction n using Nat.strongRecOn with
  | ind n ih =>
      rw [Nat.toDigits_eq_if (by decide)]
      split
      case isTrue hlt =>
        have hall : ∀ m < 10, 0 < m → [Nat.digitChar m].head? ≠ some '0' := by decide
        exact hall n hlt h
      case isFalse hge =>
        have hrest := ih (n / 10) (by omega) (by omega)
        obtain ⟨d, ds, hd⟩ :=
          List.exists_cons_of_ne_nil (Nat.toDigits_ne_nil (n := n / 10) (b := 10))
        rw [hd] at hrest ⊢
        exact hrest

/-- A number that is written is read back if there is room for it. -/
theorem below?_text {n bound : Nat} (h : n < bound) : below? bound (text n) = some n := by
  rw [below?, text, String.toList_ofList, isNumeral_toDigits, value_toDigits]
  exact if_pos (decide_eq_true h)

theorem not_mem_text {c : Char} (hc : c.isDigit = false) (n : Nat) : c ∉ (text n).toList := by
  rw [text, String.toList_ofList]
  exact fun hmem => ne_of_isDigit (isDigit_of_mem_toDigits n c hmem) hc rfl

end Decimal

end Gatehouse
