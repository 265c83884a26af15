import Gatehouse.Session.Id
import Gatehouse.Text.Numeral

/-!
# Hexadecimal text is read back

Bytes that are written in hexadecimal are the bytes that are read, and the letter case of the digits
makes no difference to what is read.
-/

namespace Gatehouse

namespace Hex

/-! ## Digits -/

theorem isDigit_digit {n : Nat} (h : n < 16) : isDigit (digit n) = true := by
  have hall : ∀ m < 16, isDigit (digit m) = true := by decide
  exact hall n h

theorem digitValue_digit {n : Nat} (h : n < 16) : digitValue (digit n) = n := by
  have hall : ∀ m < 16, digitValue (digit m) = m := by decide
  exact hall n h

/-- What holds of the digits among the ASCII characters holds of every digit. -/
theorem isDigit_cases {P : Char → Prop}
    (hascii : ∀ n < 128, isDigit (Char.ofNat n) = true → P (Char.ofNat n)) {c : Char}
    (hc : isDigit c = true) : P c := by
  have hlt : c.toNat < 128 := by
    simp only [isDigit, Bool.or_eq_true, Bool.and_eq_true, decide_eq_true_eq] at hc
    rcases hc with (⟨-, hle⟩ | ⟨-, hle⟩) | ⟨-, hle⟩
    · have h : c.toNat ≤ '9'.toNat := hle
      exact Nat.lt_of_le_of_lt h (by decide)
    · have h : c.toNat ≤ 'f'.toNat := hle
      exact Nat.lt_of_le_of_lt h (by decide)
    · have h : c.toNat ≤ 'F'.toNat := hle
      exact Nat.lt_of_le_of_lt h (by decide)
  have h := hascii c.toNat hlt
  rw [Char.ofNat_toNat] at h
  exact h hc

/-- What holds of the ASCII characters and of those that have no letter case holds of every
character and its lower-case form. -/
theorem toLower_cases {P : Char → Char → Prop}
    (hascii : ∀ n < 128, P (Char.ofNat n) (Char.ofNat n).toLower) (hother : ∀ c, P c c) (c : Char) :
    P c c.toLower := by
  by_cases hc : c.toNat < 128
  · have h := hascii c.toNat hc
    rwa [Char.ofNat_toNat] at h
  · have hlower : c.toLower = c := by
      refine dif_neg fun h => hc ?_
      have hle : c.toNat ≤ 'Z'.toNat := h.2
      exact Nat.lt_of_le_of_lt hle (by decide)
    rw [hlower]
    exact hother c

@[simp] theorem isDigit_toLower (c : Char) : isDigit c.toLower = isDigit c :=
  toLower_cases (P := fun c c' => isDigit c' = isDigit c) (by decide) (fun _ => rfl) c

@[simp] theorem digitValue_toLower (c : Char) : digitValue c.toLower = digitValue c :=
  toLower_cases (P := fun c c' => digitValue c' = digitValue c) (by decide) (fun _ => rfl) c

/-! ## Texts -/

theorem isDigit_of_mem_encode {bytes : Bytes} {c : Char} (h : c ∈ (encode bytes).toList) :
    isDigit c = true := by
  rw [encode, String.toList_ofList] at h
  induction bytes with
  | nil => cases h
  | cons b rest ih =>
      have hb : b.toNat < 256 := b.toNat_lt
      rw [encodeChars, List.mem_cons, List.mem_cons] at h
      rcases h with rfl | rfl | hrest
      · exact isDigit_digit (by omega)
      · exact isDigit_digit (by omega)
      · exact ih hrest

/-- Bytes that are written are read back. -/
theorem decodeChars?_encodeChars (bytes : Bytes) : decodeChars? (encodeChars bytes) = some bytes := by
  induction bytes with
  | nil => rfl
  | cons b rest ih =>
      have hb : b.toNat < 256 := b.toNat_lt
      have hhigh : b.toNat / 16 < 16 := by omega
      have hlow : b.toNat % 16 < 16 := by omega
      have hbyte : b.toNat / 16 * 16 + b.toNat % 16 = b.toNat := by omega
      rw [encodeChars, decodeChars?, isDigit_digit hhigh, isDigit_digit hlow, digitValue_digit hhigh,
        digitValue_digit hlow, hbyte, UInt8.ofNat_toNat, ih]
      rfl

theorem decode?_encode (bytes : Bytes) : decode? (encode bytes) = some bytes := by
  rw [decode?, encode, String.toList_ofList, decodeChars?_encodeChars]

theorem decodeChars?_toLower (cs : List Char) :
    decodeChars? (cs.map Char.toLower) = decodeChars? cs := by
  induction cs using decodeChars?.induct with
  | case1 => rfl
  | case2 c => rfl
  | case3 c c' rest hdigits ih =>
      rw [List.map_cons, List.map_cons, decodeChars?, decodeChars?, isDigit_toLower, isDigit_toLower,
        digitValue_toLower, digitValue_toLower, ih]
  | case4 c c' rest hdigits =>
      rw [List.map_cons, List.map_cons, decodeChars?, decodeChars?, isDigit_toLower, isDigit_toLower,
        if_neg hdigits, if_neg hdigits]

/-- Either letter case writes the same bytes. -/
theorem decode?_lowered (s : String) : decode? (lowered s) = decode? s := by
  rw [decode?, decode?, lowered, String.toList_ofList, decodeChars?_toLower]

theorem isNumeral_lowered (s : String) : isNumeral (lowered s) = isNumeral s := by
  rw [isNumeral, isNumeral, lowered, String.toList_ofList, List.isEmpty_map, List.all_map]
  congr 2
  exact funext isDigit_toLower

end Hex

end Gatehouse
