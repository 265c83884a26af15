import Gatehouse.Text.Utf8

/-!
# Texts survive UTF-8

The scanner of byte strings finds every character that the encoder has written and marks nothing
between them. Reading the bytes of a text therefore gives the text back, strictly and forgivingly.
-/

namespace Gatehouse

namespace Utf8

theorem toNat_ofNat_of_lt {n : Nat} (h : n < 256) : (UInt8.ofNat n).toNat = n :=
  UInt8.toNat_ofNat_of_lt' h

/-- The byte that opens a character of two bytes says how its bits begin. -/
theorem lead_of_two {q : Nat} (hlow : 2 ≤ q) (hhigh : q < 32) :
    lead (UInt8.ofNat (q + 0xC0)) = .begun { bits := q, owed := 1 } := by
  have hb : (UInt8.ofNat (q + 0xC0)).toNat = q + 0xC0 := toNat_ofNat_of_lt (by omega)
  have hbits : (q + 0xC0) % 32 = q := by omega
  simp only [lead, hb, hbits]
  rw [if_neg (by omega), if_neg (by omega), if_pos (by omega)]

/-- The byte that opens a character of three bytes also bounds the one after it. -/
theorem lead_of_three {q : Nat} (hhigh : q < 16) :
    lead (UInt8.ofNat (q + 0xE0)) =
      .begun { bits := q, owed := 2, low := if q = 0 then 0xA0 else 0x80,
               high := if q = 13 then 0x9F else 0xBF } := by
  have hb : (UInt8.ofNat (q + 0xE0)).toNat = q + 0xE0 := toNat_ofNat_of_lt (by omega)
  have hbits : (q + 0xE0) % 16 = q := by omega
  simp only [lead, hb, hbits]
  rw [if_neg (by omega), if_neg (by omega), if_neg (by omega)]
  by_cases h0 : q = 0
  · subst h0
    rfl
  · by_cases h13 : q = 13
    · subst h13
      rfl
    · rw [if_neg (by omega), if_neg (by omega), if_pos (by omega), if_neg h0, if_neg h13]

/-- The byte that opens a character of four bytes also bounds the one after it. -/
theorem lead_of_four {q : Nat} (hhigh : q < 5) :
    lead (UInt8.ofNat (q + 0xF0)) =
      .begun { bits := q, owed := 3, low := if q = 0 then 0x90 else 0x80,
               high := if q = 4 then 0x8F else 0xBF } := by
  have hb : (UInt8.ofNat (q + 0xF0)).toNat = q + 0xF0 := toNat_ofNat_of_lt (by omega)
  have hbits : (q + 0xF0) % 8 = q := by omega
  simp only [lead, hb, hbits]
  rw [if_neg (by omega), if_neg (by omega), if_neg (by omega), if_neg (by omega),
    if_neg (by omega), if_neg (by omega)]
  by_cases h0 : q = 0
  · subst h0
    rfl
  · by_cases h4 : q = 4
    · subst h4
      rfl
    · rw [if_neg (by omega), if_pos (by omega), if_neg h0, if_neg h4]

/-- A byte within the bounds of a begun character that owes more is taken into it. -/
theorem scan_more {b : Begun} {n : Nat} {rest : Bytes} (hn : n < 64) (hlow : b.low ≤ n + 0x80)
    (hhigh : n + 0x80 ≤ b.high) (howed : 1 < b.owed) :
    scan (some b) (UInt8.ofNat (n + 0x80) :: rest) =
      scan (some { bits := b.bits * 64 + n, owed := b.owed - 1 }) rest := by
  have hb : (UInt8.ofNat (n + 0x80)).toNat = n + 0x80 := toNat_ofNat_of_lt (by omega)
  have hbits : (n + 0x80) % 64 = n := by omega
  rw [scan, hb, if_pos ⟨hlow, hhigh⟩, hbits]
  exact if_neg (by omega)

/-- The last byte that a begun character owes completes it. -/
theorem scan_last {b : Begun} {n : Nat} {rest : Bytes} (hn : n < 64) (hlow : b.low ≤ n + 0x80)
    (hhigh : n + 0x80 ≤ b.high) (howed : b.owed = 1) :
    scan (some b) (UInt8.ofNat (n + 0x80) :: rest) =
      some (Char.ofNat (b.bits * 64 + n)) :: scan none rest := by
  have hb : (UInt8.ofNat (n + 0x80)).toNat = n + 0x80 := toNat_ofNat_of_lt (by omega)
  have hbits : (n + 0x80) % 64 = n := by omega
  rw [scan, hb, if_pos ⟨hlow, hhigh⟩, hbits]
  exact if_pos (by omega)

theorem scan_begun {byte : UInt8} {b : Begun} {rest : Bytes} (h : lead byte = .begun b) :
    scan none (byte :: rest) = scan (some b) rest := by
  rw [scan, h]

/-- The scanner reads an encoded character back, whatever follows it. -/
theorem scan_encodeChar (c : Char) (rest : Bytes) :
    scan none (String.utf8EncodeChar c ++ rest) = some c :: scan none rest := by
  have hc : Char.ofNat c.val.toNat = c := Char.ofNat_toNat c
  have hvalid : c.val.toNat < 0xD800 ∨ 0xDFFF < c.val.toNat ∧ c.val.toNat < 0x110000 := c.valid
  unfold String.utf8EncodeChar
  generalize c.val.toNat = v at hc hvalid ⊢
  dsimp only
  split
  case isTrue h =>
    have hb : (UInt8.ofNat v).toNat = v := toNat_ofNat_of_lt (by omega)
    have hlead : lead (UInt8.ofNat v) = .whole c := by
      rw [lead, hb, hc]
      exact if_pos (by omega)
    simp only [List.cons_append, List.nil_append, scan, hlead]
  case isFalse h1 =>
    split
    case isTrue h2 =>
      have hq : v / 64 % 32 = v / 64 := by omega
      have hchar : v / 64 * 64 + v % 64 = v := by omega
      rw [hq, List.cons_append, scan_begun (lead_of_two (by omega) (by omega)), List.cons_append,
        scan_last (by omega) (by show 0x80 ≤ _; omega) (by show _ ≤ 0xBF; omega) rfl, hchar, hc,
        List.nil_append]
    case isFalse h2 =>
      split
      case isTrue h3 =>
        have hq : v / 4096 % 16 = v / 4096 := by omega
        have hchar : (v / 4096 * 64 + v / 64 % 64) * 64 + v % 64 = v := by omega
        rw [hq, List.cons_append, scan_begun (lead_of_three (by omega)), List.cons_append,
          scan_more (by omega) (by dsimp only; split <;> omega) (by dsimp only; split <;> omega)
            (show 1 < 2 by decide), List.cons_append,
          scan_last (by omega) (by show 0x80 ≤ _; omega) (by show _ ≤ 0xBF; omega) rfl, hchar, hc,
          List.nil_append]
      case isFalse h3 =>
        have hq : v / 262144 % 8 = v / 262144 := by omega
        have hchar : ((v / 262144 * 64 + v / 4096 % 64) * 64 + v / 64 % 64) * 64 + v % 64 = v := by
          omega
        rw [hq, List.cons_append, scan_begun (lead_of_four (by omega)), List.cons_append,
          scan_more (by omega) (by dsimp only; split <;> omega) (by dsimp only; split <;> omega)
            (show 1 < 3 by decide), List.cons_append,
          scan_more (by omega) (by show 0x80 ≤ _; omega) (by show _ ≤ 0xBF; omega)
            (show 1 < 2 by decide), List.cons_append,
          scan_last (by omega) (by show 0x80 ≤ _; omega) (by show _ ≤ 0xBF; omega) rfl, hchar, hc,
          List.nil_append]

theorem scan_flatMap (cs : List Char) (rest : Bytes) :
    scan none (cs.flatMap String.utf8EncodeChar ++ rest) = cs.map some ++ scan none rest := by
  induction cs with
  | nil => rfl
  | cons c cs ih =>
      rw [List.flatMap_cons, List.append_assoc, scan_encodeChar, ih]
      rfl

/-- Scanning the bytes of a text finds its characters and nothing malformed. -/
theorem scan_encode (s : String) : scan none (encode s) = s.toList.map some := by
  have h := scan_flatMap s.toList []
  rw [List.append_nil, scan, List.append_nil] at h
  exact h

theorem allSome_map_some {α : Type} (xs : List α) : allSome (xs.map some) = some xs := by
  induction xs with
  | nil => rfl
  | cons x xs ih => rw [List.map_cons, allSome, ih, Option.map_some]

/-- The bytes of a text spell that text. -/
theorem decode?_encode (s : String) : decode? (encode s) = some s := by
  rw [decode?, scan_encode, allSome_map_some, Option.map_some, String.ofList_toList]

theorem encode_inj {s t : String} : encode s = encode t ↔ s = t := by
  refine ⟨fun h => ?_, congrArg encode⟩
  have hscan : s.toList.map some = t.toList.map some := by rw [← scan_encode, ← scan_encode, h]
  exact String.toList_inj.1 (List.map_inj_right (fun _ _ => Option.some.inj) |>.1 hscan)

end Utf8

end Gatehouse
