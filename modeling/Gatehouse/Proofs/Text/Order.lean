import Gatehouse.Proofs.Text.Utf8

/-!
# Texts in the order of their bytes

UTF-8 keeps the order of characters: a greater character has the greater bytes at the first place
where the two differ. Tables that are ordered by text are therefore ordered by bytes.
-/

namespace Gatehouse

namespace Utf8

/-- Bytes come in the order of the numbers that they are made of. -/
theorem ofNat_cons_lt {m n : Nat} {x y : Bytes} (hle : m ≤ n) (hn : n < 256)
    (hrest : m = n → x < y) : UInt8.ofNat m :: x < UInt8.ofNat n :: y := by
  rw [List.cons_lt_cons_iff, UInt8.lt_iff_toNat_lt, ← UInt8.toNat_inj,
    toNat_ofNat_of_lt (Nat.lt_of_le_of_lt hle hn), toNat_ofNat_of_lt hn]
  rcases Nat.lt_or_eq_of_le hle with hlt | heq
  · exact .inl hlt
  · exact .inr ⟨heq, hrest heq⟩

/-- A smaller first byte decides. -/
theorem ofNat_cons_lt_of_lt {m n : Nat} {x y : Bytes} (hlt : m < n) (hn : n < 256) :
    UInt8.ofNat m :: x < UInt8.ofNat n :: y :=
  ofNat_cons_lt (Nat.le_of_lt hlt) hn fun heq => absurd heq (Nat.ne_of_lt hlt)

/-- The bytes of a character come before those of a greater one, whatever follows either. -/
theorem encodeChar_append_lt {c d : Char} (h : c < d) (x y : Bytes) :
    String.utf8EncodeChar c ++ x < String.utf8EncodeChar d ++ y := by
  have hvw : c.val.toNat < d.val.toNat := h
  have hw : d.val.toNat < 0x110000 := by
    have := d.valid
    omega
  unfold String.utf8EncodeChar
  generalize c.val.toNat = v at hvw ⊢
  generalize d.val.toNat = w at hvw hw ⊢
  dsimp only
  -- the first byte tells how many follow, so that only characters of one width have more to compare
  split
  case isTrue hv =>
    split
    · exact ofNat_cons_lt_of_lt hvw (by omega)
    · split
      · exact ofNat_cons_lt_of_lt (by omega) (by omega)
      · split
        · exact ofNat_cons_lt_of_lt (by omega) (by omega)
        · exact ofNat_cons_lt_of_lt (by omega) (by omega)
  case isFalse hv1 =>
    rw [if_neg (show ¬ w ≤ 127 by omega)]
    split
    case isTrue hv2 =>
      split
      · refine ofNat_cons_lt (by omega) (by omega) fun heq => ?_
        exact ofNat_cons_lt_of_lt (by omega) (by omega)
      · split
        · exact ofNat_cons_lt_of_lt (by omega) (by omega)
        · exact ofNat_cons_lt_of_lt (by omega) (by omega)
    case isFalse hv2 =>
      rw [if_neg (show ¬ w ≤ 2047 by omega)]
      split
      case isTrue hv3 =>
        split
        · refine ofNat_cons_lt (by omega) (by omega) fun hfirst => ?_
          refine ofNat_cons_lt (by omega) (by omega) fun hsecond => ?_
          exact ofNat_cons_lt_of_lt (by omega) (by omega)
        · exact ofNat_cons_lt_of_lt (by omega) (by omega)
      case isFalse hv3 =>
        rw [if_neg (show ¬ w ≤ 65535 by omega)]
        refine ofNat_cons_lt (by omega) (by omega) fun hfirst => ?_
        refine ofNat_cons_lt (by omega) (by omega) fun hsecond => ?_
        refine ofNat_cons_lt (by omega) (by omega) fun hthird => ?_
        exact ofNat_cons_lt_of_lt (by omega) (by omega)

/-- What comes first is compared first. -/
theorem append_lt_append_left (x : Bytes) {y z : Bytes} (h : y < z) : x ++ y < x ++ z := by
  induction x with
  | nil => exact h
  | cons b rest ih => exact List.cons_lt_cons_iff.2 (.inr ⟨rfl, ih⟩)

theorem flatMap_lt {cs ds : List Char} (h : cs < ds) :
    cs.flatMap String.utf8EncodeChar < ds.flatMap String.utf8EncodeChar := by
  induction cs generalizing ds with
  | nil =>
      cases ds with
      | nil => exact absurd h (List.lt_irrefl [])
      | cons d ds =>
          obtain ⟨b, rest, hbytes⟩ := List.exists_cons_of_ne_nil (@String.utf8EncodeChar_ne_nil d)
          rw [List.flatMap_cons, hbytes]
          exact List.nil_lt_cons _ _
  | cons c cs ih =>
      cases ds with
      | nil => exact absurd h (List.not_lt_nil _)
      | cons d ds =>
          rw [List.flatMap_cons, List.flatMap_cons]
          rcases List.cons_lt_cons_iff.1 h with hlt | ⟨rfl, hrest⟩
          · exact encodeChar_append_lt hlt _ _
          · exact append_lt_append_left _ (ih hrest)

/-- Texts come in the order of their bytes. -/
theorem encode_lt {s t : String} (h : s < t) : encode s < encode t := flatMap_lt (String.lt_iff.1 h)

end Utf8

end Gatehouse
