import Gatehouse.Peer
import Gatehouse.Proofs.Text.Decimal
import Gatehouse.Proofs.Text.Hex
import Gatehouse.Proofs.Text.Utf8

/-!
# The entry of a peer is read back

An address and a port are written without spaces, so the first three spaces of an entry are those that
part its fields, provided that the secret has none. The certificate comes last and may be any text.
-/

namespace Gatehouse

/-! ## Addresses -/

namespace Address.V4

/-- An octet is read up to something that is no digit. -/
theorem octet?_toDigits (x : UInt8) {rest : List Char} (hrest : rest.takeWhile Char.isDigit = []) :
    octet? (Nat.toDigits 10 x.toNat ++ rest) = some (x, rest) := by
  have hx : x.toNat < 256 := x.toNat_lt
  have hdigits := Decimal.isDigit_of_mem_toDigits x.toNat
  have htake : (Nat.toDigits 10 x.toNat ++ rest).takeWhile Char.isDigit =
      Nat.toDigits 10 x.toNat := by
    rw [List.takeWhile_append_of_pos hdigits, hrest, List.append_nil]
  have hdrop : (Nat.toDigits 10 x.toNat ++ rest).dropWhile Char.isDigit = rest := by
    have hwhole := List.takeWhile_append_dropWhile (p := Char.isDigit) (l := rest)
    rw [hrest, List.nil_append] at hwhole
    rw [List.dropWhile_append_of_pos hdigits, hwhole]
  have hempty : (Nat.toDigits 10 x.toNat).isEmpty = false :=
    List.isEmpty_eq_false_iff.2 Nat.toDigits_ne_nil
  have hlength : ¬ 3 < (Nat.toDigits 10 x.toNat).length := by
    rw [Nat.not_lt, Nat.length_toDigits_le_iff (by decide) (by decide)]
    omega
  have hzero : ¬ ((Nat.toDigits 10 x.toNat).head? = some '0' ∧
      1 < (Nat.toDigits 10 x.toNat).length) := by
    rintro ⟨hhead, hlong⟩
    have hnone : x.toNat = 0 :=
      Nat.eq_zero_of_not_pos fun hpos => Decimal.head?_toDigits hpos hhead
    rw [hnone] at hlong
    exact absurd hlong (by decide)
  unfold octet?
  simp only [htake, hdrop, hempty, decide_eq_false hlength, Bool.or_self, Bool.false_eq_true,
    Bool.and_eq_true, decide_eq_true_eq, hzero, Decimal.value_toDigits, hx, UInt8.ofNat_toNat,
    ↓reduceIte]

theorem toList_text (x : V4) : x.text.toList = Nat.toDigits 10 x.a.toNat ++ '.' ::
    (Nat.toDigits 10 x.b.toNat ++ '.' :: (Nat.toDigits 10 x.c.toNat ++ '.' ::
      (Nat.toDigits 10 x.d.toNat ++ []))) := by
  simp only [text, Decimal.text, String.toList_append, String.toList_ofList, List.append_assoc,
    List.append_nil]
  rfl

/-- An address that is written is read back. -/
theorem parse?_text (x : V4) : parse? x.text = some x := by
  have hlast : octet? (Nat.toDigits 10 x.d.toNat ++ []) = some (x.d, []) := octet?_toDigits x.d rfl
  have hdot : ∀ rest : List Char, ('.' :: rest).takeWhile Char.isDigit = [] := fun _ => rfl
  have htake : take? x.text.toList = some (x, []) := by
    rw [toList_text]
    simp only [take?, octet?_toDigits _ (hdot _), hlast, dot?, Option.bind_eq_bind,
      Option.bind_some]
    rfl
  rw [parse?, htake]

theorem space_not_mem_text (x : V4) : ' ' ∉ x.text.toList := by
  have hdigits : ∀ n, ' ' ∉ (Decimal.text n).toList := Decimal.not_mem_text (by decide)
  have hdot : ' ' ∉ ".".toList := by decide
  simp only [text, String.toList_append, List.mem_append, hdigits, hdot, or_self, not_false_eq_true]

end Address.V4

/-! ## Entries -/

namespace Peer

/-- What a text has before its first space and after it, if it has one. -/
def cut? (text : String) : Option (String × String) :=
  match text.toList.dropWhile (· != ' ') with
  | [] => none
  | _ :: rest => some (String.ofList (text.toList.takeWhile (· != ' ')), String.ofList rest)

theorem cut?_append {field : String} (h : ' ' ∉ field.toList) (rest : String) :
    cut? (field ++ " " ++ rest) = some (field, rest) := by
  have htext : (field ++ " " ++ rest).toList = field.toList ++ ' ' :: rest.toList := by
    rw [String.toList_append, String.toList_append, List.append_assoc]
    rfl
  have hfield : ∀ c ∈ field.toList, (c != ' ') = true := by
    intro c hc
    apply bne_iff_ne.2
    rintro rfl
    exact h hc
  have hbefore : (field.toList ++ ' ' :: rest.toList).takeWhile (· != ' ') = field.toList := by
    rw [List.takeWhile_append_of_pos hfield]
    exact List.append_nil _
  have hafter : (field.toList ++ ' ' :: rest.toList).dropWhile (· != ' ') = ' ' :: rest.toList := by
    rw [List.dropWhile_append_of_pos hfield]
    rfl
  simp only [cut?, htext, hbefore, hafter, String.ofList_toList]

/-- Read an entry: the text that its digits write, cut at its first three spaces. -/
def read? (entry : String) : Option Peer := do
  let text ← Utf8.decode? (← Hex.decode? entry)
  let (address, text) ← cut? text
  let (port, text) ← cut? text
  let (secret, certificate) ← cut? text
  return {
    address := ← Address.V4.parse? address
    port := UInt16.ofNat (← Decimal.below? UInt16.size port)
    secret
    certificate }

/-- A peer is read back from its entry, if its secret has no space. -/
theorem read?_encoded {p : Peer} (h : ' ' ∉ p.secret.toList) : read? p.encoded = some p := by
  have hport : p.port.toNat < UInt16.size := p.port.toNat_lt
  have hfields : p.address.text ++ " " ++ Decimal.text p.port.toNat ++ " " ++ p.secret ++ " " ++
      p.certificate = p.address.text ++ " " ++ (Decimal.text p.port.toNat ++ " " ++
        (p.secret ++ " " ++ p.certificate)) := by
    simp only [String.append_assoc]
  simp only [read?, encoded, Hex.decode?_encode, Utf8.decode?_encode, hfields,
    cut?_append p.address.space_not_mem_text, cut?_append (Decimal.not_mem_text (by decide) _),
    cut?_append h, Address.V4.parse?_text, Decimal.below?_text hport, UInt16.ofNat_toNat,
    Option.bind_eq_bind, Option.bind_some]
  rfl

theorem secret_of_ofEntry? {e : Settings.PeerEntry} {p : Peer} (h : ofEntry? e = some p) :
    p.secret = e.secret := by
  obtain ⟨x, -, rfl⟩ := Option.map_eq_some_iff.1 h
  rfl

end Peer

namespace PeerDirectory

/-- Every peer of a directory was configured. -/
theorem exists_entry_of_mem_distinct {seen : List Address.V4} {entries : List Settings.PeerEntry}
    {p : Peer} (h : p ∈ distinct seen entries) : ∃ e ∈ entries, Peer.ofEntry? e = some p := by
  induction entries generalizing seen with
  | nil => cases h
  | cons e rest ih =>
      have hlater : ∀ {seen'}, p ∈ distinct seen' rest →
          ∃ e' ∈ e :: rest, Peer.ofEntry? e' = some p := by
        intro seen' hmem
        obtain ⟨e', he', hentry⟩ := ih hmem
        exact ⟨e', List.mem_cons_of_mem e he', hentry⟩
      unfold distinct at h
      split at h
      · exact hlater h
      · rename_i q hq
        split at h
        · exact hlater h
        · rcases List.mem_cons.1 h with rfl | hmem
          · exact ⟨e, List.mem_cons_self, hq⟩
          · exact hlater hmem

/-- The peers of a directory are told apart by their addresses. -/
theorem nodup_distinct (seen : List Address.V4) (entries : List Settings.PeerEntry) :
    ((distinct seen entries).map Peer.address).Nodup ∧
      ∀ p ∈ distinct seen entries, p.address ∉ seen := by
  induction entries generalizing seen with
  | nil => exact ⟨List.nodup_nil, fun p hp => absurd hp List.not_mem_nil⟩
  | cons e rest ih =>
      unfold distinct
      split
      · exact ih seen
      · rename_i p hp
        split
        · exact ih seen
        · rename_i hfresh
          obtain ⟨hnodup, hunseen⟩ := ih (p.address :: seen)
          refine ⟨?_, ?_⟩
          · rw [List.map_cons, List.nodup_cons]
            refine ⟨?_, hnodup⟩
            intro hmem
            obtain ⟨q, hq, haddress⟩ := List.mem_map.1 hmem
            apply hunseen q hq
            rw [haddress]
            exact List.mem_cons_self
          · intro q hq
            rcases List.mem_cons.1 hq with rfl | hrest
            · exact hfresh
            · intro hseen
              exact hunseen q hrest (List.mem_cons_of_mem _ hseen)

end PeerDirectory

end Gatehouse
