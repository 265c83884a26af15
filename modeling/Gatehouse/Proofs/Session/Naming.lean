import Gatehouse.Proofs.Tracker
import Mathlib.Data.List.Forall2

/-!
# Keys name sessions

An id may be written in either letter case, and nothing else about it may differ: two ids have the same
keys exactly if they are the same letters and digits. The two keys of a session are told apart by what
they start with, so that a scan for keys of one kind finds none of the other kind, and a wake-up is
answered in the way of its kind.
-/

namespace Gatehouse

/-! ## Letter case -/

/-- A capital letter and the small letter that goes with it. -/
def CasePair (capital small : Char) : Prop :=
  'A' ≤ capital ∧ capital ≤ 'Z' ∧ small.toNat = capital.toNat + 32

/-- Two characters are equal but for the case of ASCII letters. -/
def SameLetter (c d : Char) : Prop := c = d ∨ CasePair c d ∨ CasePair d c

/-- Two texts are equal but for the case of ASCII letters. -/
def SameLetters (s t : String) : Prop := List.Forall₂ SameLetter s.toList t.toList

theorem toNat_toLower (c : Char) :
    c.toLower.toNat = if 'A' ≤ c ∧ c ≤ 'Z' then c.toNat + 32 else c.toNat := by
  unfold Char.toLower
  split
  case isTrue h =>
    have hcapital : 'A' ≤ c ∧ c ≤ 'Z' := h
    have hle : c.toNat ≤ 90 := h.2
    have hstep : ('a'.val - 'A'.val).toNat = 32 := by decide
    rw [if_pos hcapital, Char.toNat_mk, UInt32.toNat_add, Char.toNat_val, hstep]
    omega
  case isFalse h =>
    have hother : ¬ ('A' ≤ c ∧ c ≤ 'Z') := h
    rw [if_neg hother]

theorem toLower_eq_iff {c d : Char} : c.toLower = d.toLower ↔ SameLetter c d := by
  have hcapital : ∀ e : Char, 'A' ≤ e ∧ e ≤ 'Z' ↔ 65 ≤ e.toNat ∧ e.toNat ≤ 90 := fun e => Iff.rfl
  unfold SameLetter CasePair
  simp only [← Char.toNat_inj, toNat_toLower, ← and_assoc, hcapital]
  split <;> split <;> omega

theorem lowered_eq_iff {s t : String} : lowered s = lowered t ↔ SameLetters s t := by
  unfold lowered SameLetters
  rw [String.ofList_inj]
  generalize s.toList = cs
  generalize t.toList = ds
  induction cs generalizing ds with
  | nil => simp [List.forall₂_nil_left_iff]
  | cons c cs ih =>
      cases ds with
      | nil => simp
      | cons d ds => simp [List.forall₂_cons, toLower_eq_iff, ih]

/-! ## Keys -/

namespace SessionId

/-- Reading the text of an id gives that id. -/
theorem parse?_text (id : SessionId) : parse? id.text = some id := by
  obtain ⟨id', hid'⟩ := exists_parse?_iff.2 ⟨id.numeral, id.short⟩
  have hsame : id'.text = id.text := (text_of_parse? hid').trans id.lower
  rw [hid', ext_text hsame]

theorem fragmentKey_eq_iff {a b : SessionId} : a.fragmentKey = b.fragmentKey ↔ a = b :=
  ⟨fragmentKey_inj, congrArg fragmentKey⟩

theorem regionKey_eq_iff {a b : SessionId} : a.regionKey = b.regionKey ↔ a = b :=
  ⟨regionKey_inj, congrArg regionKey⟩

/-- Ids that are read from two texts are equal exactly if the texts are, but for letter case. -/
theorem eq_iff_of_parse? {s t : String} {a b : SessionId} (hs : parse? s = some a)
    (ht : parse? t = some b) : a = b ↔ SameLetters s t := by
  rw [← lowered_eq_iff, ← text_of_parse? hs, ← text_of_parse? ht]
  exact ⟨congrArg text, ext_text⟩

/-- A session is named by its id, in either letter case. Its two keys are shared with no other session
and differ from each other; a scan for the keys of one kind finds the key of that kind, if there is a
value under it, and never the other one; and a wake-up for either key is answered in the way of its
kind. -/
theorem keys_name_sessions {s t : String} {a b : SessionId} (hs : parse s = .ok a)
    (ht : parse t = .ok b) :
    parse a.text = .ok a ∧
      (a.fragmentKey = b.fragmentKey ↔ SameLetters s t) ∧
      (a.regionKey = b.regionKey ↔ SameLetters s t) ∧
      a.fragmentKey ≠ b.regionKey ∧
      ∀ d : Desk,
        (.keys ∉ d.store.down → ∃ fragments regions,
          d.store.keys fragmentStem = .ok fragments ∧ d.store.keys regionStem = .ok regions ∧
            (a.fragmentKey ∈ fragments ↔ (d.look a.fragmentKey).isSome = true) ∧
            (a.regionKey ∈ regions ↔ (d.look a.regionKey).isSome = true) ∧
            a.fragmentKey ∉ regions ∧ a.regionKey ∉ fragments) ∧
        ∀ now : UInt64, d.handleExpiry a.fragmentKey now = d.flushIfDue a.fragmentKey now ∧
          d.handleExpiry a.regionKey now =
            (d.dropIfStale a.regionKey now).map fun d' => (none, d') := by
  rw [parse_eq_ok] at hs ht
  have hfragment := Desk.isFragmentKey_fragmentKey a
  have hregion := Desk.isRegionKey_regionKey a
  have hneither := Desk.isFragmentKey_of_isRegionKey hregion
  have hkind : Desk.isRegionKey a.fragmentKey = false := by
    rw [Bool.eq_false_iff]
    intro hboth
    rw [Desk.isFragmentKey_of_isRegionKey hboth] at hfragment
    cases hfragment
  refine ⟨parse_eq_ok.2 a.parse?_text, fragmentKey_eq_iff.trans (eq_iff_of_parse? hs ht),
    regionKey_eq_iff.trans (eq_iff_of_parse? hs ht), fragmentKey_ne_regionKey a b, ?_⟩
  intro d
  constructor
  · intro hkeys
    refine ⟨_, _, Store.answer_of_up hkeys _, Store.answer_of_up hkeys _, ?_⟩
    simp [Desk.mem_keys_fragmentStem, Desk.mem_keys_regionStem, hfragment, hregion, hneither, hkind]
  · intro now
    constructor
    · rw [Desk.handleExpiry, hfragment]
      rfl
    · rw [Desk.handleExpiry, hneither, hregion]
      cases d.dropIfStale a.regionKey now with
      | error e => rfl
      | ok d' => rfl

/-- The id of a session in capital and in small letters, while the store holds an entry under each of
its keys. -/
theorem keys_name_sessions_in_either_case :
    let a : SessionId := ⟨"a1", by decide, by decide, by decide⟩
    let table : Table := .memory (Dict.ofList [(a.fragmentKey, [0x7B]), (a.regionKey, [0x7B])])
    let d : Desk := { store := { table := table }, timer := { clock := 0 } }
    parse "A1" = .ok a ∧ parse "a1" = .ok a ∧ SameLetters "A1" "a1" ∧ .keys ∉ d.store.down ∧
      ∃ fragments regions, d.store.keys fragmentStem = .ok fragments ∧
        d.store.keys regionStem = .ok regions ∧ a.fragmentKey ∈ fragments ∧ a.regionKey ∈ regions ∧
          a.fragmentKey ∉ regions ∧ a.regionKey ∉ fragments := by
  intro a table d
  have hcapital : parse "A1" = .ok a := rfl
  have hsmall : parse "a1" = .ok a := rfl
  have hup : .keys ∉ d.store.down := Store.not_down_of_nil rfl _
  obtain ⟨-, hsame, -, -, hdesk⟩ := keys_name_sessions hcapital hsmall
  obtain ⟨fragments, regions, hfragments, hregions, hfound, hfound', hnot, hnot'⟩ := (hdesk d).1 hup
  exact ⟨hcapital, hsmall, hsame.1 rfl, hup, fragments, regions, hfragments, hregions,
    hfound.2 (by decide +kernel), hfound'.2 (by decide +kernel), hnot, hnot'⟩

end SessionId

end Gatehouse
