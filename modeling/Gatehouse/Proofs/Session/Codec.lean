import Gatehouse.Proofs.Session.Tolerance

/-!
# Stored values survive the codec

A fragment that is written to the store is the fragment that is read from it, whatever texts and
counters it holds. The same is true of a region entry.
-/

namespace Gatehouse

namespace Fragment

theorem ofJson?_toJson (f : Fragment) : ofJson? f.toJson = some f := by
  rw [toJson_eq]
  exact ofJson?_arranges (.refl _) (Json.arranges_of_perm (.refl _))

/-- A stored fragment is read back. -/
theorem decode?_encode (f : Fragment) : decode? f.encode = some f := by
  rw [decode?, encode, Json.parse?_bytes, Option.bind_some, ofJson?_toJson]

/-- Different fragments have different stored forms. -/
theorem encode_injective : Function.Injective encode := by
  intro f g h
  have hread := congrArg decode? h
  rw [decode?_encode, decode?_encode] at hread
  exact Option.some.inj hread

end Fragment

namespace RegionEntry

theorem ofJson?_toJson (e : RegionEntry) : ofJson? e.toJson = some e :=
  ofJson?_arranges (Json.arranges_of_perm (.refl e.members))

/-- A stored region entry is read back. -/
theorem decode?_encode (e : RegionEntry) : decode? e.encode = some e := by
  rw [decode?, encode, Json.parse?_bytes, Option.bind_some, ofJson?_toJson]

/-- Different region entries have different stored forms. -/
theorem encode_injective : Function.Injective encode := by
  intro e e' h
  have hread := congrArg decode? h
  rw [decode?_encode, decode?_encode] at hread
  exact Option.some.inj hread

/-- An entry may be used up to its time. -/
theorem fresh?_eq {bytes : Bytes} {e : RegionEntry} (h : decode? bytes = some e) (now : UInt64) :
    fresh? bytes now = if now < e.due then some e else none := by
  simp only [fresh?, h]

theorem left?_eq {bytes : Bytes} {e : RegionEntry} {now : UInt64} (h : decode? bytes = some e) :
    left? bytes now = if now < e.due then some (e.due - now) else none := by
  rw [left?, fresh?_eq h]
  split
  · rfl
  · rfl

/-- Time is left to bytes exactly if they hold an entry whose time is still to come. -/
theorem left?_eq_some_iff {bytes : Bytes} {now left : UInt64} :
    left? bytes now = some left ↔ ∃ e, decode? bytes = some e ∧ now < e.due ∧ left = e.due - now := by
  constructor
  · intro h
    cases hdecode : decode? bytes with
    | none => simp [left?, fresh?, hdecode] at h
    | some e =>
        rw [left?_eq hdecode] at h
        split at h
        · rename_i hlt
          exact ⟨e, rfl, hlt, (Option.some.inj h).symm⟩
        · cases h
  · rintro ⟨e, hdecode, hlt, rfl⟩
    rw [left?_eq hdecode, if_pos hlt]

end RegionEntry

/-- Whatever is stored is read back: fragments and region entries survive the codec, so different
values have different forms, and reading a stored form and writing it again changes it no more than
once. -/
theorem stored_forms_survive :
    (∀ f : Fragment, Fragment.decode? f.encode = some f) ∧
    (∀ e : RegionEntry, RegionEntry.decode? e.encode = some e) ∧
    Function.Injective Fragment.encode ∧ Function.Injective RegionEntry.encode ∧
    (∀ bytes again, (Fragment.decode? bytes).map Fragment.encode = some again →
      Fragment.decode? again = Fragment.decode? bytes ∧
        (Fragment.decode? again).map Fragment.encode = some again) ∧
    ∀ bytes again, (RegionEntry.decode? bytes).map RegionEntry.encode = some again →
      RegionEntry.decode? again = RegionEntry.decode? bytes ∧
        (RegionEntry.decode? again).map RegionEntry.encode = some again := by
  refine ⟨Fragment.decode?_encode, RegionEntry.decode?_encode, Fragment.encode_injective,
    RegionEntry.encode_injective, ?_, ?_⟩
  · intro bytes again h
    obtain ⟨f, hf, rfl⟩ := Option.map_eq_some_iff.1 h
    rw [Fragment.decode?_encode, hf]
    exact ⟨rfl, rfl⟩
  · intro bytes again h
    obtain ⟨e, he, rfl⟩ := Option.map_eq_some_iff.1 h
    rw [RegionEntry.decode?_encode, he]
    exact ⟨rfl, rfl⟩

end Gatehouse
