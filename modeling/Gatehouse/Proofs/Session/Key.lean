import Gatehouse.Proofs.Text.Hex
import Gatehouse.Tracker

/-!
# Keys of sessions

The keys of fragments and of region entries start with texts of their own, and a session has one key
of each kind.
-/

namespace Gatehouse

namespace SessionId

/-- Ids with the same text are equal. -/
theorem ext_text {a b : SessionId} (h : a.text = b.text) : a = b := by
  cases a
  cases b
  cases h
  rfl

theorem fragmentKey_inj {a b : SessionId} (h : a.fragmentKey = b.fragmentKey) : a = b := by
  apply ext_text
  exact (String.append_right_inj _).1 h

theorem parse_eq_ok {v : String} {id : SessionId} : parse v = .ok id ↔ parse? v = some id := by
  unfold parse
  cases parse? v with
  | none => exact iff_of_false nofun nofun
  | some id' => rw [Except.ok.injEq, Option.some.injEq]

/-- An id is one to sixty-four hexadecimal digits, in either letter case. -/
theorem exists_parse?_iff {s : String} :
    (∃ id, parse? s = some id) ↔ Hex.isNumeral s = true ∧ s.length ≤ 64 := by
  have hlength : (lowered s).length = s.length := by
    rw [lowered, String.length_ofList, List.length_map, String.length_toList]
  rw [← Hex.isNumeral_lowered, ← hlength]
  unfold parse?
  constructor
  · rintro ⟨id, h⟩
    split at h
    · rename_i hshape
      exact hshape
    · cases h
  · intro hshape
    exact ⟨_, dif_pos hshape⟩

/-- A text that was read as an id is the id's text in lower case. -/
theorem text_of_parse? {s : String} {id : SessionId} (h : parse? s = some id) :
    id.text = lowered s := by
  unfold parse? at h
  split at h
  · cases h
    rfl
  · cases h

end SessionId

namespace RegionTable

theorem starts_iff {stem s : String} : starts stem s = true ↔ stem.toList <+: s.toList :=
  List.isPrefixOf_iff_prefix

theorem starts_append (stem s : String) : starts stem (stem ++ s) = true := by
  rw [starts_iff, String.toList_append]
  exact List.prefix_append _ _

end RegionTable

namespace Desk

theorem isFragmentKey_fragmentKey (id : SessionId) : isFragmentKey id.fragmentKey = true :=
  RegionTable.starts_append _ _

theorem isRegionKey_regionKey (id : SessionId) : isRegionKey id.regionKey = true :=
  RegionTable.starts_append _ _

/-- No key is of both kinds. -/
theorem isFragmentKey_of_isRegionKey {key : String} (h : isRegionKey key = true) :
    isFragmentKey key = false := by
  cases hfragment : isFragmentKey key with
  | false => rfl
  | true =>
      have hneither : ¬ SessionId.fragmentStem.toList <+: SessionId.regionStem.toList ∧
          ¬ SessionId.regionStem.toList <+: SessionId.fragmentStem.toList := by
        decide
      rcases List.prefix_or_prefix_of_prefix (RegionTable.starts_iff.1 hfragment)
        (RegionTable.starts_iff.1 h) with hprefix | hprefix
      · exact absurd hprefix hneither.1
      · exact absurd hprefix hneither.2

end Desk

namespace SessionId

theorem regionKey_inj {a b : SessionId} (h : a.regionKey = b.regionKey) : a = b := by
  apply ext_text
  exact (String.append_right_inj _).1 h

theorem fragmentKey_ne_regionKey (a b : SessionId) : a.fragmentKey ≠ b.regionKey := by
  intro h
  have hfragment := Desk.isFragmentKey_fragmentKey a
  rw [h, Desk.isFragmentKey_of_isRegionKey (Desk.isRegionKey_regionKey b)] at hfragment
  cases hfragment

end SessionId

end Gatehouse
