import Gatehouse.Dict.Lemmas
import Gatehouse.Store.Basic

/-!
# Look-ups of stores

Both kinds of tables answer look-ups alike after each change, and a call of a store either fails and
changes nothing or has exactly the effect that its look-ups show.
-/

namespace Gatehouse

namespace Rows

/-- Setting the value of a key does not change under which key a row is found. -/
theorem key_ite (key : String) (value : Bytes) (r : Row) :
    (if r.key == key then { r with value := value } else r).key = r.key := by
  split <;> rfl

theorem select_upsert (rows : Rows) (key key' : String) (value : Bytes) :
    (rows.upsert key value).select key' = if key' = key then some value else rows.select key' := by
  unfold upsert
  split
  case isTrue hany =>
    have hkeys : ((fun r : Row => r.key == key') ∘
        fun r => if r.key == key then { r with value := value } else r) =
        fun r => r.key == key' := by
      funext r
      simp only [Function.comp_apply, key_ite]
    rw [select, List.find?_map, hkeys]
    by_cases hk : key' = key
    · subst hk
      have hsome : (rows.find? fun r => r.key == key').isSome := by
        rw [List.find?_isSome]
        exact List.any_eq_true.1 hany
      obtain ⟨r, hr⟩ := Option.isSome_iff_exists.1 hsome
      have hfound := List.find?_some hr
      simp only [hr, Option.map_some, hfound, ↓reduceIte]
    · cases hr : rows.find? (fun r => r.key == key') with
      | none => simp only [select, hr, hk, Option.map_none, ↓reduceIte]
      | some r =>
          have hfound := List.find?_some hr
          have hother : (r.key == key) = false := by
            rw [beq_iff_eq.1 hfound]
            exact beq_false_of_ne hk
          simp only [select, hr, hk, Option.map_some, hother, Bool.false_eq_true, ↓reduceIte]
  case isFalse hany =>
    have hnone : rows.find? (fun r => r.key == key) = none := by
      rw [List.find?_eq_none]
      intro r hr hkey
      exact hany (List.any_eq_true.2 ⟨r, hr, hkey⟩)
    rw [select, List.find?_append]
    by_cases hk : key' = key
    · subst hk
      simp [hnone]
    · have hother : (key == key') = false := beq_false_of_ne (Ne.symm hk)
      simp [select, hk, hother]

theorem select_delete (rows : Rows) (key key' : String) :
    (rows.delete key).select key' = if key' = key then none else rows.select key' := by
  unfold select delete
  rw [List.find?_filter]
  by_cases hk : key' = key
  · subst hk
    simp
  · have hsame : (fun r : Row => decide ((r.key != key) = true ∧ (r.key == key') = true)) =
        fun r => r.key == key' := by
      funext r
      by_cases hr : r.key = key'
      · simp [hr, hk]
      · simp [hr]
    rw [hsame, if_neg hk]

/-- A key is led by a text without NUL exactly if it starts with it. -/
theorem leads_iff {stem key : String} (hstem : ∀ c ∈ stem.toList, (c != '\x00') = true) :
    leads stem key = true ↔ stem.toList <+: key.toList := by
  have hcounted : counted stem = stem.toList := by
    have hall : (stem.toList ++ []).takeWhile (fun c => c != '\x00') = stem.toList ++ [] :=
      List.takeWhile_append_of_pos hstem
    rw [List.append_nil] at hall
    exact hall
  unfold leads
  rw [hcounted, beq_iff_eq]
  constructor
  · intro htake
    have hprefix : stem.toList <+: counted key := by
      rw [List.prefix_iff_eq_take]
      exact htake.symm
    exact hprefix.trans (List.takeWhile_prefix _)
  · rintro ⟨rest, hrest⟩
    rw [counted, ← hrest, List.takeWhile_append_of_pos hstem, List.take_left]

theorem mem_keys_iff {rows : Rows} {stem key : String}
    (hstem : ∀ c ∈ stem.toList, (c != '\x00') = true) :
    key ∈ rows.keys stem ↔ (rows.select key).isSome = true ∧ stem.toList <+: key.toList := by
  unfold keys select
  rw [List.mem_map, Option.isSome_map, List.find?_isSome]
  constructor
  · rintro ⟨r, hr, rfl⟩
    obtain ⟨hmem, hleads⟩ := List.mem_filter.1 hr
    exact ⟨⟨r, hmem, beq_self_eq_true _⟩, (leads_iff hstem).1 hleads⟩
  · rintro ⟨⟨r, hmem, hkey⟩, hprefix⟩
    cases beq_iff_eq.1 hkey
    exact ⟨r, List.mem_filter.2 ⟨hmem, (leads_iff hstem).2 hprefix⟩, rfl⟩

end Rows

namespace Table

@[simp] theorem get?_put (t : Table) (key key' : String) (value : Bytes) :
    (t.put key value).get? key' = if key' = key then some value else t.get? key' := by
  cases t with
  | memory values => exact Dict.get?_insert values key key' value
  | database rows => exact Rows.select_upsert rows key key' value

@[simp] theorem get?_remove (t : Table) (key key' : String) :
    (t.remove key).get? key' = if key' = key then none else t.get? key' := by
  cases t with
  | memory values => exact Dict.get?_erase values key key'
  | database rows => exact Rows.select_delete rows key key'

/-- Both kinds of tables list the keys that have a value and start with a text. -/
theorem mem_keys_iff {t : Table} {stem key : String}
    (hstem : ∀ c ∈ stem.toList, (c != '\x00') = true) :
    key ∈ t.keys stem ↔ (t.get? key).isSome = true ∧ stem.toList <+: key.toList := by
  cases t with
  | memory values =>
      unfold keys get?
      rw [List.mem_filter, Dict.mem_keys_iff, List.isPrefixOf_iff_prefix]
  | database rows => exact Rows.mem_keys_iff hstem

/-- Whether a table holds nothing. -/
def IsEmpty (t : Table) : Prop := ∀ key, t.get? key = none

theorem isEmpty_memory : IsEmpty (.memory Dict.empty) := fun _ => rfl

end Table

namespace Store

variable {s s' : Store} {key : String} {found : Option Bytes} {e : Unavailable}

/-- A call is answered unless it is down, and then with the reason of the outage. -/
theorem answer_eq_ok {α : Type} {c : StoreCall} {a b : α} (h : s.answer c a = .ok b) :
    c ∉ s.down ∧ b = a := by
  unfold answer failure? at h
  by_cases hc : c ∈ s.down
  · simp [hc] at h
  · simp only [hc, ↓reduceIte, Except.ok.injEq] at h
    exact ⟨hc, h.symm⟩

theorem answer_eq_error {α : Type} {c : StoreCall} {a : α} (h : s.answer c a = .error e) :
    c ∈ s.down ∧ e = ⟨s.reason⟩ := by
  unfold answer failure? at h
  by_cases hc : c ∈ s.down
  · simp only [hc, ↓reduceIte, Except.error.injEq] at h
    exact ⟨hc, h.symm⟩
  · simp [hc] at h

theorem answer_of_up {α : Type} {c : StoreCall} (h : c ∉ s.down) (a : α) :
    s.answer c a = .ok a := by
  simp only [answer, failure?, h, ↓reduceIte]

theorem answer_of_down {α : Type} {c : StoreCall} (h : c ∈ s.down) (a : α) :
    s.answer c a = .error ⟨s.reason⟩ := by
  simp only [answer, failure?, h, ↓reduceIte]

/-- A removal fails, whatever its test, while the store removes nothing. -/
theorem removeIf_of_down (h : .removeIf ∈ s.down) (key : String) (test : Bytes → Bool) :
    s.removeIf key test = .error ⟨s.reason⟩ := by
  simp only [removeIf, answer_of_down h, ite_self]

/-- A store without outages answers every call. -/
theorem not_down_of_nil (h : s.down = []) (c : StoreCall) : c ∉ s.down := by
  rw [h]
  exact List.not_mem_nil

/-- A table after a change of one key that may leave it as it was. -/
def change (t : Table) (key : String) : Option Bytes → Table
  | some value => t.put key value
  | none => t

theorem update_eq (s : Store) (key : String) (next : Option Bytes → Option Bytes) :
    s.update key next =
      s.answer .update
        (s.table.get? key, { s with table := change s.table key (next (s.table.get? key)) }) := by
  cases hnext : next (s.table.get? key) <;> simp only [update, change, hnext]

/-- An update that succeeds has found the present value and has put its successor in place. -/
theorem update_eq_ok {next : Option Bytes → Option Bytes}
    (h : s.update key next = .ok (found, s')) :
    .update ∉ s.down ∧ found = s.table.get? key ∧
      s' = { s with table := change s.table key (next found) } := by
  rw [update_eq] at h
  obtain ⟨hup, heq⟩ := answer_eq_ok h
  cases heq
  exact ⟨hup, rfl, rfl⟩

theorem update_eq_error {next : Option Bytes → Option Bytes} (h : s.update key next = .error e) :
    .update ∈ s.down ∧ e = ⟨s.reason⟩ := by
  rw [update_eq] at h
  exact answer_eq_error h

/-- A table after a key was taken out if its value passes a test. -/
def removal (t : Table) (key : String) (test : Bytes → Bool) : Table :=
  if (t.get? key).any test then t.remove key else t

/-- A removal that succeeds has found the present value and has taken it out if it passes. -/
theorem removeIf_eq_ok {test : Bytes → Bool} (h : s.removeIf key test = .ok (found, s')) :
    .removeIf ∉ s.down ∧ found = s.table.get? key ∧
      s' = { s with table := removal s.table key test } := by
  unfold removeIf at h
  unfold removal
  by_cases hany : (s.table.get? key).any test = true
  · simp only [hany, ↓reduceIte] at h ⊢
    obtain ⟨hup, heq⟩ := answer_eq_ok h
    cases heq
    exact ⟨hup, rfl, rfl⟩
  · simp only [hany, ↓reduceIte, Bool.false_eq_true] at h ⊢
    obtain ⟨hup, heq⟩ := answer_eq_ok h
    cases heq
    exact ⟨hup, rfl, rfl⟩

theorem removeIf_eq_error {test : Bytes → Bool} (h : s.removeIf key test = .error e) :
    .removeIf ∈ s.down := by
  simp only [removeIf] at h
  split at h
  · exact (answer_eq_error h).1
  · exact (answer_eq_error h).1

theorem set_eq_ok {value : Bytes} (h : s.set key value = .ok s') :
    .set ∉ s.down ∧ s' = { s with table := s.table.put key value } :=
  answer_eq_ok h

theorem delete_eq_ok (h : s.delete key = .ok (found, s')) :
    .delete ∉ s.down ∧ found = s.table.get? key ∧
      s' = { s with table := s.table.remove key } := by
  obtain ⟨hup, heq⟩ := answer_eq_ok h
  cases heq
  exact ⟨hup, rfl, rfl⟩

end Store

end Gatehouse
