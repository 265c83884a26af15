import Gatehouse.Dict.Basic

/-! # Look-ups of tables

Each operation is described by what it does to look-ups; `Dict.ext_get?` then decides equality. -/

namespace Gatehouse

namespace Dict

universe u v

variable {α : Type u} {β : Type v}

@[simp] theorem get?_empty (k : String) : (empty : Dict α).get? k = none := rfl

theorem lookup_insertEntry (k k' : String) (v : α) (l : List (String × α)) :
    (insertEntry k v l).lookup k' = if k' = k then some v else l.lookup k' := by
  induction l with
  | nil =>
      by_cases h : k' = k
      · simp [insertEntry, h]
      · have hb : (k' == k) = false := by simpa using h
        simp [insertEntry, List.lookup_cons, h, hb]
  | cons e rest ih =>
      rcases e with ⟨k₀, v₀⟩
      unfold insertEntry
      split
      · by_cases h : k' = k
        · simp [h]
        · have hb : (k' == k) = false := by simpa using h
          rw [List.lookup_cons, hb]
          simp [h]
      · split
        case isTrue heq =>
          subst heq
          by_cases h : k' = k
          · simp [h]
          · have hb : (k' == k) = false := by simpa using h
            simp [List.lookup_cons, hb, h]
        case isFalse hne =>
          by_cases h₀ : k' = k₀
          · subst h₀
            have hk : k' ≠ k := fun h => hne h.symm
            simp [hk]
          · have hb : (k' == k₀) = false := by simpa using h₀
            simp [List.lookup_cons, hb, ih]

@[simp] theorem get?_insert (d : Dict α) (k k' : String) (v : α) :
    (d.insert k v).get? k' = if k' = k then some v else d.get? k' :=
  lookup_insertEntry k k' v d.entries

theorem get?_insert_self (d : Dict α) (k : String) (v : α) :
    (d.insert k v).get? k = some v := by simp

theorem lookup_filter_key (p : String → Bool) (k : String) (l : List (String × α)) :
    (l.filter (fun e => p e.1)).lookup k = if p k then l.lookup k else none := by
  induction l with
  | nil => simp
  | cons e rest ih =>
      rcases e with ⟨k₀, v₀⟩
      by_cases hp : p k₀ <;> by_cases hk : k = k₀
      · subst hk
        simp [hp]
      · have hb : (k == k₀) = false := by simpa using hk
        simp [hp, List.lookup_cons, hb, ih]
      · subst hk
        simp [hp, ih]
      · have hb : (k == k₀) = false := by simpa using hk
        simp [hp, List.lookup_cons, hb, ih]

@[simp] theorem get?_erase (d : Dict α) (k k' : String) :
    (d.erase k).get? k' = if k' = k then none else d.get? k' := by
  have h := lookup_filter_key (fun x => x != k) k' d.entries
  by_cases hk : k' = k
  · subst hk
    simpa [get?, erase] using h
  · simpa [get?, erase, hk] using h

theorem get?_erase_self (d : Dict α) (k : String) : (d.erase k).get? k = none := by simp

@[simp] theorem get?_alter (d : Dict α) (k k' : String) (f : Option α → α) :
    (d.alter k f).get? k' = if k' = k then some (f (d.get? k)) else d.get? k' := by
  simp [alter]

theorem mem_of_lookup {k : String} {v : α} :
    ∀ {l : List (String × α)}, l.lookup k = some v → (k, v) ∈ l
  | [], h => by simp at h
  | (k₀, v₀) :: rest, h => by
      by_cases hk : k = k₀
      · subst hk
        simp at h
        simp [h]
      · have hb : (k == k₀) = false := by simpa using hk
        rw [List.lookup_cons, hb] at h
        exact List.mem_cons_of_mem _ (mem_of_lookup h)

theorem nodup_of_ordered {l : List (String × α)} (h : l.Pairwise (fun a b => a.1 < b.1)) :
    (l.map (·.1)).Nodup := by
  refine List.pairwise_map.2 (h.imp ?_)
  intro a b hlt heq
  rw [heq] at hlt
  exact String.lt_irrefl _ hlt

theorem lookup_of_mem {k : String} {v : α} :
    ∀ {l : List (String × α)}, (l.map (·.1)).Nodup → (k, v) ∈ l → l.lookup k = some v
  | [], _, h => by simp at h
  | (k₀, v₀) :: rest, hnames, h => by
      obtain ⟨hfresh, htail⟩ := List.nodup_cons.1 hnames
      rcases List.mem_cons.1 h with h | h
      · cases h
        simp
      · have hne : k ≠ k₀ := fun hk => hfresh (List.mem_map.2 ⟨(k, v), h, hk⟩)
        have hb : (k == k₀) = false := by simpa using hne
        rw [List.lookup_cons, hb]
        exact lookup_of_mem htail h

/-- A table answers a look-up by the entry it holds under that key. -/
theorem get?_eq_some_iff {d : Dict α} {k : String} {v : α} :
    d.get? k = some v ↔ (k, v) ∈ d.entries :=
  ⟨mem_of_lookup, lookup_of_mem (nodup_of_ordered d.ordered)⟩

@[simp] theorem mem_keys_iff {d : Dict α} {k : String} : k ∈ d.keys ↔ (d.get? k).isSome := by
  constructor
  · intro h
    rcases List.mem_map.1 h with ⟨⟨k₀, v⟩, hmem, rfl⟩
    have hget := get?_eq_some_iff.2 hmem
    simp only
    rw [hget]
    rfl
  · intro h
    rcases Option.isSome_iff_exists.1 h with ⟨v, hv⟩
    exact List.mem_map.2 ⟨(k, v), get?_eq_some_iff.1 hv, rfl⟩

theorem entries_ext : ∀ {l l' : List (String × α)},
    l.Pairwise (fun a b => a.1 < b.1) → l'.Pairwise (fun a b => a.1 < b.1) →
      (∀ k, l.lookup k = l'.lookup k) → l = l'
  | [], [], _, _, _ => rfl
  | [], (k, v) :: _, _, _, h => by
      have := h k
      simp at this
  | (k, v) :: _, [], _, _, h => by
      have := h k
      simp at this
  | (k, v) :: rest, (k', v') :: rest', ho, ho', h => by
      have hhead := (List.pairwise_cons.1 ho).1
      have hhead' := (List.pairwise_cons.1 ho').1
      have hk : k = k' := by
        by_cases hlt : k < k'
        · have hm : (k, v) ∈ (k', v') :: rest' := mem_of_lookup (by
            rw [← h k]
            simp)
          rcases List.mem_cons.1 hm with hm | hm
          · exact congrArg Prod.fst hm
          · exact absurd (String.lt_trans hlt (hhead' _ hm)) (String.lt_irrefl k)
        · by_cases heq : k = k'
          · exact heq
          · have hgt := lt_of_not_lt_of_ne hlt heq
            have hm : (k', v') ∈ (k, v) :: rest := mem_of_lookup (by
              rw [h k']
              simp)
            rcases List.mem_cons.1 hm with hm | hm
            · exact (congrArg Prod.fst hm).symm
            · exact absurd (String.lt_trans hgt (hhead _ hm)) (String.lt_irrefl k')
      subst hk
      have hv : v = v' := by
        have := h k
        simpa using this
      subst hv
      have hrest : rest = rest' := by
        refine entries_ext (List.pairwise_cons.1 ho).2 (List.pairwise_cons.1 ho').2 (fun x => ?_)
        by_cases hx : x = k
        · subst hx
          have none_of : ∀ {m : List (String × α)}, (∀ e ∈ m, x < e.1) → m.lookup x = none := by
            intro m hm
            cases hl : m.lookup x with
            | none => rfl
            | some w => exact absurd (hm _ (mem_of_lookup hl)) (String.lt_irrefl x)
          rw [none_of hhead, none_of hhead']
        · have hb : (x == k) = false := by simpa using hx
          have := h x
          simpa [List.lookup_cons, hb] using this
      rw [hrest]

/-- Tables that answer every look-up alike are equal. -/
theorem ext_get? {d d' : Dict α} (h : ∀ k, d.get? k = d'.get? k) : d = d' := by
  rcases d with ⟨l, ho⟩
  rcases d' with ⟨l', ho'⟩
  have : l = l' := entries_ext ho ho' h
  subst this
  rfl

@[simp] theorem insert_insert (d : Dict α) (k : String) (v w : α) :
    (d.insert k v).insert k w = d.insert k w := by
  refine ext_get? (fun x => ?_)
  by_cases hx : x = k <;> simp [hx]

@[simp] theorem erase_insert (d : Dict α) (k : String) (v : α) :
    (d.insert k v).erase k = d.erase k := by
  refine ext_get? (fun x => ?_)
  by_cases hx : x = k <;> simp [hx]

theorem get?_filter (d : Dict α) (p : String → α → Bool) (k : String) :
    (d.filter p).get? k = (d.get? k).filter (p k) := by
  cases h : d.get? k with
  | none =>
      cases h' : (d.filter p).get? k with
      | none => rfl
      | some w =>
          have hm := get?_eq_some_iff.1 h'
          have hm' : (k, w) ∈ d.entries := (List.mem_filter.1 hm).1
          rw [get?_eq_some_iff.2 hm'] at h
          cases h
  | some v =>
      by_cases hp : p k v
      · have hm : (k, v) ∈ (d.filter p).entries :=
          List.mem_filter.2 ⟨get?_eq_some_iff.1 h, hp⟩
        rw [get?_eq_some_iff.2 hm]
        simp [Option.filter, hp]
      · cases h' : (d.filter p).get? k with
        | none => simp [Option.filter, hp]
        | some w =>
            have hm := List.mem_filter.1 (get?_eq_some_iff.1 h')
            have hw : d.get? k = some w := get?_eq_some_iff.2 hm.1
            rw [h] at hw
            cases hw
            exact absurd hm.2 hp

theorem lookup_eq_none_of_fresh {k : String} {l : List (String × α)} (h : k ∉ l.map (·.1)) :
    l.lookup k = none := by
  cases hl : l.lookup k with
  | none => rfl
  | some v => exact absurd (List.mem_map.2 ⟨_, mem_of_lookup hl, rfl⟩) h

/-- Entering pairs with different keys one by one overrides a table by them. -/
theorem get?_foldl_insert {l : List (String × α)} (h : (l.map (·.1)).Nodup) (d : Dict α)
    (k : String) :
    (l.foldl (fun d e => d.insert e.1 e.2) d).get? k = (l.lookup k).or (d.get? k) := by
  induction l generalizing d with
  | nil => rfl
  | cons e rest ih =>
      obtain ⟨hfresh, hrest⟩ := List.nodup_cons.1 h
      rw [List.foldl_cons, ih hrest, get?_insert]
      by_cases hk : k = e.1
      · rw [if_pos hk, hk, lookup_eq_none_of_fresh hfresh, List.lookup_cons_self]
        rfl
      · have hb : (k == e.1) = false := by simpa using hk
        rw [if_neg hk, List.lookup_cons, hb]

/-- Pairs with different keys are found under their keys once they are entered. -/
theorem get?_ofList {l : List (String × α)} (h : (l.map (·.1)).Nodup) (k : String) :
    (ofList l).get? k = l.lookup k := by
  rw [ofList, get?_foldl_insert h, get?_empty, Option.or_none]

/-- A table is made again of its entries. -/
theorem ofList_toList (d : Dict α) : ofList d.toList = d := by
  refine ext_get? fun k => ?_
  exact get?_ofList (nodup_of_ordered d.ordered) k

end Dict

end Gatehouse
