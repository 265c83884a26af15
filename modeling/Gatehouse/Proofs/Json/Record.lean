import Gatehouse.Dict.Lemmas
import Gatehouse.Json.Basic
import Mathlib.Data.List.Nodup

/-!
# Records in any arrangement

The members of a record may come in any order, among members that the record does not know, and those
that have their default may be left out. What is read is the same in every arrangement.
-/

namespace Gatehouse

namespace Json

theorem names?_map (members : List (String × Json)) :
    names? (members.map fun e => (some e.1, e.2)) = some members := by
  induction members with
  | nil => rfl
  | cons e rest ih => rw [List.map_cons, names?, ih, Option.map_some]

/-- A name that differs from all others selects one member. -/
theorem filter_name {members : List (String × Json)} (h : (members.map (·.1)).Nodup)
    {m : String × Json} (hm : m ∈ members) :
    members.filter (fun e => e.1 == m.1) = [m] := by
  induction members with
  | nil => exact absurd hm List.not_mem_nil
  | cons e rest ih =>
      obtain ⟨hfresh, hrest⟩ := List.nodup_cons.1 h
      rcases List.mem_cons.1 hm with rfl | hm
      · have hnone : rest.filter (fun e => e.1 == m.1) = [] :=
          List.filter_eq_nil_iff.2 fun e he heq =>
            hfresh (List.mem_map.2 ⟨e, he, beq_iff_eq.1 heq⟩)
        rw [List.filter_cons, if_pos (beq_self_eq_true _), hnone]
      · have hne : ¬ (e.1 == m.1) = true := fun heq =>
          hfresh (List.mem_map.2 ⟨m, hm, (beq_iff_eq.1 heq).symm⟩)
        rw [List.filter_cons, if_neg hne, ih hrest hm]

theorem textMembers?_map (entries : List (String × String)) :
    textMembers? (entries.map fun e => (some e.1, text e.2)) = some entries := by
  induction entries with
  | nil => rfl
  | cons e rest ih => rw [List.map_cons, text, textMembers?, ih, Option.map_some]

/-- Some members arrange a record: they are the record's own in any order, without some that have their
default, and further ones under names that the record does not know. -/
def Arranges (own defaults members : List (String × Json)) : Prop :=
  ∃ kept strangers, members.Perm (kept ++ strangers) ∧ kept.Sublist own ∧
    (∀ m ∈ own, m ∉ kept → m ∈ defaults) ∧ ∀ m ∈ strangers, m.1 ∉ own.map (·.1)

/-- What is found of a member: its value, or nothing if it has its default. -/
def Found (defaults : List (String × Json)) (m : String × Json) (v : Option Json) : Prop :=
  v = some m.2 ∨ v = none ∧ m ∈ defaults

variable {own defaults members : List (String × Json)} {m : String × Json}

/-- The members themselves are an arrangement in any order. -/
theorem arranges_of_perm (h : members.Perm own) : Arranges own defaults members := by
  refine ⟨own, [], ?_, .refl own, fun _ hm hout => absurd hm hout, nofun⟩
  rw [List.append_nil]
  exact h

theorem lookup_eq_head?_filter (members : List (String × Json)) (k : String) :
    members.lookup k = ((members.filter fun e => e.1 == k).map (·.2)).head? := by
  induction members with
  | nil => rfl
  | cons e rest ih =>
      rw [List.lookup_cons, List.filter_cons, BEq.comm]
      cases e.1 == k with
      | true => rfl
      | false => exact ih

/-- A member is found under its name once, or has its default and is not found. -/
theorem filter_arranges (hnames : (own.map (·.1)).Nodup) (h : Arranges own defaults members)
    (hm : m ∈ own) :
    members.filter (fun e => e.1 == m.1) = [m] ∨
      members.filter (fun e => e.1 == m.1) = [] ∧ m ∈ defaults := by
  obtain ⟨kept, strangers, hperm, hkept, hdefault, hstrangers⟩ := h
  have hother : strangers.filter (fun e => e.1 == m.1) = [] := by
    refine List.filter_eq_nil_iff.2 fun e he heq => hstrangers e he ?_
    rw [beq_iff_eq.1 heq]
    exact List.mem_map_of_mem hm
  have hfiltered : (members.filter fun e => e.1 == m.1).Perm (kept.filter fun e => e.1 == m.1) := by
    have hboth := hperm.filter fun e => e.1 == m.1
    rw [List.filter_append, hother, List.append_nil] at hboth
    exact hboth
  by_cases hmem : m ∈ kept
  · left
    rw [filter_name (hnames.sublist (hkept.map _)) hmem] at hfiltered
    exact List.perm_singleton.1 hfiltered
  · right
    refine ⟨?_, hdefault m hm hmem⟩
    have hnone : kept.filter (fun e => e.1 == m.1) = [] := by
      refine List.filter_eq_nil_iff.2 fun e he heq => hmem ?_
      rw [← List.inj_on_of_nodup_map hnames (hkept.subset he) hm (beq_iff_eq.1 heq)]
      exact he
    rw [hnone] at hfiltered
    exact List.perm_nil.1 hfiltered

/-- What is found under the name of each member is its value, or nothing if it has its default. -/
theorem found_of_arranges (hnames : (own.map (·.1)).Nodup) (h : Arranges own defaults members) :
    ∀ m ∈ own, Found defaults m (members.lookup m.1) := by
  intro m hm
  rw [lookup_eq_head?_filter]
  rcases filter_arranges hnames h hm with hone | ⟨hnone, hdefault⟩
  · rw [hone]
    exact .inl rfl
  · rw [hnone]
    exact .inr ⟨rfl, hdefault⟩

theorem select?_arranges (hnames : (own.map (·.1)).Nodup) (h : Arranges own defaults members)
    {ms : List (String × Json)} (hms : ∀ m ∈ ms, m ∈ own) :
    select? members (ms.map (·.1)) = some (ms.map fun m => members.lookup m.1) := by
  induction ms with
  | nil => rfl
  | cons m ms ih =>
      have hrest := ih fun x hx => hms x (List.mem_cons_of_mem m hx)
      rw [List.map_cons, select?, List.map_cons, lookup_eq_head?_filter]
      rcases filter_arranges hnames h (hms m List.mem_cons_self) with hone | ⟨hnone, -⟩
      · rw [hone]
        simp only [List.map_cons, List.map_nil, List.head?_cons, hrest, Option.map_some]
      · rw [hnone]
        simp only [List.map_nil, List.head?_nil, hrest, Option.map_some]

/-- The fields of a record are found in every arrangement. -/
theorem fields?_arranges {names : List String} (hown : own.map (·.1) = names) (hnames : names.Nodup)
    (h : Arranges own defaults members) :
    fields? names (record members) = some (names.map fun name => members.lookup name) ∧
      ∀ m ∈ own, Found defaults m (members.lookup m.1) := by
  subst hown
  refine ⟨?_, found_of_arranges hnames h⟩
  simp only [fields?, record, names?_map, List.map_map]
  exact select?_arranges hnames h fun _ hm => hm

/-- An object with a member whose name spells no text has no fields. -/
theorem fields?_of_nameless {members : List (Option String × Json)} {v : Json}
    (h : (none, v) ∈ members) (names : List String) : fields? names (.object members) = none := by
  have hnone : names? members = none := by
    induction members with
    | nil => cases h
    | cons m ms ih =>
        obtain ⟨k, w⟩ := m
        cases k with
        | none => rfl
        | some k =>
            rcases List.mem_cons.1 h with heq | hmem
            · cases heq
            · rw [names?, ih hmem, Option.map_none]
  simp only [fields?, hnone]

variable {α : Type} {name : String} {j : Json} {v : Option Json}

/-- A field without a default is read. -/
theorem required_found (read : Json → Option α) (h : Found defaults (name, j) v)
    (hname : name ∉ defaults.map (·.1)) : required read v = read j := by
  rcases h with rfl | ⟨-, hmem⟩
  · rfl
  · exact absurd (List.mem_map_of_mem hmem) hname

/-- A field with a default is read, or it is its default. -/
theorem defaulted_found (fallback : α) (read : Json → Option α) {default : Json}
    (h : Found defaults (name, j) v) (hnames : (defaults.map (·.1)).Nodup)
    (hdefault : (name, default) ∈ defaults) (hread : read default = some fallback) :
    defaulted fallback read v = read j := by
  rcases h with rfl | ⟨rfl, hmem⟩
  · rfl
  · have hsame : (name, j) = (name, default) := List.inj_on_of_nodup_map hnames hmem hdefault rfl
    cases hsame
    exact hread.symm

/-- A table of texts is read from its entries in any order. -/
theorem texts?_perm {entries : List (String × String)} {d : Dict String}
    (h : entries.Perm d.toList) : texts? (record (entries.map fun e => (e.1, text e.2))) = some d := by
  have hnames : (d.toList.map (·.1)).Nodup := Dict.nodup_of_ordered d.ordered
  have hnames' : (entries.map (·.1)).Nodup := (h.map _).nodup_iff.2 hnames
  simp only [texts?, record, List.map_map, Function.comp_def]
  rw [textMembers?_map, Option.map_some, Option.some.injEq]
  refine Dict.ext_get? fun k => Option.ext fun v => ?_
  rw [Dict.get?_ofList hnames', Dict.get?_eq_some_iff]
  exact ⟨fun hk => h.mem_iff.1 (Dict.mem_of_lookup hk),
    fun hk => Dict.lookup_of_mem hnames' (h.mem_iff.2 hk)⟩

end Json

end Gatehouse
