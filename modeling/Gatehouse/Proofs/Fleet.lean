import Gatehouse.Fleet.Step

/-!
# Fleets seen through one desk

What a front end does at its desk changes the shared store, the shared events and its own timer, and
nothing else of the fleet.
-/

namespace Gatehouse

namespace Fleet

/-- The desk of a front end with some timer. -/
def deskWith (f : Fleet) (t : Timer) : Desk where
  store := f.store
  timer := t
  events := f.events

/-- The desk of front end `i`. -/
def desk? (f : Fleet) (i : Nat) : Option Desk := f.members[i]?.map fun m => f.deskWith m.timer

/-- The fleet after the desk of front end `i` has changed. -/
def putDesk (f : Fleet) (i : Nat) (d : Desk) : Fleet :=
  { f with
    store := d.store
    events := d.events
    members := f.members.modify i fun m => { m with timer := d.timer } }

variable {α : Type} {f : Fleet} {i j : Nat} {d d' : Desk} {m : Member}

theorem desk?_of_member (h : f.members[i]? = some m) : f.desk? i = some (f.deskWith m.timer) := by
  rw [desk?, h]
  rfl

theorem desk?_eq_some (h : f.desk? i = some d) :
    ∃ m, f.members[i]? = some m ∧ d = f.deskWith m.timer := by
  unfold desk? at h
  obtain ⟨m, hm, rfl⟩ := Option.map_eq_some_iff.1 h
  exact ⟨m, hm, rfl⟩

theorem desk?_eq_none (h : f.desk? i = none) : f.members[i]? = none := by
  unfold desk? at h
  exact Option.map_eq_none_iff.1 h

@[simp] theorem site_putDesk : (f.putDesk i d).site = f.site := rfl

theorem members_putDesk (j : Nat) :
    (f.putDesk i d).members[j]? =
      if i = j then f.members[j]?.map fun m => { m with timer := d.timer } else f.members[j]? := by
  rw [putDesk, List.getElem?_modify]
  by_cases hij : i = j
  · simp only [hij, ↓reduceIte]
    rfl
  · simp only [hij, ↓reduceIte]
    exact Option.map_id'

theorem member_putDesk (hm : f.members[i]? = some m) :
    (f.putDesk i d).members[i]? = some { m with timer := d.timer } := by
  rw [members_putDesk, if_pos rfl, hm]
  rfl

theorem member_putDesk_of_ne (hj : j ≠ i) : (f.putDesk i d).members[j]? = f.members[j]? := by
  rw [members_putDesk, if_neg (Ne.symm hj)]

/-- Members that agree at every place agree. -/
theorem modify_eq_modify {l : List Member} {change change' : Member → Member}
    (h : ∀ m, l[i]? = some m → change m = change' m) : l.modify i change = l.modify i change' := by
  apply List.ext_getElem?
  intro j
  rw [List.getElem?_modify, List.getElem?_modify]
  by_cases hij : i = j
  · subst hij
    simp only [↓reduceIte]
    cases hm : l[i]? with
    | none => rfl
    | some m => exact congrArg some (h m hm)
  · simp only [hij, ↓reduceIte]

/-- Putting a desk back as it was changes nothing. -/
theorem putDesk_desk? (h : f.desk? i = some d) : f.putDesk i d = f := by
  obtain ⟨m, hm, rfl⟩ := desk?_eq_some h
  unfold putDesk deskWith
  have hsame : f.members.modify i (fun m' => { m' with timer := m.timer }) =
      f.members.modify i id := by
    apply modify_eq_modify
    intro m' hm'
    cases hm.symm.trans hm'
    rfl
  rw [hsame, List.modify_id]

theorem desk?_putDesk (h : f.desk? i = some d) : (f.putDesk i d').desk? i = some d' := by
  obtain ⟨m, hm, -⟩ := desk?_eq_some h
  rw [desk?, member_putDesk hm]
  rfl

@[simp] theorem putDesk_putDesk : (f.putDesk i d).putDesk i d' = f.putDesk i d' := by
  unfold putDesk
  have hlast : ∀ (l : List Member) (t t' : Timer),
      (l.modify i fun m => { m with timer := t }).modify i (fun m => { m with timer := t' }) =
        l.modify i fun m => { m with timer := t' } := by
    intro l t t'
    rw [List.modify_modify_eq]
    rfl
  simp only [hlast]

/-- What a front end does at its desk. -/
theorem actDesk_eq (idle : α) (work : Desk → α × Desk) :
    f.actDesk i idle work =
      match f.desk? i with
      | none => (idle, f)
      | some d => ((work d).1, f.putDesk i (work d).2) := by
  unfold actDesk act frontEnd? desk? deskWith
  cases hm : f.members[i]? with
  | none => rfl
  | some m =>
      simp only [Option.map_some, putFrontEnd, putDesk, Prod.mk.injEq, true_and]
      rw [modify_eq_modify]
      intro m' hm'
      cases hm.symm.trans hm'
      rfl

theorem actDesk_of_desk? (h : f.desk? i = some d) (idle : α) (work : Desk → α × Desk) :
    f.actDesk i idle work = ((work d).1, f.putDesk i (work d).2) := by
  rw [actDesk_eq, h]

theorem actDesk_of_none (h : f.desk? i = none) (idle : α) (work : Desk → α × Desk) :
    f.actDesk i idle work = (idle, f) := by
  rw [actDesk_eq, h]

theorem step_visit_of_desk? (h : f.desk? i = some d) (v : VisitOf) :
    f.step (.visit i v) =
      (.visited (d.visit f.site.windows v).1, f.putDesk i (d.visit f.site.windows v).2) := by
  rw [step, actDesk_of_desk? h]

/-- What a front end tries at its desk. A failure changes nothing. -/
theorem tryDesk_of_desk? (h : f.desk? i = some d) (idle : α)
    (work : Desk → Except Unavailable (α × Desk)) :
    f.tryDesk i idle work =
      match work d with
      | .ok (a, d') => (.ok a, f.putDesk i d')
      | .error e => (.error e, f) := by
  unfold tryDesk
  rw [actDesk_of_desk? h]
  cases hwork : work d with
  | ok result => rfl
  | error e => simp only [putDesk_desk? h]

/-- A mapped result is the map of a result. -/
theorem ok_of_map {β : Type} {x : Except Unavailable α} {change : α → β} {b : β}
    (h : x.map change = .ok b) : ∃ a, x = .ok a ∧ change a = b := by
  cases x with
  | error e => cases h
  | ok a => exact ⟨a, rfl, Except.ok.inj h⟩

theorem tryDesk_of_none (h : f.desk? i = none) (idle : α)
    (work : Desk → Except Unavailable (α × Desk)) : f.tryDesk i idle work = (.ok idle, f) := by
  unfold tryDesk
  exact actDesk_of_none h _ _

/-- What a front end tries either changes nothing or is done at its desk. -/
theorem tryDesk_cases (i : Nat) (idle : α) (work : Desk → Except Unavailable (α × Desk)) :
    (f.tryDesk i idle work).2 = f ∨
      ∃ d a d', f.desk? i = some d ∧ work d = .ok (a, d') ∧
        (f.tryDesk i idle work).2 = f.putDesk i d' := by
  cases hd : f.desk? i with
  | none =>
      rw [tryDesk_of_none hd]
      exact .inl rfl
  | some d =>
      rw [tryDesk_of_desk? hd]
      cases hwork : work d with
      | error e => exact .inl rfl
      | ok result => exact .inr ⟨d, result.1, result.2, rfl, hwork, rfl⟩

theorem onTimer_of_desk? (h : f.desk? i = some d) (change : Timer → Timer) :
    f.onTimer i change = f.putDesk i { d with timer := change d.timer } := by
  obtain ⟨m, hm, rfl⟩ := desk?_eq_some h
  have hsame : f.members.modify i (fun m' => { m' with timer := change m'.timer }) =
      f.members.modify i fun m' => { m' with timer := change m.timer } := by
    apply modify_eq_modify
    intro m' hm'
    cases hm.symm.trans hm'
    rfl
  rw [onTimer, hsame]
  rfl

theorem onTimer_of_none (h : f.desk? i = none) (change : Timer → Timer) :
    f.onTimer i change = f := by
  have hlength : f.members.length ≤ i := List.getElem?_eq_none_iff.1 (desk?_eq_none h)
  rw [onTimer, List.modify_eq_self hlength]

/-- Rousing a front end changes at most which chores wait. -/
theorem rouse_eq (f : Fleet) (i : Nat) : ∃ chores, f.rouse i = { f with chores := chores } := by
  unfold rouse queue
  split
  · exact ⟨f.chores, rfl⟩
  · split
    · split
      · exact ⟨f.chores, rfl⟩
      · exact ⟨_, rfl⟩
    · exact ⟨f.chores, rfl⟩

/-- Two front ends with default settings that share an empty store in memory. -/
def pair : Fleet :=
  ofSettings { sessions := { databasePath := "" }, downloads := "" } .memory { route := .log } {} 0
    ["", ""]

end Fleet

end Gatehouse
