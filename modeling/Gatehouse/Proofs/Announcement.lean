import Gatehouse.Proofs.Apart.Timer
import Gatehouse.Proofs.Text.Order

/-!
# Announcements

A timer forgets which deadline it announced when it sends a key. Whoever notes the arms, the disarms
and the announcements can still tell: an announcement is of the last arm of its key, that arm was
not dropped in between, its deadline has come, and no earlier announcement was of it. All
announcements together come in the order of their deadlines, since a sweep leaves only later
deadlines behind and nothing is armed for a time that has passed.
-/

namespace Gatehouse

namespace Timer

/-- What may happen to a timer. Its listener takes the keys that wait with `collect`. -/
inductive Move
  | arm (key : String) (delay : Nat)
  | disarm (key : String)
  | advance (duration : Nat)
  | sweep
  | collect
  deriving DecidableEq

/-- The timer after a move. -/
def move (t : Timer) : Move → Timer
  | .arm key delay => t.arm key delay
  | .disarm key => t.disarm key
  | .advance duration => t.advance duration
  | .sweep => t.sweep
  | .collect => t.collect.2

/-- What is noted of a timer: arms with their deadlines, disarms, and announcements with the time
of the sweep that made them. -/
inductive Note
  | armed (key : String) (deadline : Nat)
  | disarmed (key : String)
  | announced (key : String) (time : Nat)
  deriving DecidableEq

namespace Note

/-- The key that a note is about. -/
def key : Note → String
  | armed key _ => key
  | disarmed key => key
  | announced key _ => key

/-- The key that a note announces. -/
def announced? : Note → Option String
  | announced key _ => some key
  | _ => none

end Note

/-- The keys that a sweep puts behind those that wait for the listener already. -/
def fresh (t : Timer) : List String := t.sweep.announced.drop t.announced.length

/-- What is noted of a move. -/
def notesOf (t : Timer) : Move → List Note
  | .arm key delay => [.armed key (t.clock + delay)]
  | .disarm key => [.disarmed key]
  | .sweep => t.fresh.map fun key => .announced key t.clock
  | _ => []

/-- A timer with what was noted of it and the keys that its listener has taken. -/
structure Story where
  timer : Timer
  notes : List Note := []
  taken : List String := []

namespace Story

/-- The story after a move. -/
def next (s : Story) (m : Move) : Story where
  timer := s.timer.move m
  notes := s.notes ++ s.timer.notesOf m
  taken := if m = .collect then s.taken ++ s.timer.collect.1 else s.taken

/-- The story of a timer that starts with a clock and goes through some moves. -/
def tell (clock : Nat) (moves : List Move) : Story :=
  moves.foldl next { timer := { clock := clock } }

end Story

/-- The last note about a key says that it was armed for a deadline. The arm was not followed by a
disarm, an announcement or another arm of the key. -/
def Stands (notes : List Note) (key : String) (deadline : Nat) : Prop :=
  (notes.filter fun n => n.key == key).getLast? = some (.armed key deadline)

/-- What a sweep does after some notes. -/
structure SweepsWell (notes : List Note) (t : Timer) : Prop where
  /-- The listener gets the fresh keys behind those that wait. -/
  heard : t.sweep.announced = t.announced ++ t.fresh
  /-- Announced are the keys that stand armed for a deadline that has come. -/
  exact : ∀ key, key ∈ t.fresh ↔ ∃ deadline, Stands notes key deadline ∧ deadline ≤ t.clock
  once : t.fresh.Nodup
  /-- The sweep answers how many keys it has announced. -/
  number : t.due.length = t.fresh.length
  /-- Keys come by deadline, and keys with one deadline in the order of their bytes. -/
  ordered : t.fresh.Pairwise fun a b => ∀ deadline deadline', Stands notes a deadline →
    Stands notes b deadline' →
      deadline < deadline' ∨ deadline = deadline' ∧ Utf8.encode a < Utf8.encode b
  /-- Pending are the keys that stand armed for a later deadline. -/
  pending : ∀ key deadline, t.sweep.armed.get? key = some deadline ↔
    Stands notes key deadline ∧ t.clock < deadline

/-- The announcement at place `j` of some notes is of the arm at place `i`: the last arm of its key
before it. -/
structure IsOf (notes : List Note) (i j : Nat) (key : String) (deadline time : Nat) : Prop where
  armed : notes[i]? = some (.armed key deadline)
  announced : notes[j]? = some (.announced key time)
  before : i < j
  last : ∀ k deadline', i < k → k < j → notes[k]? ≠ some (.armed key deadline')

section Due

variable {t : Timer} {key : String} {deadline : Nat}

theorem mem_due :
    (key, deadline) ∈ t.due ↔ t.armed.get? key = some deadline ∧ deadline ≤ t.clock := by
  unfold due
  rw [List.mem_mergeSort, List.mem_filter, Dict.get?_eq_some_iff, decide_eq_true_iff]
  rfl

/-- A key is due once at most. -/
theorem nodup_keys_due (t : Timer) : (t.due.map (·.1)).Nodup := by
  have hentries : (t.armed.toList.map (·.1)).Nodup := by
    apply List.Pairwise.imp (fun hlt => ?_) (List.pairwise_map.2 t.armed.ordered)
    exact fun heq => String.lt_irrefl _ (heq ▸ hlt)
  apply ((List.mergeSort_perm _ _).map _).nodup_iff.2
  exact hentries.sublist (List.filter_sublist.map _)

/-- Keys are due in the order of their deadlines, and keys with one deadline in their own. -/
theorem ordered_due (t : Timer) :
    t.due.Pairwise fun a b => a.2 < b.2 ∨ a.2 = b.2 ∧ a.1 < b.1 := by
  rw [List.pairwise_iff_forall_sublist]
  intro a b hab
  have hle := List.pairwise_iff_forall_sublist.1 (List.pairwise_mergeSort deadlines_trans deadlines_total _) hab
  rcases Nat.lt_or_eq_of_le (of_decide_eq_true hle) with hlt | heq
  · exact .inl hlt
  · refine .inr ⟨heq, ?_⟩
    -- the sort is stable, so that entries with one deadline stay in the order of the table
    have htied : [a, b].Sublist (t.due.filter fun e => e.2 == a.2) := by
      have hfiltered := hab.filter (fun e => e.2 == a.2)
      simpa [heq] using hfiltered
    unfold due at htied
    rw [filter_mergeSort deadlines_trans deadlines_total, List.mergeSort_of_pairwise] at htied
    · exact List.pairwise_iff_forall_sublist.1 ((t.armed.ordered.filter _).filter _) htied
    · apply List.pairwise_of_forall_mem_list
      intro x hx y hy
      have hx' : x.2 = a.2 := beq_iff_eq.1 (List.mem_filter.1 hx).2
      have hy' : y.2 = a.2 := beq_iff_eq.1 (List.mem_filter.1 hy).2
      exact decide_eq_true (Nat.le_of_eq (hx'.trans hy'.symm))

theorem fresh_eq (hheard : t.heard = true) : t.fresh = t.due.map (·.1) := by
  unfold fresh sweep
  rw [hheard]
  exact List.drop_left

theorem mem_fresh (hheard : t.heard = true) :
    key ∈ t.fresh ↔ ∃ deadline, t.armed.get? key = some deadline ∧ deadline ≤ t.clock := by
  rw [fresh_eq hheard, List.mem_map]
  constructor
  · rintro ⟨⟨key', deadline⟩, hdue, rfl⟩
    exact ⟨deadline, mem_due.1 hdue⟩
  · rintro ⟨deadline, hdue⟩
    exact ⟨(key, deadline), mem_due.2 hdue, rfl⟩

theorem nodup_fresh (hheard : t.heard = true) : t.fresh.Nodup := by
  rw [fresh_eq hheard]
  exact nodup_keys_due t

/-- A sweep announces keys by deadline, and keys with one deadline in the order of their bytes. -/
theorem ordered_fresh (hheard : t.heard = true) :
    t.fresh.Pairwise fun a b => ∀ deadline deadline', t.armed.get? a = some deadline →
      t.armed.get? b = some deadline' →
        deadline < deadline' ∨ deadline = deadline' ∧ Utf8.encode a < Utf8.encode b := by
  rw [fresh_eq hheard, List.pairwise_map]
  refine t.ordered_due.imp_of_mem fun {a b} ha hb hab deadline deadline' hdeadline hdeadline' => ?_
  obtain rfl : a.2 = deadline := Option.some.inj ((mem_due.1 ha).1.symm.trans hdeadline)
  obtain rfl : b.2 = deadline' := Option.some.inj ((mem_due.1 hb).1.symm.trans hdeadline')
  exact hab.imp_right fun ⟨heq, hlt⟩ => ⟨heq, Utf8.encode_lt hlt⟩

end Due

/-! ## Notes on a key -/

section Notes

variable {notes more : List Note} {n : Note} {key key' : String} {i i' j time time' : Nat}
  {deadline deadline' : Nat}

/-- One deadline stands for a key at most. -/
theorem Stands.unique (h : Stands notes key deadline) (h' : Stands notes key deadline') :
    deadline = deadline' :=
  (Note.armed.inj (Option.some.inj (h.symm.trans h'))).2

theorem stands_append_of_ne (hother : ∀ n ∈ more, n.key ≠ key) :
    Stands (notes ++ more) key deadline ↔ Stands notes key deadline := by
  have hnone : more.filter (fun n => n.key == key) = [] := by
    apply List.filter_eq_nil_iff.2
    intro n hn heq
    exact hother n hn (beq_iff_eq.1 heq)
  unfold Stands
  rw [List.filter_append, hnone, List.append_nil]

theorem stands_concat_self (hkey : n.key = key) :
    Stands (notes ++ [n]) key deadline ↔ n = .armed key deadline := by
  unfold Stands
  have hnote : [n].filter (fun n => n.key == key) = [n] :=
    List.filter_eq_self.2 fun n' hn' => beq_iff_eq.2 (List.mem_singleton.1 hn' ▸ hkey)
  rw [List.filter_append, hnote, List.getLast?_concat, Option.some_inj]

/-- Announcing some keys ends what stands for them and for no other key. -/
theorem stands_announcing {keys : List String} :
    Stands (notes ++ keys.map fun key => .announced key time) key deadline ↔
      Stands notes key deadline ∧ key ∉ keys := by
  by_cases hmem : key ∈ keys
  · refine iff_of_false (fun h => ?_) fun h => h.2 hmem
    have hsome : (keys.map fun key => Note.announced key time).filter (fun n => n.key == key) ≠ [] :=
      List.ne_nil_of_mem (List.mem_filter.2 ⟨List.mem_map_of_mem hmem, beq_self_eq_true key⟩)
    unfold Stands at h
    rw [List.filter_append, List.getLast?_append, List.getLast?_eq_some_getLast hsome,
      Option.some_or] at h
    have hlast := List.getLast_mem hsome
    rw [Option.some.inj h] at hlast
    obtain ⟨key', -, hannounced⟩ := List.mem_map.1 (List.mem_filter.1 hlast).1
    cases hannounced
  · rw [stands_append_of_ne]
    · exact (and_iff_left hmem).symm
    · intro n hn
      obtain ⟨key', hkey', rfl⟩ := List.mem_map.1 hn
      rintro rfl
      exact hmem hkey'

/-- The announcement at place `j` of some notes, with the deadline that stands for its key there. -/
structure Told (notes : List Note) (j : Nat) (key : String) (deadline time : Nat) : Prop where
  announced : notes[j]? = some (.announced key time)
  stands : Stands (notes.take j) key deadline

theorem told_append_of_lt (hj : j < notes.length) :
    Told (notes ++ more) j key deadline time ↔ Told notes j key deadline time := by
  have hnote : (notes ++ more)[j]? = notes[j]? := List.getElem?_append_left hj
  have htake : (notes ++ more).take j = notes.take j := List.take_append_of_le_length (Nat.le_of_lt hj)
  exact ⟨fun ⟨ha, hs⟩ => ⟨hnote ▸ ha, htake ▸ hs⟩, fun ⟨ha, hs⟩ => ⟨hnote ▸ ha, htake ▸ hs⟩⟩

/-- Notes that announce nothing add no announcement. -/
theorem getElem?_append_quiet (hquiet : ∀ n ∈ more, n.announced? = none)
    (h : (notes ++ more)[j]? = some (.announced key time)) : j < notes.length := by
  apply Nat.lt_of_not_le
  intro hj
  rw [List.getElem?_append_right hj] at h
  cases hquiet _ (List.mem_of_getElem? h)

theorem told_append_quiet (hquiet : ∀ n ∈ more, n.announced? = none) :
    Told (notes ++ more) j key deadline time ↔ Told notes j key deadline time := by
  constructor
  · intro h
    exact (told_append_of_lt (getElem?_append_quiet hquiet h.announced)).1 h
  · intro h
    exact (told_append_of_lt (List.getElem?_eq_some_iff.1 h.announced).1).2 h

/-- The keys that are announced together stand behind all notes before. -/
theorem getElem?_announcing (notes : List Note) (keys : List String) (time m : Nat) :
    (notes ++ keys.map fun key => .announced key time)[notes.length + m]? =
      keys[m]?.map fun key => .announced key time := by
  rw [List.getElem?_append_right (Nat.le_add_right _ _), Nat.add_sub_cancel_left, List.getElem?_map]

/-- Of keys that are announced together, each is announced with what stands for it before. -/
theorem told_announcing {keys : List String} {m : Nat} (hnodup : keys.Nodup) :
    Told (notes ++ keys.map fun key => .announced key time') (notes.length + m) key deadline time ↔
      keys[m]? = some key ∧ time = time' ∧ Stands notes key deadline := by
  have htake : (notes ++ keys.map fun key => Note.announced key time').take (notes.length + m) =
      notes ++ (keys.take m).map fun key => Note.announced key time' := by
    rw [List.take_append, List.take_of_length_le (Nat.le_add_right _ _), Nat.add_sub_cancel_left,
      List.map_take]
  have hfirst : keys[m]? = some key → key ∉ keys.take m := by
    intro hkey hmem
    obtain ⟨k, hk, hkey'⟩ := List.mem_take_iff_getElem.1 hmem
    have hearlier : keys[k]? = some key := List.getElem?_eq_some_iff.2 ⟨by omega, hkey'⟩
    have hplaces : k = m := (List.getElem?_inj (by omega) hnodup).1 (hearlier.trans hkey.symm)
    omega
  constructor
  · rintro ⟨hannounced, hstands⟩
    rw [getElem?_announcing, Option.map_eq_some_iff] at hannounced
    obtain ⟨key', hkey, heq⟩ := hannounced
    cases heq
    rw [htake, stands_announcing] at hstands
    exact ⟨hkey, rfl, hstands.1⟩
  · rintro ⟨hkey, rfl, hstands⟩
    refine ⟨?_, ?_⟩
    · rw [getElem?_announcing, hkey]
      rfl
    · rw [htake, stands_announcing]
      exact ⟨hstands, hfirst hkey⟩

/-- An announcement is of one arm only. -/
theorem IsOf.unique (h : IsOf notes i j key deadline time)
    (h' : IsOf notes i' j key' deadline' time') : i = i' ∧ key = key' ∧ deadline = deadline' := by
  obtain ⟨rfl, rfl⟩ := Note.announced.inj (Option.some.inj (h.announced.symm.trans h'.announced))
  have hplace : i = i' := by
    rcases Nat.lt_trichotomy i i' with hlt | heq | hgt
    · exact absurd h'.armed (h.last i' deadline' hlt h'.before)
    · exact heq
    · exact absurd h.armed (h'.last i deadline hgt h.before)
  subst hplace
  exact ⟨rfl, rfl, (Note.armed.inj (Option.some.inj (h.armed.symm.trans h'.armed))).2⟩

end Notes

/-! ## Stories -/

/-- What a story keeps up. Deadlines that were announced lie before those that stand. -/
structure Story.Kept (s : Story) : Prop where
  heard : s.timer.heard = true
  standing : ∀ key deadline,
    s.timer.armed.get? key = some deadline ↔ Stands s.notes key deadline
  received : s.taken ++ s.timer.announced = s.notes.filterMap Note.announced?
  told : ∀ j key time, s.notes[j]? = some (.announced key time) →
    ∃ deadline, Told s.notes j key deadline time
  due : ∀ {j key deadline time}, Told s.notes j key deadline time →
    deadline ≤ time ∧ time ≤ s.timer.clock
  ahead : ∀ {j key deadline time key' deadline'}, Told s.notes j key deadline time →
    Stands s.notes key' deadline' → deadline ≤ deadline'
  ordered : ∀ {j j' key key' deadline deadline' time time'}, Told s.notes j key deadline time →
    Told s.notes j' key' deadline' time' → j ≤ j' → deadline ≤ deadline'

namespace Story.Kept

variable {s : Story}

theorem start (clock : Nat) : Kept { timer := { clock := clock } } where
  heard := rfl
  standing := by
    intro key deadline
    exact iff_of_false (fun h => nomatch h) (fun h => nomatch h)
  received := rfl
  told := by
    intro j key time h
    cases h
  due := fun h => nomatch h.announced
  ahead := fun h => nomatch h.announced
  ordered := fun h => nomatch h.announced

/-- Notes that announce nothing and arm nothing for a time that has passed change nothing of what
was told. -/
theorem quietly (h : s.Kept) {t : Timer} {more : List Note} {taken : List String}
    (hquiet : ∀ n ∈ more, n.announced? = none) (hheard : t.heard = true)
    (hclock : s.timer.clock ≤ t.clock)
    (hstanding : ∀ key deadline, t.armed.get? key = some deadline ↔
      Stands (s.notes ++ more) key deadline)
    (hreceived : taken ++ t.announced = s.taken ++ s.timer.announced)
    (hlater : ∀ key deadline, Stands (s.notes ++ more) key deadline →
      Stands s.notes key deadline ∨ s.timer.clock ≤ deadline) :
    Kept ⟨t, s.notes ++ more, taken⟩ where
  heard := hheard
  standing := hstanding
  received := by
    rw [List.filterMap_append, List.filterMap_eq_nil_iff.2 hquiet, List.append_nil, hreceived]
    exact h.received
  told := by
    intro j key time hnote
    have hj := getElem?_append_quiet hquiet hnote
    obtain ⟨deadline, htold⟩ := h.told j key time (List.getElem?_append_left hj ▸ hnote)
    exact ⟨deadline, (told_append_quiet hquiet).2 htold⟩
  due := by
    intro j key deadline time htold
    obtain ⟨hdue, hpast⟩ := h.due ((told_append_quiet hquiet).1 htold)
    exact ⟨hdue, Nat.le_trans hpast hclock⟩
  ahead := by
    intro j key deadline time key' deadline' htold hstands
    have hold := (told_append_quiet hquiet).1 htold
    rcases hlater key' deadline' hstands with hstood | hfuture
    · exact h.ahead hold hstood
    · obtain ⟨hdue, hpast⟩ := h.due hold
      omega
  ordered := fun htold htold' hle =>
    h.ordered ((told_append_quiet hquiet).1 htold) ((told_append_quiet hquiet).1 htold') hle

theorem arm (h : s.Kept) (key : String) (delay : Nat) : (s.next (.arm key delay)).Kept := by
  have hstanding : ∀ key' deadline, (s.timer.arm key delay).armed.get? key' = some deadline ↔
      Stands (s.notes ++ [.armed key (s.timer.clock + delay)]) key' deadline := by
    intro key' deadline
    have hget : (s.timer.arm key delay).armed.get? key' =
        if key' = key then some (s.timer.clock + delay) else s.timer.armed.get? key' :=
      Dict.get?_insert _ _ _ _
    rw [hget]
    by_cases hkey : key' = key
    · subst hkey
      rw [if_pos rfl, Option.some_inj]
      refine Iff.trans ?_ (stands_concat_self rfl).symm
      rw [Note.armed.injEq]
      exact (and_iff_right rfl).symm
    · rw [if_neg hkey, stands_append_of_ne, h.standing]
      intro n hn heq
      rw [List.mem_singleton.1 hn] at heq
      exact hkey heq.symm
  refine h.quietly ?_ h.heard (Nat.le_refl _) hstanding rfl ?_
  · intro n hn
    rw [List.mem_singleton.1 hn]
    rfl
  · intro key' deadline hstands
    by_cases hkey : key' = key
    · subst hkey
      cases (stands_concat_self rfl).1 hstands
      exact .inr (Nat.le_add_right _ _)
    · refine .inl ((stands_append_of_ne ?_).1 hstands)
      intro n hn heq
      rw [List.mem_singleton.1 hn] at heq
      exact hkey heq.symm

theorem disarm (h : s.Kept) (key : String) : (s.next (.disarm key)).Kept := by
  have hother : ∀ key', key' ≠ key → ∀ n ∈ [Note.disarmed key], n.key ≠ key' := by
    intro key' hkey n hn heq
    rw [List.mem_singleton.1 hn] at heq
    exact hkey heq.symm
  have hstanding : ∀ key' deadline, (s.timer.disarm key).armed.get? key' = some deadline ↔
      Stands (s.notes ++ [.disarmed key]) key' deadline := by
    intro key' deadline
    rw [armed_disarm]
    by_cases hkey : key' = key
    · subst hkey
      rw [if_pos rfl]
      refine Iff.trans ?_ (stands_concat_self rfl).symm
      exact iff_of_false (fun h => nomatch h) (fun h => nomatch h)
    · rw [if_neg hkey, stands_append_of_ne (hother key' hkey), h.standing]
  refine h.quietly ?_ h.heard (Nat.le_refl _) hstanding rfl ?_
  · intro n hn
    rw [List.mem_singleton.1 hn]
    rfl
  · intro key' deadline hstands
    by_cases hkey : key' = key
    · subst hkey
      cases (stands_concat_self rfl).1 hstands
    · exact .inl ((stands_append_of_ne (hother key' hkey)).1 hstands)

theorem unnoted (h : s.Kept) {t : Timer} {taken : List String} (hheard : t.heard = true)
    (hclock : s.timer.clock ≤ t.clock) (harmed : t.armed = s.timer.armed)
    (hreceived : taken ++ t.announced = s.taken ++ s.timer.announced) :
    Kept ⟨t, s.notes ++ [], taken⟩ := by
  refine h.quietly ?_ hheard hclock ?_ hreceived ?_
  · intro n hn
    cases hn
  · intro key deadline
    rw [harmed, List.append_nil]
    exact h.standing key deadline
  · intro key deadline hstands
    rw [List.append_nil] at hstands
    exact .inl hstands

/-- What a sweep announces is what stands for a deadline that has come. -/
theorem mem_fresh_iff (h : s.Kept) {key : String} :
    key ∈ s.timer.fresh ↔ ∃ deadline, Stands s.notes key deadline ∧ deadline ≤ s.timer.clock := by
  rw [mem_fresh h.heard]
  simp only [h.standing]

/-- What a sweep leaves is what stands for a later deadline. -/
theorem armed_sweep_iff (h : s.Kept) {key : String} {deadline : Nat} :
    s.timer.sweep.armed.get? key = some deadline ↔
      Stands s.notes key deadline ∧ s.timer.clock < deadline := by
  rw [armed_sweep, Option.filter_eq_some_iff, h.standing, decide_eq_true_iff]

theorem sweeps (h : s.Kept) : SweepsWell s.notes s.timer where
  heard := by
    rw [fresh_eq h.heard]
    unfold Timer.sweep
    rw [h.heard]
    rfl
  exact key := h.mem_fresh_iff
  once := nodup_fresh h.heard
  number := by
    rw [fresh_eq h.heard, List.length_map]
  ordered := (ordered_fresh h.heard).imp fun hab deadline deadline' hstands hstands' =>
    hab deadline deadline' ((h.standing _ _).2 hstands) ((h.standing _ _).2 hstands')
  pending key deadline := h.armed_sweep_iff

/-- An announcement of a story that a sweep continues is an old one, or the sweep has made it. -/
theorem told_sweep (h : s.Kept) {j : Nat} {key : String} {deadline time : Nat}
    (htold : Told (s.next .sweep).notes j key deadline time) :
    (j < s.notes.length ∧ Told s.notes j key deadline time) ∨
      ∃ m, j = s.notes.length + m ∧ s.timer.fresh[m]? = some key ∧ time = s.timer.clock ∧
        Stands s.notes key deadline ∧ deadline ≤ s.timer.clock := by
  by_cases hj : j < s.notes.length
  · exact .inl ⟨hj, (told_append_of_lt hj).1 htold⟩
  · obtain ⟨m, rfl⟩ := Nat.exists_eq_add_of_le (Nat.le_of_not_lt hj)
    obtain ⟨hkey, htime, hstands⟩ := (told_announcing (nodup_fresh h.heard)).1 htold
    obtain ⟨deadline', hstands', hdue⟩ := h.mem_fresh_iff.1 (List.mem_of_getElem? hkey)
    rw [hstands'.unique hstands] at hdue
    exact .inr ⟨m, rfl, hkey, htime, hstands, hdue⟩

theorem stands_sweep (h : s.Kept) {key : String} {deadline : Nat} :
    Stands (s.next .sweep).notes key deadline ↔
      Stands s.notes key deadline ∧ s.timer.clock < deadline := by
  have hnew : Stands (s.next .sweep).notes key deadline ↔
      Stands s.notes key deadline ∧ key ∉ s.timer.fresh := stands_announcing
  refine hnew.trans (and_congr_right fun hstands => ?_)
  rw [h.mem_fresh_iff]
  constructor
  · intro hnot
    exact Nat.lt_of_not_le fun hdue => hnot ⟨deadline, hstands, hdue⟩
  · rintro hlater ⟨deadline', hstands', hdue⟩
    rw [hstands'.unique hstands] at hdue
    omega

theorem sweep (h : s.Kept) : (s.next .sweep).Kept where
  heard := h.heard
  standing := by
    intro key deadline
    exact h.armed_sweep_iff.trans h.stands_sweep.symm
  received := by
    have hnew : (s.timer.fresh.map fun key => Note.announced key s.timer.clock).filterMap
        Note.announced? = s.timer.fresh := by
      rw [List.filterMap_map]
      exact List.filterMap_some
    show s.taken ++ s.timer.sweep.announced = (s.notes ++ _).filterMap _
    rw [List.filterMap_append, ← h.received, h.sweeps.heard, List.append_assoc]
    exact congrArg (fun keys => s.taken ++ (s.timer.announced ++ keys)) hnew.symm
  told := by
    intro j key time hnote
    by_cases hj : j < s.notes.length
    · have hold : s.notes[j]? = some (.announced key time) := List.getElem?_append_left hj ▸ hnote
      obtain ⟨deadline, htold⟩ := h.told j key time hold
      exact ⟨deadline, (told_append_of_lt hj).2 htold⟩
    · obtain ⟨m, rfl⟩ := Nat.exists_eq_add_of_le (Nat.le_of_not_lt hj)
      have hnew := (getElem?_announcing s.notes s.timer.fresh s.timer.clock m).symm.trans hnote
      obtain ⟨key', hkey, heq⟩ := Option.map_eq_some_iff.1 hnew
      cases heq
      obtain ⟨deadline, hstands, -⟩ := h.mem_fresh_iff.1 (List.mem_of_getElem? hkey)
      exact ⟨deadline, (told_announcing (nodup_fresh h.heard)).2 ⟨hkey, rfl, hstands⟩⟩
  due := by
    intro j key deadline time htold
    rcases h.told_sweep htold with ⟨-, hold⟩ | ⟨m, -, -, rfl, -, hdue⟩
    · exact h.due hold
    · exact ⟨hdue, Nat.le_refl _⟩
  ahead := by
    intro j key deadline time key' deadline' htold hstands'
    obtain ⟨hstood, hlater⟩ := h.stands_sweep.1 hstands'
    rcases h.told_sweep htold with ⟨-, hold⟩ | ⟨m, -, -, -, -, hdue⟩
    · exact h.ahead hold hstood
    · omega
  ordered := by
    intro j j' key key' deadline deadline' time time' htold htold' hle
    rcases h.told_sweep htold with ⟨hj, hold⟩ | ⟨m, rfl, hkey, -, hstands, -⟩
    · rcases h.told_sweep htold' with ⟨-, hold'⟩ | ⟨m', rfl, -, -, hstands', -⟩
      · exact h.ordered hold hold' hle
      · exact h.ahead hold hstands'
    · rcases h.told_sweep htold' with ⟨hj', -⟩ | ⟨m', rfl, hkey', -, hstands', -⟩
      · omega
      · obtain ⟨hm, rfl⟩ := List.getElem?_eq_some_iff.1 hkey
        obtain ⟨hm', rfl⟩ := List.getElem?_eq_some_iff.1 hkey'
        rcases Nat.lt_or_eq_of_le (Nat.le_of_add_le_add_left hle) with hlt | rfl
        · rcases List.pairwise_iff_getElem.1 h.sweeps.ordered m m' hm hm' hlt deadline deadline'
            hstands hstands' with hless | ⟨hequal, -⟩
          · exact Nat.le_of_lt hless
          · exact Nat.le_of_eq hequal
        · exact Nat.le_of_eq (hstands.unique hstands')

theorem next (h : s.Kept) (m : Move) : (s.next m).Kept := by
  cases m with
  | arm key delay => exact h.arm key delay
  | disarm key => exact h.disarm key
  | advance duration => exact h.unnoted h.heard (Nat.le_add_right _ _) rfl rfl
  | sweep => exact h.sweep
  | collect => exact h.unnoted h.heard (Nat.le_refl _) rfl (List.append_nil _)

theorem tell (clock : Nat) (moves : List Move) : (Story.tell clock moves).Kept := by
  have hfold : ∀ {s : Story}, s.Kept → (moves.foldl Story.next s).Kept := by
    induction moves with
    | nil => exact id
    | cons m rest ih => exact fun hs => ih (hs.next m)
  exact hfold (start clock)

end Story.Kept

end Timer

end Gatehouse
