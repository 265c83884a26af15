import Gatehouse.Dict.Lemmas
import Gatehouse.Timer

/-!
# Wake-ups that are on their way

A wake-up for a key is on its way if a deadline is armed for the key or the key is announced. A
sweep turns the one into the other and loses none.
-/

namespace Gatehouse

namespace Timer

variable (t : Timer) (key key' : String) (seconds : UInt64)

@[simp] theorem armed_armSeconds :
    (t.armSeconds key seconds).armed.get? key' =
      if key' = key then some (t.clock + seconds.toNat * 1000) else t.armed.get? key' :=
  Dict.get?_insert t.armed key key' _

@[simp] theorem clock_armSeconds : (t.armSeconds key seconds).clock = t.clock := rfl

@[simp] theorem armed_disarm :
    (t.disarm key).armed.get? key' = if key' = key then none else t.armed.get? key' :=
  Dict.get?_erase t.armed key key'

theorem armed_sweep :
    t.sweep.armed.get? key = (t.armed.get? key).filter fun deadline => t.clock < deadline :=
  Dict.get?_filter t.armed _ key

/-- Hand over the key that has waited longest. -/
def next (t : Timer) : Timer := { t with announced := t.announced.tail }

/-- A wake-up for a key is on its way: it is armed for a deadline within a limit, or announced. -/
def Awake (t : Timer) (key : String) (limit : Nat) : Prop :=
  (∃ deadline, t.armed.get? key = some deadline ∧ deadline ≤ limit) ∨ key ∈ t.announced

/-- Wake up for some keys, each after its own number of seconds. -/
def armEach (t : Timer) (wait : String → UInt64) (keys : List String) : Timer :=
  keys.foldl (fun t key => t.armSeconds key (wait key)) t

/-- A timer is quiet if every deadline is still to come. -/
def Quiet (t : Timer) : Prop :=
  ∀ key deadline, t.armed.get? key = some deadline → t.clock < deadline

/-- A timer is rearmed for a key if it wakes up for the key after some seconds, and all else is as it
was. -/
structure Rearmed (key : String) (seconds : Nat) (t t' : Timer) : Prop where
  armed : t'.armed.get? key = some (t.clock + seconds * 1000)
  others : ∀ key', key' ≠ key → t'.armed.get? key' = t.armed.get? key'
  clock : t'.clock = t.clock
  announced : t'.announced = t.announced
  heard : t'.heard = t.heard

variable {t key key' seconds} {limit limit' : Nat}

/-- An arm wakes up for its key and for nothing else. -/
theorem rearmed_armSeconds : Rearmed key seconds.toNat t (t.armSeconds key seconds) where
  armed := by rw [armed_armSeconds, if_pos rfl]
  others := by
    intro key' hne
    rw [armed_armSeconds, if_neg hne]
  clock := rfl
  announced := rfl
  heard := rfl

theorem Awake.mono (h : t.Awake key limit) (hle : limit ≤ limit') : t.Awake key limit' := by
  rcases h with ⟨deadline, harmed, hdeadline⟩ | hannounced
  · exact .inl ⟨deadline, harmed, Nat.le_trans hdeadline hle⟩
  · exact .inr hannounced

theorem awake_armSeconds (h : t.clock + seconds.toNat * 1000 ≤ limit) :
    (t.armSeconds key seconds).Awake key limit :=
  .inl ⟨_, by rw [armed_armSeconds, if_pos rfl], h⟩

theorem awake_armSeconds_of_ne (h : t.Awake key' limit) (hne : key' ≠ key) :
    (t.armSeconds key seconds).Awake key' limit := by
  rcases h with ⟨deadline, harmed, hdeadline⟩ | hannounced
  · refine .inl ⟨deadline, ?_, hdeadline⟩
    rw [armed_armSeconds, if_neg hne, harmed]
  · exact .inr hannounced

theorem awake_disarm_of_ne (h : t.Awake key' limit) (hne : key' ≠ key) :
    (t.disarm key).Awake key' limit := by
  rcases h with ⟨deadline, harmed, hdeadline⟩ | hannounced
  · refine .inl ⟨deadline, ?_, hdeadline⟩
    rw [armed_disarm, if_neg hne, harmed]
  · exact .inr hannounced

@[simp] theorem clock_armEach (wait : String → UInt64) (keys : List String) :
    (t.armEach wait keys).clock = t.clock := by
  induction keys generalizing t with
  | nil => rfl
  | cons key rest ih => exact ih

@[simp] theorem heard_armEach (wait : String → UInt64) (keys : List String) :
    (t.armEach wait keys).heard = t.heard := by
  induction keys generalizing t with
  | nil => rfl
  | cons key rest ih => exact ih

@[simp] theorem announced_armEach (wait : String → UInt64) (keys : List String) :
    (t.armEach wait keys).announced = t.announced := by
  induction keys generalizing t with
  | nil => rfl
  | cons key rest ih => exact ih

theorem armed_armEach (wait : String → UInt64) (keys : List String) (key : String) :
    (t.armEach wait keys).armed.get? key =
      if key ∈ keys then some (t.clock + (wait key).toNat * 1000) else t.armed.get? key := by
  induction keys generalizing t with
  | nil => rfl
  | cons first rest ih =>
      have hstep : t.armEach wait (first :: rest) =
          (t.armSeconds first (wait first)).armEach wait rest := rfl
      rw [hstep, ih, clock_armSeconds, armed_armSeconds]
      by_cases hrest : key ∈ rest
      · rw [if_pos hrest, if_pos (List.mem_cons_of_mem first hrest)]
      · rw [if_neg hrest]
        by_cases hfirst : key = first
        · subst hfirst
          rw [if_pos rfl, if_pos List.mem_cons_self]
        · rw [if_neg hfirst, if_neg]
          intro hmem
          exact (List.mem_cons.1 hmem).elim hfirst hrest

/-- Every wake-up whose deadline has come is announced by a sweep. -/
theorem mem_announced_sweep {deadline : Nat} (hheard : t.heard = true)
    (harmed : t.armed.get? key = some deadline) (hdue : deadline ≤ t.clock) :
    key ∈ t.sweep.announced := by
  simp only [sweep, hheard, ↓reduceIte]
  apply List.mem_append_right
  apply List.mem_map.2
  refine ⟨(key, deadline), ?_, rfl⟩
  rw [due, List.mem_mergeSort, List.mem_filter]
  exact ⟨Dict.get?_eq_some_iff.1 harmed, decide_eq_true hdue⟩

theorem subset_announced_sweep (h : key ∈ t.announced) : key ∈ t.sweep.announced := by
  unfold sweep
  cases t.heard with
  | true => exact List.mem_append_left _ h
  | false => exact h

/-- A sweep loses no wake-up. -/
theorem awake_sweep (h : t.Awake key limit) (hheard : t.heard = true) :
    t.sweep.Awake key limit := by
  rcases h with ⟨deadline, harmed, hdeadline⟩ | hannounced
  · by_cases hdue : deadline ≤ t.clock
    · exact .inr (mem_announced_sweep hheard harmed hdue)
    · refine .inl ⟨deadline, ?_, hdeadline⟩
      rw [armed_sweep, harmed, Option.filter, if_pos (decide_eq_true (Nat.lt_of_not_le hdue))]
  · exact .inr (subset_announced_sweep hannounced)

/-- A timer is quiet after a sweep. -/
theorem quiet_sweep : t.sweep.Quiet := by
  intro key deadline harmed
  rw [armed_sweep] at harmed
  obtain ⟨-, hlater⟩ := Option.filter_eq_some_iff.1 harmed
  exact of_decide_eq_true hlater

theorem quiet_armSeconds (h : t.Quiet) (hseconds : 0 < seconds.toNat) :
    (t.armSeconds key seconds).Quiet := by
  intro key' deadline harmed
  rw [armed_armSeconds] at harmed
  split at harmed
  · cases harmed
    rw [clock_armSeconds]
    omega
  · exact h key' deadline harmed

/-- Only the key that is handed over can lose its announcement. -/
theorem awake_next_of_ne {rest : List String} (hannounced : t.announced = key :: rest)
    (h : t.Awake key' limit) (hne : key' ≠ key) : t.next.Awake key' limit := by
  rcases h with harmed | hmem
  · exact .inl harmed
  · right
    rw [hannounced] at hmem
    rw [next, hannounced]
    exact (List.mem_cons.1 hmem).resolve_left hne

end Timer

end Gatehouse
