import Gatehouse.Proofs.Timer

/-!
# A timer seen through some of its keys

Whoever looks at some keys of a timer only sees a timer: what happens to one of these keys happens
to what is seen, and what happens to another key goes unseen. A sweep announces the keys in an order
that does not depend on who else is armed, because the sort behind it is stable.
-/

namespace Gatehouse

section Stable

variable {α : Type} {le : α → α → Bool}

/-- In a sorted list, the elements before `a` that do not reach up to it are told by their order. -/
theorem before_eq_takeWhile {a : α} {before after : List α} (hbefore : ∀ b ∈ before, (!le a b) = true)
    (hafter : ∀ b ∈ after, le a b = true) :
    (before ++ after).takeWhile (fun b => !le a b) = before := by
  rw [List.takeWhile_append_of_pos hbefore]
  cases after with
  | nil => exact List.append_nil _
  | cons b rest =>
      have hb : ¬ (!le a b) = true := by
        rw [hafter b List.mem_cons_self]
        decide
      rw [List.takeWhile_cons_of_neg (p := fun b => !le a b) hb, List.append_nil]

/-- A stable sort of some elements of a list is that of the list, looked at where they are. -/
theorem filter_mergeSort (htrans : ∀ a b c, le a b = true → le b c = true → le a c = true)
    (htotal : ∀ a b, (le a b || le b a) = true) (p : α → Bool) (l : List α) :
    (l.mergeSort le).filter p = (l.filter p).mergeSort le := by
  induction l with
  | nil => rw [List.filter_nil, List.mergeSort_nil, List.filter_nil]
  | cons a rest ih =>
      obtain ⟨before, after, hsorted, hrest, hbefore⟩ := List.mergeSort_cons htrans htotal a rest
      rw [hrest, List.filter_append] at ih
      rw [hsorted, List.filter_append]
      cases ha : p a with
      | false =>
          have hskip : ¬ p a = true := by rw [ha]; decide
          rw [List.filter_cons_of_neg hskip, List.filter_cons_of_neg hskip]
          exact ih
      | true =>
          rw [List.filter_cons_of_pos ha, List.filter_cons_of_pos ha]
          obtain ⟨before', after', hsorted', hrest', hbefore'⟩ :=
            List.mergeSort_cons htrans htotal a (rest.filter p)
          rw [hrest'] at ih
          rw [hsorted']
          -- what follows `a` in a sorted list reaches up to it
          have hafter : ∀ b ∈ after.filter p, le a b = true := by
            intro b hb
            have hordered := List.pairwise_mergeSort htrans htotal (a :: rest)
            rw [hsorted, List.pairwise_append, List.pairwise_cons] at hordered
            exact hordered.2.1.1 b (List.mem_filter.1 hb).1
          have hafter' : ∀ b ∈ after', le a b = true := by
            intro b hb
            have hordered := List.pairwise_mergeSort htrans htotal (a :: rest.filter p)
            rw [hsorted', List.pairwise_append, List.pairwise_cons] at hordered
            exact hordered.2.1.1 b hb
          have hsame : before.filter p = before' := by
            rw [← before_eq_takeWhile (fun b hb => hbefore b (List.mem_filter.1 hb).1) hafter, ih]
            exact before_eq_takeWhile hbefore' hafter'
          rw [hsame] at ih ⊢
          rw [List.append_cancel_left ih]

end Stable

namespace Timer

/-- A timer as it looks to someone who sees only some keys. -/
def only (p : String → Bool) (t : Timer) : Timer :=
  { t with
    armed := t.armed.filter fun key _ => p key
    announced := t.announced.filter p }

variable {p : String → Bool} {t t' : Timer} {key : String} {seconds : UInt64}

/-- Timers are equal if they agree on everything. -/
theorem ext_armed (hclock : t.clock = t'.clock)
    (harmed : ∀ key, t.armed.get? key = t'.armed.get? key) (hannounced : t.announced = t'.announced)
    (hheard : t.heard = t'.heard) : t = t' := by
  cases t
  cases t'
  cases hclock
  cases hannounced
  cases hheard
  exact congrArg (fun armed => Timer.mk _ armed _ _) (Dict.ext_get? harmed)

theorem armed_only (p : String → Bool) (t : Timer) (key : String) :
    (t.only p).armed.get? key = if p key then t.armed.get? key else none := by
  have hfilter : (t.only p).armed.get? key = (t.armed.get? key).filter fun _ => p key :=
    Dict.get?_filter _ _ _
  rw [hfilter]
  cases hp : p key with
  | true => cases t.armed.get? key with | none => rfl | some deadline => rfl
  | false => cases t.armed.get? key with | none => rfl | some deadline => rfl

/-- What happens to a key that is seen is seen. -/
theorem only_armSeconds (hkey : p key = true) :
    (t.armSeconds key seconds).only p = (t.only p).armSeconds key seconds := by
  refine ext_armed rfl (fun key' => ?_) rfl rfl
  rw [armed_only, armed_armSeconds, armed_armSeconds, armed_only]
  by_cases h : key' = key
  · subst h
    rw [if_pos hkey, if_pos rfl, if_pos rfl]
    rfl
  · rw [if_neg h, if_neg h]

theorem only_armSeconds_of_hidden (hkey : p key = false) :
    (t.armSeconds key seconds).only p = t.only p := by
  refine ext_armed rfl (fun key' => ?_) rfl rfl
  rw [armed_only, armed_armSeconds, armed_only]
  by_cases h : key' = key
  · subst h
    rw [hkey]
    rfl
  · rw [if_neg h]

theorem only_disarm (hkey : p key = true) : (t.disarm key).only p = (t.only p).disarm key := by
  refine ext_armed rfl (fun key' => ?_) rfl rfl
  rw [armed_only, armed_disarm, armed_disarm, armed_only]
  by_cases h : key' = key
  · subst h
    rw [if_pos hkey, if_pos rfl, if_pos rfl]
  · rw [if_neg h, if_neg h]

theorem only_disarm_of_hidden (hkey : p key = false) : (t.disarm key).only p = t.only p := by
  refine ext_armed rfl (fun key' => ?_) rfl rfl
  rw [armed_only, armed_disarm, armed_only]
  by_cases h : key' = key
  · subst h
    rw [hkey]
    rfl
  · rw [if_neg h]

/-- A key that is seen is handed over to whoever sees it. -/
theorem only_next {rest : List String} (hannounced : t.announced = key :: rest)
    (hkey : p key = true) : t.next.only p = (t.only p).next := by
  have hseen : t.announced.filter p = key :: rest.filter p := by
    rw [hannounced, List.filter_cons_of_pos hkey]
  unfold only next
  rw [hseen, hannounced]
  rfl

theorem only_next_of_hidden {rest : List String} (hannounced : t.announced = key :: rest)
    (hkey : p key = false) : t.next.only p = t.only p := by
  have hseen : t.announced.filter p = rest.filter p := by
    rw [hannounced, List.filter_cons_of_neg (by rw [hkey]; decide)]
  unfold only next
  rw [hseen, hannounced]
  rfl

theorem deadlines_trans (a b c : String × Nat) (hab : decide (a.2 ≤ b.2) = true)
    (hbc : decide (b.2 ≤ c.2) = true) : decide (a.2 ≤ c.2) = true :=
  decide_eq_true (Nat.le_trans (of_decide_eq_true hab) (of_decide_eq_true hbc))

theorem deadlines_total (a b : String × Nat) : (decide (a.2 ≤ b.2) || decide (b.2 ≤ a.2)) = true := by
  rw [Bool.or_eq_true, decide_eq_true_iff, decide_eq_true_iff]
  exact Nat.le_total a.2 b.2

theorem due_only : (t.only p).due = t.due.filter fun e => p e.1 := by
  have hfilter : (t.only p).armed.toList = t.armed.toList.filter fun e => p e.1 := rfl
  unfold due
  rw [filter_mergeSort deadlines_trans deadlines_total, hfilter, List.filter_filter, List.filter_filter]
  simp only [Bool.and_comm]
  rfl

/-- A sweep announces what is seen in the order in which it is seen. -/
theorem only_sweep : t.sweep.only p = (t.only p).sweep := by
  apply ext_armed
  · rfl
  · intro key
    rw [armed_only, armed_sweep, armed_sweep, armed_only]
    cases p key with
    | true => rfl
    | false => rfl
  · have hdue : (t.due.map (·.1)).filter p = (t.only p).due.map (·.1) := by
      rw [due_only, List.filter_map]
      rfl
    unfold sweep only
    cases hheard : t.heard with
    | true =>
        dsimp only
        rw [if_pos rfl, if_pos rfl, List.filter_append, hdue]
        unfold only
        rw [hheard]
    | false => rfl
  · rfl

/-- Arming the keys that are seen, each after the same wait, is seen as arming them. -/
theorem only_armEach {wait wait' : String → UInt64} {keys keys' : List String}
    (hkeys : ∀ key, key ∈ keys' ↔ p key = true ∧ key ∈ keys)
    (hwait : ∀ key, p key = true → wait' key = wait key) :
    (t.armEach wait keys).only p = (t.only p).armEach wait' keys' := by
  apply ext_armed
  · rw [clock_armEach]
    exact clock_armEach wait keys
  · intro key
    rw [armed_only, armed_armEach, armed_armEach, armed_only]
    by_cases hp : p key = true
    · rw [if_pos hp, if_pos hp, hwait key hp]
      by_cases hmem : key ∈ keys
      · rw [if_pos hmem, if_pos ((hkeys key).2 ⟨hp, hmem⟩)]
        rfl
      · rw [if_neg hmem, if_neg fun hseen => hmem ((hkeys key).1 hseen).2]
    · rw [if_neg hp, if_neg hp, if_neg fun hseen => hp ((hkeys key).1 hseen).1]
  · rw [announced_armEach]
    exact congrArg (List.filter p) (announced_armEach wait keys)
  · rw [heard_armEach]
    exact heard_armEach wait keys

end Timer

end Gatehouse
