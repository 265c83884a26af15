import Gatehouse.Proofs.Fleet
import Gatehouse.Proofs.Ledger.Basic

/-!
# Every opened fragment is stored or was emitted once

The ledger of a run is kept next to the run. A visit or a wake-up changes the store and the events
as the ledger of its answer says, so the stored fragments are those of the current spans, and the
emitted records are those of the closed spans.
-/

namespace Gatehouse

/-- A desk is in balance with a ledger if it stores the fragments of the current spans, and has
emitted the records of the closed ones after some earlier events. -/
structure Balanced (w : Windows) (earlier : List Event) (log : List Turn) (l : Ledger) (d : Desk) :
    Prop where
  accounts : l.Accounts log
  stored : ∀ key, d.look key = (l.current.get? key).map fun s => (s.fragment w).encode
  emitted : d.events = earlier ++ l.closed.map fun s => .session (s.record w)

namespace Balanced

variable {w : Windows} {earlier : List Event} {log : List Turn} {l : Ledger} {d d' : Desk}
variable {t : Turn} {v : VisitOf} {a : VisitAnswer} {key : String} {now : UInt64}
variable {r : Option SessionRecord} {f : Fragment}

/-- Balance depends on what is stored and emitted alone. -/
theorem congr (h : Balanced w earlier log l d) (hlook : ∀ key, d'.look key = d.look key)
    (hevents : d'.events = d.events) : Balanced w earlier log l d' where
  accounts := h.accounts
  stored := fun key => (hlook key).trans (h.stored key)
  emitted := hevents.trans h.emitted

/-- The open fragments are those of the current spans. -/
theorem fragment?_eq (h : Balanced w earlier log l d) (key : String) :
    d.fragment? key = (l.current.get? key).map (Span.fragment w) := by
  rw [Desk.fragment?, h.stored]
  cases l.current.get? key with
  | none => rfl
  | some s => exact Fragment.decode?_encode (s.fragment w)

theorem current_of_fragment? (h : Balanced w earlier log l d) (hopen : d.fragment? key = some f) :
    ∃ s, l.current.get? key = some s ∧ s.fragment w = f := by
  rw [h.fragment?_eq] at hopen
  exact Option.map_eq_some_iff.1 hopen

theorem current_of_no_fragment? (h : Balanced w earlier log l d) (hnone : d.fragment? key = none) :
    l.current.get? key = none := by
  rw [h.fragment?_eq] at hnone
  exact Option.map_eq_none_iff.1 hnone

theorem skip (h : Balanced w earlier log l d) (hopening : t.opening? = none)
    (happlied : t.applied? = none) : Balanced w earlier (log ++ [t]) l.turnOver d where
  accounts := h.accounts.skip hopening happlied
  stored := h.stored
  emitted := h.emitted

theorem begin (h : Balanced w earlier log l d) (hopening : t.opening? = some v)
    (happlied : t.applied? = none) (hnone : d.fragment? v.key = none) (window : UInt64) :
    Balanced w earlier (log ++ [t]) (l.begin v).turnOver
      (d.keeping v.key (v.opening w) window) where
  accounts := h.accounts.begin hopening happlied (h.current_of_no_fragment? hnone)
  stored := by
    intro key
    rw [Desk.look_keeping, h.stored, h.accounts.current_begin]
    split
    · rfl
    · rfl
  emitted := h.emitted

theorem close (h : Balanced w earlier log l d) (hopen : d.fragment? key = some f) :
    Balanced w earlier log (l.close key) ((d.without key).emit (.session f.finish)) := by
  obtain ⟨s, hs, rfl⟩ := h.current_of_fragment? hopen
  refine ⟨h.accounts.close hs, ?_, ?_⟩
  · intro key'
    rw [Desk.look_emit, Desk.look_without, h.stored, Ledger.Accounts.close_eq hs]
    simp only [Dict.get?_erase]
    split
    · rfl
    · rfl
  · rw [Desk.events_emit, Desk.events_without, h.emitted, Ledger.Accounts.close_eq hs,
      List.map_append, List.append_assoc]
    rfl

theorem extend (h : Balanced w earlier log l d) (hopen : d.fragment? v.key = some f)
    (hreport : v.visit.isReport = true) (window : UInt64) :
    Balanced w earlier (log ++ [.visit v (.reported .applied)]) (l.extend v).turnOver
      (d.keeping v.key (v.fold w f) window) := by
  obtain ⟨s, hs, rfl⟩ := h.current_of_fragment? hopen
  refine ⟨h.accounts.extend hs hreport, ?_, ?_⟩
  · intro key'
    rw [Desk.look_keeping, h.stored, Ledger.Accounts.current_extend hs]
    split
    · rw [Option.map_some, Span.fragment_add]
    · rfl
  · rw [Ledger.Accounts.extend_eq hs]
    exact h.emitted

/-- A visit keeps a desk in balance with the ledger that notes it. -/
theorem visit (h : Balanced w earlier log l d) (hvisit : Desk.Visits w v d a d') :
    Balanced w earlier (log ++ [.visit v a]) (l.note (.visit v a)) d' := by
  cases hvisit with
  | failed e hdown => exact h.skip rfl rfl
  | opened hconnect hnone => exact h.begin rfl rfl hnone _
  | @reopened f hconnect hopen =>
      have hclosed := h.close hopen
      have hnone : ((d.without v.key).emit (.session f.finish)).fragment? v.key = none := by
        rw [Desk.fragment?, Desk.look_emit, Desk.look_without, if_pos rfl]
        rfl
      apply (hclosed.begin rfl rfl hnone (v.visit.window w)).congr
      · intro key
        simp only [Desk.look_emit, Desk.look_keeping, Desk.look_without]
        split
        · rfl
        · rfl
      · rfl
  | openedPartial hreport hnone => exact h.begin rfl rfl hnone _
  | applied hreport hopen haccepts => exact h.extend hopen hreport _
  | duplicate hreport hopen haccepts => exact h.skip rfl rfl

/-- A wake-up keeps a desk in balance with the ledger that notes it. -/
theorem wake (h : Balanced w earlier log l d) (hwake : Desk.Wakes key now d r d') :
    Balanced w earlier (log ++ [.wake key (.ok r)]) (l.note (.wake key (.ok r))) d' := by
  cases hwake with
  | ignored hfragment hregion => exact h.skip rfl rfl
  | absent hlook => exact h.skip rfl rfl
  | @unreadable bytes hfragment hlook hdecode =>
      -- every stored value is the form of a fragment
      have hnone : d.fragment? key = none := by rw [Desk.fragment?, hlook]; exact hdecode
      rw [h.stored, h.current_of_no_fragment? hnone] at hlook
      cases hlook
  | flushed hfragment hopen hdue => exact (h.close hopen).skip rfl rfl
  | early hfragment hopen hdue =>
      apply (h.skip rfl rfl).congr
      · intro key'
        rfl
      · rfl
  | @stale bytes hregion hlook hleft =>
      -- nothing is stored under the key of a region entry
      rw [h.stored] at hlook
      obtain ⟨s, hs, -⟩ := Option.map_eq_some_iff.1 hlook
      have hfragment := h.accounts.isFragmentKey_of_current hs
      rw [Desk.isFragmentKey_of_isRegionKey hregion] at hfragment
      cases hfragment
  | fresh hregion hlook hleft =>
      apply (h.skip rfl rfl).congr
      · intro key'
        rfl
      · rfl

end Balanced

namespace Desk

variable {w : Windows} {d d' : Desk} {v : VisitOf} {a : VisitAnswer} {key : String} {now : UInt64}
variable {r : Option SessionRecord}

/-- A visit emits the record that its answer hands back, and nothing else. -/
theorem events_of_visits (h : Visits w v d a d') :
    d'.events = d.events ++ (Turn.visit v a).emitted := by
  cases h with
  | failed e hdown => exact (List.append_nil d.events).symm
  | opened hconnect hnone => exact (List.append_nil d.events).symm
  | reopened hconnect hopen => rfl
  | openedPartial hreport hnone => exact (List.append_nil d.events).symm
  | applied hreport hopen haccepts => exact (List.append_nil d.events).symm
  | duplicate hreport hopen haccepts => exact (List.append_nil d.events).symm

/-- A wake-up emits the record that its answer hands back, and nothing else. -/
theorem events_of_wakes (h : Wakes key now d r d') :
    d'.events = d.events ++ (Turn.wake key (.ok r)).emitted := by
  cases h with
  | flushed hfragment hopen hdue => rfl
  | ignored hfragment hregion => exact (List.append_nil d.events).symm
  | absent hlook => exact (List.append_nil d.events).symm
  | unreadable hfragment hlook hdecode => exact (List.append_nil d.events).symm
  | early hfragment hopen hdue => exact (List.append_nil d.events).symm
  | stale hregion hlook hleft => exact (List.append_nil d.events).symm
  | fresh hregion hlook hleft => exact (List.append_nil d.events).symm

end Desk

namespace Turn

/-- Every record that a log hands back is the record of the span that ran up to then under the key
of its turn. -/
def Told (w : Windows) (log : List Turn) : Prop :=
  ∀ m t r, log[m]? = some t → t.record? = some r →
    ∃ s : Span, s.key = t.key ∧ s.Runs (log.take m) ∧ r = s.record w

theorem told_nil (w : Windows) : Told w [] := by
  intro m t r ht
  cases ht

theorem told_concat {w : Windows} {log : List Turn} {t : Turn} (h : Told w log)
    (hlast : ∀ r, t.record? = some r → ∃ s : Span, s.key = t.key ∧ s.Runs log ∧ r = s.record w) :
    Told w (log ++ [t]) := by
  intro m t' r ht' hr
  rcases getElem?_concat_cases ht' with ⟨hm, hold⟩ | ⟨rfl, rfl⟩
  · rw [List.take_append_of_le_length (Nat.le_of_lt hm)]
    exact h m t' r hold hr
  · rw [List.take_left]
    exact hlast r hr

end Turn

namespace Balanced

variable {w : Windows} {earlier : List Event} {log : List Turn} {l : Ledger} {d : Desk}
variable {key : String} {f : Fragment}

/-- The record of an open fragment is the record of the span that runs under its key. -/
theorem runs_of_fragment? (h : Balanced w earlier log l d) (hopen : d.fragment? key = some f) :
    ∃ s : Span, s.key = key ∧ s.Runs log ∧ f.finish = s.record w := by
  obtain ⟨s, hs, rfl⟩ := h.current_of_fragment? hopen
  exact ⟨s, h.accounts.keyed key s hs, h.accounts.running key s hs, rfl⟩

end Balanced

/-- A desk is audited if it is in balance, its events are those that the answers of the log hand
back, and these are records of spans. -/
structure Audited (w : Windows) (earlier : List Event) (log : List Turn) (l : Ledger) (d : Desk) :
    Prop extends Balanced w earlier log l d where
  handed : d.events = earlier ++ log.flatMap Turn.emitted
  told : Turn.Told w log

namespace Audited

variable {w : Windows} {earlier : List Event} {log : List Turn} {l : Ledger} {d d' : Desk}
variable {v : VisitOf} {a : VisitAnswer} {key : String} {now : UInt64} {r : Option SessionRecord}

theorem congr (h : Audited w earlier log l d) (hlook : ∀ key, d'.look key = d.look key)
    (hevents : d'.events = d.events) : Audited w earlier log l d' where
  toBalanced := h.toBalanced.congr hlook hevents
  handed := hevents.trans h.handed
  told := h.told

/-- The events that a turn tells of come after those of the turns before it. -/
theorem handed_concat (h : Audited w earlier log l d) {t : Turn}
    (hevents : d'.events = d.events ++ t.emitted) :
    d'.events = earlier ++ (log ++ [t]).flatMap Turn.emitted := by
  calc d'.events
      = d.events ++ t.emitted := hevents
    _ = (earlier ++ log.flatMap Turn.emitted) ++ t.emitted := by rw [h.handed]
    _ = earlier ++ (log ++ [t]).flatMap Turn.emitted := by
        rw [List.flatMap_append, List.flatMap_singleton, List.append_assoc]

theorem visit (h : Audited w earlier log l d) (hvisit : Desk.Visits w v d a d') :
    Audited w earlier (log ++ [.visit v a]) (l.note (.visit v a)) d' where
  toBalanced := h.toBalanced.visit hvisit
  handed := h.handed_concat (Desk.events_of_visits hvisit)
  told := by
    apply Turn.told_concat h.told
    intro r hr
    cases hvisit with
    | @reopened f hconnect hopen =>
        cases hr
        exact h.toBalanced.runs_of_fragment? hopen
    | _ => cases hr

theorem wake (h : Audited w earlier log l d) (hwake : Desk.Wakes key now d r d') :
    Audited w earlier (log ++ [.wake key (.ok r)]) (l.note (.wake key (.ok r))) d' where
  toBalanced := h.toBalanced.wake hwake
  handed := h.handed_concat (Desk.events_of_wakes hwake)
  told := by
    apply Turn.told_concat h.told
    intro r hr
    cases hwake with
    | @flushed f hfragment hopen hdue =>
        cases hr
        exact h.toBalanced.runs_of_fragment? hopen
    | _ => cases hr

/-- A wake-up that fails changes nothing. -/
theorem wakeFailed (h : Audited w earlier log l d) (key : String) (e : Unavailable) :
    Audited w earlier (log ++ [.wake key (.error e)]) (l.note (.wake key (.error e))) d where
  toBalanced := h.toBalanced.skip rfl rfl
  handed := h.handed_concat (List.append_nil d.events).symm
  told := by
    apply Turn.told_concat h.told
    intro r hr
    cases hr

/-- Visits one after the other keep a desk audited. -/
theorem visitAll (h : Audited w earlier log l d) (vs : List VisitOf) :
    let turns := List.zipWith Turn.visit vs (d.visitAll w vs).1
    Audited w earlier (log ++ turns) (turns.foldl Ledger.note l) (d.visitAll w vs).2 := by
  induction vs generalizing log l d with
  | nil =>
      dsimp only [Desk.visitAll, List.zipWith_nil_left, List.foldl_nil]
      rw [List.append_nil]
      exact h
  | cons v rest ih =>
      dsimp only [Desk.visitAll, List.zipWith_cons_cons, List.foldl_cons]
      rw [List.append_cons]
      exact ih (h.visit (Desk.visits_visit w v d))

/-- A wake-up keeps a desk audited whether or not the store fails. -/
theorem tryExpiry (h : Audited w earlier log l d) (key : String) (now : UInt64) :
    let turn := Turn.wake key (d.tryExpiry key now).1
    Audited w earlier (log ++ [turn]) (l.note turn) (d.tryExpiry key now).2 := by
  obtain ⟨r, d', hexpiry, hwake⟩ | ⟨e, hexpiry, -⟩ := Desk.tryExpiry_cases key now d
  · rw [hexpiry]
    exact h.wake hwake
  · rw [hexpiry]
    exact h.wakeFailed key e

/-- A wake-up keeps a desk audited whatever visits arrive before the store is looked at. -/
theorem expireAfter (h : Audited w earlier log l d) (key : String) (now : UInt64)
    (before : List VisitOf) :
    let result := d.expireAfter w key now before
    let turns :=
      List.zipWith Turn.visit before (result.1.1.getD []) ++ [.wake key result.1.2]
    Audited w earlier (log ++ turns) (turns.foldl Ledger.note l) result.2 := by
  rw [Desk.expireAfter_eq]
  split
  · have hwake := (h.visitAll before).tryExpiry key now
    dsimp only at hwake ⊢
    rw [← List.append_assoc, List.foldl_append]
    exact hwake
  · dsimp only
    rw [Option.getD_none, List.zipWith_nil_right]
    exact h.tryExpiry key now

end Audited

/-- The turns that a step and its answer tell of. -/
def Step.turns : Step → Answer → List Turn
  | .visit _ v, .visited a => [.visit v a]
  | .expire _ key _ before, .expired answers r =>
      List.zipWith Turn.visit before (answers.getD []) ++ [.wake key r]
  | _, _ => []

/-- Whether a step is one of session accounting: a visit, a wake-up, a recovery, or a change of
which calls the store fails. -/
def Step.isAccounting : Step → Bool
  | .visit _ _ => true
  | .expire _ _ _ _ => true
  | .recover _ _ => true
  | .outage _ _ => true
  | _ => false

namespace Fleet

variable {f : Fleet} {s : Step} {steps : List Step} {earlier : List Event} {log : List Turn}
variable {l : Ledger}

/-- The turns of a run. -/
def turns (f : Fleet) (steps : List Step) : List Turn :=
  (List.zipWith Step.turns steps (f.history steps).1).flatten

theorem turns_cons (f : Fleet) (s : Step) (rest : List Step) :
    f.turns (s :: rest) = s.turns (f.step s).1 ++ (f.step s).2.turns rest := rfl

/-- The fleet after a run. -/
def after (f : Fleet) (steps : List Step) : Fleet := (f.history steps).2

theorem after_cons (f : Fleet) (s : Step) (rest : List Step) :
    f.after (s :: rest) = (f.step s).2.after rest := rfl

theorem site_actDesk {α : Type} (i : Nat) (idle : α) (work : Desk → α × Desk) :
    (f.actDesk i idle work).2.site = f.site := by
  rw [actDesk_eq]
  split
  · rfl
  · rfl

theorem site_tryDesk {α : Type} (i : Nat) (idle : α)
    (work : Desk → Except Unavailable (α × Desk)) : (f.tryDesk i idle work).2.site = f.site :=
  site_actDesk i _ _

/-- Session accounting does not change what the service is configured with. -/
theorem site_step (hs : s.isAccounting = true) : (f.step s).2.site = f.site := by
  cases s with
  | visit i v => exact site_actDesk i _ _
  | expire i key now before => exact site_actDesk i _ _
  | recover i now => exact site_tryDesk i _ _
  | outage calls reason => rfl
  | _ => cases hs

theorem site_after (hsteps : ∀ s ∈ steps, s.isAccounting = true) :
    (f.after steps).site = f.site := by
  induction steps generalizing f with
  | nil => rfl
  | cons s rest ih =>
      rw [after_cons, ih fun s' hs' => hsteps s' (List.mem_cons_of_mem s hs')]
      exact site_step (hsteps s List.mem_cons_self)

/-- A fleet is audited if each of its desks is. -/
def IsAudited (earlier : List Event) (log : List Turn) (l : Ledger) (f : Fleet) : Prop :=
  ∀ t, Audited f.site.windows earlier log l (f.deskWith t)

/-- The events of an audited fleet are those that its log tells of. -/
theorem events_of_isAudited (h : f.IsAudited earlier log l) :
    f.events = earlier ++ log.flatMap Turn.emitted := (h ⟨0, Dict.empty, [], true⟩).handed

theorem told_of_isAudited (h : f.IsAudited earlier log l) : Turn.Told f.site.windows log :=
  (h ⟨0, Dict.empty, [], true⟩).told

/-- A front end that keeps its desk audited keeps its fleet audited. -/
theorem isAudited_putDesk {i : Nat} {d : Desk} {log' : List Turn} {l' : Ledger}
    (h : Audited f.site.windows earlier log' l' d) : (f.putDesk i d).IsAudited earlier log' l' := by
  intro t
  apply h.congr
  · intro key
    rfl
  · rfl

/-- A recovery leaves what is stored and emitted as it was. -/
theorem isAudited_recover (h : f.IsAudited earlier log l) (i : Nat) (now : UInt64) :
    (f.step (.recover i now)).2.IsAudited earlier log l := by
  cases hd : f.desk? i with
  | none =>
      simp only [step, tryDesk_of_none hd]
      exact h
  | some d =>
      obtain ⟨m, -, rfl⟩ := desk?_eq_some hd
      simp only [step, tryDesk_of_desk? hd]
      cases hrecover : (f.deskWith m.timer).recover now with
      | error e => exact h
      | ok result =>
          obtain ⟨hstore, hevents⟩ := Desk.recover_frame hrecover
          apply isAudited_putDesk
          apply (h m.timer).congr
          · intro key
            rw [Desk.look, hstore]
            rfl
          · exact hevents

/-- A step of session accounting keeps a fleet audited by the ledger that notes its turns. -/
theorem isAudited_step (hs : s.isAccounting = true) (h : f.IsAudited earlier log l) :
    (f.step s).2.IsAudited earlier (log ++ s.turns (f.step s).1)
      ((s.turns (f.step s).1).foldl Ledger.note l) := by
  have hidle : f.IsAudited earlier (log ++ []) l := by
    rw [List.append_nil]
    exact h
  cases s with
  | visit i v =>
      cases hd : f.desk? i with
      | none =>
          rw [step, actDesk_of_none hd]
          exact hidle
      | some d =>
          obtain ⟨m, -, rfl⟩ := desk?_eq_some hd
          rw [step_visit_of_desk? hd]
          apply isAudited_putDesk
          exact (h m.timer).visit (Desk.visits_visit _ v _)
  | expire i key now before =>
      cases hd : f.desk? i with
      | none =>
          rw [step, actDesk_of_none hd]
          exact hidle
      | some d =>
          obtain ⟨m, -, rfl⟩ := desk?_eq_some hd
          rw [step, actDesk_of_desk? hd]
          apply isAudited_putDesk
          exact (h m.timer).expireAfter key now before
  | recover i now =>
      have hrecovered := isAudited_recover hidle i now
      exact hrecovered
  | outage calls reason =>
      intro t
      apply (hidle t).congr
      · intro key
        rfl
      · rfl
  | _ => cases hs

/-- A run of session accounting is audited by the ledger of its turns. -/
theorem isAudited_after (hsteps : ∀ s ∈ steps, s.isAccounting = true)
    (h : f.IsAudited earlier log l) :
    (f.after steps).IsAudited earlier (log ++ f.turns steps)
      ((f.turns steps).foldl Ledger.note l) := by
  induction steps generalizing f log l with
  | nil =>
      rw [show f.turns [] = [] from rfl, List.append_nil]
      exact h
  | cons s rest ih =>
      have hstep := isAudited_step (hsteps s List.mem_cons_self) h
      have hrest := ih (fun s' hs' => hsteps s' (List.mem_cons_of_mem s hs')) hstep
      rw [turns_cons, ← List.append_assoc, List.foldl_append]
      exact hrest

/-- A fleet whose store is empty is audited by the empty ledger. -/
theorem isAudited_of_isEmpty (h : f.store.table.IsEmpty) : f.IsAudited f.events [] {} := by
  intro t
  refine ⟨⟨Ledger.Accounts.nil, ?_, ?_⟩, ?_, Turn.told_nil _⟩
  · intro key
    exact h key
  · exact (List.append_nil f.events).symm
  · exact (List.append_nil f.events).symm

/-- A wake-up that visits precede is answered like the first visit and then like the wake-up that
the others precede, if its key is looked up. -/
theorem expireAfter_cons (w : Windows) {key : String} (now : UInt64) (v : VisitOf)
    (rest : List VisitOf) (d : Desk)
    (hkey : (Desk.isFragmentKey key || Desk.isRegionKey key) = true) :
    ∃ answers r d', (d.visit w v).2.expireAfter w key now rest = ((some answers, r), d') ∧
      d.expireAfter w key now (v :: rest) = ((some ((d.visit w v).1 :: answers), r), d') := by
  simp only [Desk.expireAfter_eq, hkey, ↓reduceIte, Desk.visitAll]
  exact ⟨_, _, _, rfl, rfl⟩

/-- Visits that land just before a wake-up looks at the store are visits before the wake-up. -/
theorem step_expire_landing {i : Nat} {key : String} {now : UInt64}
    (hkey : (Desk.isFragmentKey key || Desk.isRegionKey key) = true) (before : List VisitOf) :
    let steps := before.map (Step.visit i) ++ [.expire i key now []]
    (f.step (.expire i key now before)).2 = f.after steps ∧
      (Step.expire i key now before).turns (f.step (.expire i key now before)).1 =
        f.turns steps := by
  induction before generalizing f with
  | nil => exact ⟨rfl, (List.append_nil _).symm⟩
  | cons v rest ih =>
      obtain ⟨hafter, hturns⟩ := ih (f := (f.step (.visit i v)).2)
      dsimp only
      rw [List.map_cons, List.cons_append, after_cons, turns_cons, ← hafter, ← hturns]
      cases hd : f.desk? i with
      | none =>
          simp only [step, actDesk_of_none hd]
          exact ⟨trivial, rfl⟩
      | some d =>
          obtain ⟨answers, r, d', hrest, hall⟩ :=
            expireAfter_cons f.site.windows now v rest d hkey
          have hd' : (f.putDesk i (d.visit f.site.windows v).2).desk? i =
              some (d.visit f.site.windows v).2 := desk?_putDesk hd
          simp only [step, actDesk_of_desk? hd, actDesk_of_desk? hd', site_putDesk,
            putDesk_putDesk, hrest, hall]
          exact ⟨trivial, rfl⟩

end Fleet

/-- In a fleet after a run with a log, every fragment that was opened is stored or was emitted once:
the store holds the fragments of the current spans and nothing else, the records of the closed spans
have been emitted in the order of their closing, each opening of the log is either current or was
closed once, and no other spans are there. Each further step emits what it hands back. -/
structure ExactlyOnce (w : Windows) (earlier : List Event) (log : List Turn) (f : Fleet) :
    Prop where
  stored : ∀ key, f.store.table.get? key =
    ((Ledger.ofLog log).current.get? key).map fun s => (s.fragment w).encode
  keyed : ∀ key s, (Ledger.ofLog log).current.get? key = some s → key = s.first.id.fragmentKey
  emitted : f.events = earlier ++ (Ledger.ofLog log).closed.map fun s => .session (s.record w)
  once : ∀ n v, Turn.openingAt log n = some v →
    ((Ledger.ofLog log).currentNumber? v.id.fragmentKey = some n ∧
      (Ledger.ofLog log).closings n = 0) ∨
    ((Ledger.ofLog log).currentNumber? v.id.fragmentKey ≠ some n ∧
      (Ledger.ofLog log).closings n = 1)
  origin : ∀ s, (Ledger.ofLog log).Holds s → Turn.openingAt log s.number = some s.first
  handed : ∀ s : Step, s.isAccounting = true →
    (f.step s).2.events = f.events ++ (s.turns (f.step s).1).flatMap Turn.emitted

namespace Fleet

variable {f : Fleet} {steps : List Step}

/-- In every run of session accounting over a store that starts empty, every fragment that was
opened is stored or was emitted once. -/
theorem exactlyOnce_after (hempty : f.store.table.IsEmpty)
    (hsteps : ∀ s ∈ steps, s.isAccounting = true) :
    ExactlyOnce f.site.windows f.events (f.turns steps) (f.after steps) := by
  have haudit := isAudited_after hsteps (isAudited_of_isEmpty hempty)
  rw [List.nil_append] at haudit
  have hsite : (f.after steps).site = f.site := site_after hsteps
  obtain ⟨haccounts, hstored, hemitted⟩ := (haudit ⟨0, Dict.empty, [], true⟩).toBalanced
  rw [hsite] at hstored hemitted
  refine ⟨hstored, ?_, hemitted, haccounts.once, haccounts.origin, ?_⟩
  · intro key s hs
    exact (haccounts.keyed key s hs).symm
  · intro s hs
    have hnow := events_of_isAudited haudit
    have hnext := events_of_isAudited (isAudited_step hs haudit)
    calc ((f.after steps).step s).2.events
        = f.events ++ (f.turns steps ++ s.turns ((f.after steps).step s).1).flatMap Turn.emitted :=
          hnext
      _ = (f.events ++ (f.turns steps).flatMap Turn.emitted) ++
            (s.turns ((f.after steps).step s).1).flatMap Turn.emitted := by
          rw [List.flatMap_append, List.append_assoc]
      _ = (f.after steps).events ++ (s.turns ((f.after steps).step s).1).flatMap Turn.emitted := by
          rw [hnow]

/-- A session that connects on one front end and is flushed by a wake-up on another. -/
theorem exactlyOnce_flushed :
    let id : SessionId := ⟨"a1", by decide, by decide, by decide⟩
    let steps : List Step :=
      [.visit 0 ⟨id, .connect Dict.empty, 5, "x"⟩, .expire 1 id.fragmentKey 3000 []]
    pair.store.table.IsEmpty ∧ (∀ s ∈ steps, s.isAccounting = true) ∧
      ExactlyOnce pair.site.windows pair.events (pair.turns steps) (pair.after steps) ∧
      (Ledger.ofLog (pair.turns steps)).closed.map Span.number = [0] := by
  intro id steps
  have hempty : pair.store.table.IsEmpty := Table.isEmpty_memory
  have hsteps : ∀ s ∈ steps, s.isAccounting = true := by decide
  refine ⟨hempty, hsteps, exactlyOnce_after hempty hsteps, ?_⟩
  decide +kernel

end Fleet

end Gatehouse
