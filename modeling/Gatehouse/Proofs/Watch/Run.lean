import Gatehouse.Proofs.Fleet
import Gatehouse.Proofs.Watch.Desk

/-!
# Nothing due is stranded

The deadline of a stored value lies in the store, and wake-ups lie in timers that changes by another
front end never touch. Whatever the front ends do, a wake-up in time stays on its way for everything
stored. Once all of them have swept and have answered their wake-ups, nothing stored is due.
-/

namespace Gatehouse

namespace Fleet

/-- Let front end `i` take its oldest announced key, which is `key`, and answer the wake-up for
it. -/
def deliver (f : Fleet) (i : Nat) (key : String) (before : List VisitOf) : Fleet :=
  ((f.onTimer i Timer.next).step (.expire i key f.clock before)).2

/-- A visit is timely if it comes at the time of the clock and its window ends before time does. -/
def Timely (f : Fleet) (v : VisitOf) : Prop :=
  v.now = f.clock ∧ f.clock.toNat + (v.visit.window f.site.windows).toNat < UInt64.size

/-- What may happen to a fleet whose front ends go by one clock: time passes, clients visit, regions
are noted, looked up, forgotten and purged, timers are swept, announced keys are delivered, wake-ups
are answered that nobody announced, and front ends restart. -/
inductive Moves : Fleet → Fleet → Prop
  | pass {f : Fleet} {t : UInt64} (hlater : f.clock ≤ t) : Moves f (f.moveTo t)
  | visit {f : Fleet} (i : Nat) {v : VisitOf} (hv : f.Timely v) :
      Moves f (f.step (.visit i v)).2
  | noteRegion {f : Fleet} (i : Nat) (id : SessionId) (region : String)
      (hroom : f.clock.toNat + f.site.windows.region.toNat < UInt64.size) :
      Moves f (f.step (.noteRegion i id region f.clock)).2
  | region {f : Fleet} (i : Nat) (id : SessionId) : Moves f (f.step (.region i id f.clock)).2
  | forgetRegion {f : Fleet} (i : Nat) (id : SessionId) : Moves f (f.step (.forgetRegion i id)).2
  | purgeRegions {f : Fleet} (i : Nat) : Moves f (f.step (.purgeRegions i f.clock)).2
  | sweep {f : Fleet} (i : Nat) : Moves f (f.step (.sweep i)).2
  | deliver {f : Fleet} {i : Nat} {m : Member} {key : String} {rest : List String}
      (hm : f.members[i]? = some m) (hannounced : m.timer.announced = key :: rest)
      {before : List VisitOf} (hbefore : ∀ v ∈ before, f.Timely v) :
      Moves f (f.deliver i key before)
  | expire {f : Fleet} (i : Nat) (key : String) {before : List VisitOf}
      (hbefore : ∀ v ∈ before, f.Timely v) : Moves f (f.step (.expire i key f.clock before)).2
  | restart {f : Fleet} (i : Nat) : Moves f (f.step (.restart i)).2

/-- A run is any number of moves. -/
inductive Run : Fleet → Fleet → Prop
  | refl (f : Fleet) : Run f f
  | tail {f g g' : Fleet} (hrun : Run f g) (hmove : Moves g g') : Run f g'

/-- The timers of a fleet run on its clock, and their announcements are listened to. -/
def OnTime (f : Fleet) : Prop :=
  ∀ (i : Nat) (m : Member), f.members[i]? = some m →
    m.timer.clock = f.clock.toNat * 1000 ∧ m.timer.heard = true

/-- A fleet at the start of a run: the store is empty and answers, and the timers run on the
clock. -/
structure Starts (f : Fleet) : Prop where
  empty : f.store.table.IsEmpty
  up : f.store.down = []
  onTime : f.OnTime

/-- A fleet of some settings starts a run if its store is empty and answers. -/
theorem starts_ofSettings (s : Settings) {store : Store} (outlet : KeyOutlet) (files : Files)
    (clock : UInt64) (keys : List String) (hempty : store.table.IsEmpty) (hup : store.down = []) :
    (ofSettings s store outlet files clock keys).Starts where
  empty := hempty
  up := hup
  onTime := by
    intro i m hm
    obtain ⟨key, -, rfl⟩ := List.mem_map.1 (List.mem_of_getElem? hm)
    exact ⟨rfl, rfl⟩

/-- A fleet is watchful if a wake-up in time is on its way for everything stored. -/
structure Watchful (f : Fleet) : Prop where
  up : f.store.down = []
  onTime : f.OnTime
  watched : ∀ key bytes, f.store.table.get? key = some bytes →
    ∃ due, Desk.deadline? key bytes = some due ∧
      ∃ (i : Nat) (m : Member), f.members[i]? = some m ∧
        m.timer.Awake key (Desk.limit f.clock due)

/-- A wake-up for a key is on its way at another front end than `i`. -/
def Elsewhere (f : Fleet) (i : Nat) (key : String) (limit : Nat) : Prop :=
  ∃ (j : Nat) (m : Member), j ≠ i ∧ f.members[j]? = some m ∧ m.timer.Awake key limit

variable {f g : Fleet} {i : Nat} {d d' : Desk}

namespace Watchful

theorem of_starts (h : f.Starts) : f.Watchful where
  up := h.up
  onTime := h.onTime
  watched := by
    intro key bytes hlook
    rw [h.empty key] at hlook
    cases hlook

/-- Every desk of a watchful fleet is steady. -/
theorem steady (h : f.Watchful) (hd : f.desk? i = some d) : d.Steady (f.Elsewhere i) f.clock := by
  obtain ⟨m, hm, rfl⟩ := desk?_eq_some hd
  obtain ⟨honTime, hheard⟩ := h.onTime i m hm
  refine ⟨h.up, honTime, hheard, ?_⟩
  intro key bytes hlook
  obtain ⟨due, hdue, j, m', hm', hawake⟩ := h.watched key bytes hlook
  refine ⟨due, hdue, ?_⟩
  by_cases hij : j = i
  · subst hij
    cases hm.symm.trans hm'
    exact .inr hawake
  · exact .inl ⟨j, m', hij, hm', hawake⟩

/-- A fleet stays watchful if a desk that changes is steady again. -/
theorem putDesk (h : f.Watchful) (hd : f.desk? i = some d)
    (hsteady : d'.Steady (f.Elsewhere i) f.clock) : (f.putDesk i d').Watchful := by
  obtain ⟨m, hm, -⟩ := desk?_eq_some hd
  refine ⟨hsteady.up, ?_, ?_⟩
  · intro j m' hm'
    by_cases hij : j = i
    · subst hij
      cases (member_putDesk hm).symm.trans hm'
      exact ⟨hsteady.onTime, hsteady.heard⟩
    · rw [member_putDesk_of_ne hij] at hm'
      exact h.onTime j m' hm'
  · intro key bytes hlook
    obtain ⟨due, hdue, ⟨j, m', hij, hm', hawake⟩ | hawake⟩ := hsteady.watched key bytes hlook
    · exact ⟨due, hdue, j, m', (member_putDesk_of_ne hij).trans hm', hawake⟩
    · exact ⟨due, hdue, i, _, member_putDesk hm, hawake⟩

/-- A fleet stays watchful if a front end keeps its desk steady. -/
theorem actDesk {α : Type} (h : f.Watchful) (idle : α) {work : Desk → α × Desk}
    (hwork : ∀ d elsewhere, d.Steady elsewhere f.clock → (work d).2.Steady elsewhere f.clock) :
    (f.actDesk i idle work).2.Watchful := by
  cases hd : f.desk? i with
  | none =>
      rw [actDesk_of_none hd]
      exact h
  | some d =>
      rw [actDesk_of_desk? hd]
      exact h.putDesk hd (hwork d _ (h.steady hd))

/-- A fleet stays watchful if a front end that tries something keeps its desk steady. -/
theorem tryDesk {α : Type} (h : f.Watchful) (idle : α)
    {work : Desk → Except Unavailable (α × Desk)}
    (hwork : ∀ d d' a elsewhere, d.Steady elsewhere f.clock → work d = .ok (a, d') →
      d'.Steady elsewhere f.clock) :
    (f.tryDesk i idle work).2.Watchful := by
  apply h.actDesk
  intro d elsewhere hsteady
  cases hresult : work d with
  | error e => exact hsteady
  | ok result => exact hwork d result.2 result.1 elsewhere hsteady hresult

/-- What waits in the line of chores does not matter. -/
theorem rouse (h : f.Watchful) (i : Nat) : (f.rouse i).Watchful := by
  obtain ⟨chores, hrouse⟩ := rouse_eq f i
  rw [hrouse]
  exact ⟨h.up, h.onTime, h.watched⟩

theorem moveTo (h : f.Watchful) {t : UInt64} (hlater : f.clock ≤ t) : (f.moveTo t).Watchful := by
  have hle : f.clock.toNat ≤ t.toNat := UInt64.le_iff_toNat_le.1 hlater
  have hmembers : ∀ (j : Nat) (m : Member), f.members[j]? = some m →
      (f.moveTo t).members[j]? =
        some { m with timer := m.timer.advance ((t.toNat - f.clock.toNat) * 1000) } := by
    intro j m hm
    rw [Fleet.moveTo, List.getElem?_map, hm]
    rfl
  refine ⟨h.up, ?_, ?_⟩
  · intro j m' hm'
    rw [Fleet.moveTo, List.getElem?_map] at hm'
    obtain ⟨m, hm, rfl⟩ := Option.map_eq_some_iff.1 hm'
    obtain ⟨honTime, hheard⟩ := h.onTime j m hm
    refine ⟨?_, hheard⟩
    calc m.timer.clock + (t.toNat - f.clock.toNat) * 1000
        = f.clock.toNat * 1000 + (t.toNat - f.clock.toNat) * 1000 := by rw [honTime]
      _ = t.toNat * 1000 := by omega
  · intro key bytes hlook
    obtain ⟨due, hdue, j, m, hm, hawake⟩ := h.watched key bytes hlook
    refine ⟨due, hdue, j, _, hmembers j m hm, ?_⟩
    have hlimit : Desk.limit f.clock due ≤ Desk.limit t due := by
      unfold Desk.limit
      omega
    exact hawake.mono hlimit

/-- A fleet stays watchful when a front end sweeps. -/
theorem sweep (h : f.Watchful) (i : Nat) : (f.step (.sweep i)).2.Watchful := by
  cases hd : f.desk? i with
  | none =>
      rw [step, desk?_eq_none hd]
      exact h
  | some d =>
      obtain ⟨m, hm, rfl⟩ := desk?_eq_some hd
      rw [step, hm, onTimer_of_desk? hd]
      apply rouse
      exact h.putDesk hd (h.steady hd).sweep

/-- A fleet stays watchful when a front end takes an announced key and answers the wake-up. -/
theorem deliver (h : f.Watchful) {m : Member} {key : String} {rest : List String}
    (hm : f.members[i]? = some m) (hannounced : m.timer.announced = key :: rest)
    {before : List VisitOf} (hbefore : ∀ v ∈ before, f.Timely v) :
    (f.deliver i key before).Watchful := by
  have hd := desk?_of_member hm
  have hnext := (h.steady hd).next hannounced
  unfold Fleet.deliver
  rw [onTimer_of_desk? hd, step, actDesk_of_desk? (desk?_putDesk hd), putDesk_putDesk]
  exact h.putDesk hd (hnext.expireAfter hbefore)

/-- A fleet stays watchful when a front end loses its wake-ups and recovers. -/
theorem restart (h : f.Watchful) (i : Nat) : (f.step (.restart i)).2.Watchful := by
  cases hd : f.desk? i with
  | none =>
      simp only [step, onTimer_of_none hd, tryDesk_of_none hd]
      exact h
  | some d =>
      have hsteady := h.steady hd
      have hlost : Desk.Steady (fun _ _ => True) f.clock
          { d with timer := { clock := d.timer.clock } } := by
        refine ⟨hsteady.up, hsteady.onTime, rfl, ?_⟩
        intro key bytes hlook
        obtain ⟨due, hdue, -⟩ := hsteady.watched key bytes hlook
        exact ⟨due, hdue, .inl trivial⟩
      simp only [step, onTimer_of_desk? hd, tryDesk_of_desk? (desk?_putDesk hd), putDesk_putDesk]
      cases hrecover : Desk.recover f.clock { d with timer := { clock := d.timer.clock } } with
      | error e =>
          obtain ⟨n, hok⟩ :=
            Desk.recover_of_up (hlost.answers .keys) (hlost.answers .get) f.clock
          rw [hrecover] at hok
          cases hok
      | ok result => exact h.putDesk hd (hlost.recover hrecover)

/-- A fleet stays watchful whatever happens to it. -/
theorem of_moves (h : f.Watchful) (hmove : Moves f g) : g.Watchful := by
  cases hmove with
  | pass hlater => exact h.moveTo hlater
  | visit i hv =>
      apply h.actDesk
      intro d elsewhere hsteady
      exact hsteady.visit hv.1 hv.2 (Desk.visits_visit f.site.windows _ d)
  | noteRegion i id region hroom =>
      change (f.tryDesk i () fun d =>
        (d.noteRegion f.site.windows.region id region f.clock).map fun d' => ((), d')).2.Watchful
      apply h.tryDesk
      intro d d' a elsewhere hsteady hmap
      obtain ⟨d'', hnote, hpair⟩ := ok_of_map hmap
      cases hpair
      exact hsteady.noteRegion hroom hnote
  | region i id =>
      change (f.tryDesk i none fun d => (d.region? id f.clock).map fun r => (r, d)).2.Watchful
      apply h.tryDesk
      intro d d' a elsewhere hsteady hmap
      obtain ⟨r, -, hpair⟩ := ok_of_map hmap
      cases hpair
      exact hsteady
  | forgetRegion i id =>
      change (f.tryDesk i () fun d => (d.forgetRegion id).map fun d' => ((), d')).2.Watchful
      apply h.tryDesk
      intro d d' a elsewhere hsteady hmap
      obtain ⟨d'', hforget, hpair⟩ := ok_of_map hmap
      cases hpair
      exact hsteady.forgetRegion hforget
  | purgeRegions i =>
      apply h.tryDesk
      intro d d' n elsewhere hsteady hpurge
      exact hsteady.purgeRegions hpurge
  | sweep i => exact h.sweep i
  | deliver hm hannounced hbefore => exact h.deliver hm hannounced hbefore
  | expire i key hbefore =>
      apply h.actDesk
      intro d elsewhere hsteady
      exact (hsteady.mono key).expireAfter hbefore
  | restart i => exact h.restart i

/-- Every state of a run is watchful. -/
theorem of_run (h : f.Watchful) (hrun : f.Run g) : g.Watchful := by
  induction hrun with
  | refl => exact h
  | tail hrun hmove ih => exact ih.of_moves hmove

/-- In a watchful fleet whose timers are quiet and whose announcements are answered, nothing stored
is due. -/
theorem not_due (h : f.Watchful)
    (hquiet : ∀ (i : Nat) (m : Member), f.members[i]? = some m →
      m.timer.Quiet ∧ m.timer.announced = [])
    {key : String} {bytes : Bytes} {due : UInt64} (hlook : f.store.table.get? key = some bytes)
    (hdue : Desk.deadline? key bytes = some due) : f.clock < due := by
  obtain ⟨due', hdue', i, m, hm, hawake⟩ := h.watched key bytes hlook
  cases hdue.symm.trans hdue'
  obtain ⟨hlater, hanswered⟩ := hquiet i m hm
  rcases hawake with ⟨deadline, harmed, hdeadline⟩ | hannounced
  · have hnext := hlater key deadline harmed
    rw [(h.onTime i m hm).1] at hnext
    rw [UInt64.lt_iff_toNat_lt]
    unfold Desk.limit at hdeadline
    omega
  · rw [hanswered] at hannounced
    cases hannounced

end Watchful

/-- Front ends settle by sweeping and by answering what is announced. The front ends that sweep are
listed. -/
inductive Settles : Fleet → List Nat → Fleet → Prop
  | done (f : Fleet) : Settles f [] f
  | sweep {f g : Fleet} {swept : List Nat} (i : Nat)
      (hrest : Settles (f.step (.sweep i)).2 swept g) : Settles f (i :: swept) g
  | deliver {f g : Fleet} {swept : List Nat} {i : Nat} {m : Member} {key : String}
      {rest : List String} (hm : f.members[i]? = some m)
      (hannounced : m.timer.announced = key :: rest)
      (hrest : Settles (f.deliver i key []) swept g) : Settles f swept g

/-- Whether the timer of front end `i` is quiet, if there is one. -/
def QuietAt (f : Fleet) (i : Nat) : Prop :=
  ∀ m : Member, f.members[i]? = some m → m.timer.Quiet

theorem quietAt_putDesk {j : Nat} (h : f.QuietAt j) (hquiet : i = j → d'.timer.Quiet) :
    (f.putDesk i d').QuietAt j := by
  intro m hm
  rw [members_putDesk] at hm
  split at hm
  · rename_i hij
    obtain ⟨m', -, rfl⟩ := Option.map_eq_some_iff.1 hm
    exact hquiet hij
  · exact h m hm

@[simp] theorem length_members_putDesk : (f.putDesk i d').members.length = f.members.length :=
  List.length_modify _ _ _

/-- What a sweep of front end `i` does to the timers of a fleet. -/
theorem sweep_frame (f : Fleet) (i : Nat) :
    (f.step (.sweep i)).2.clock = f.clock ∧
    (f.step (.sweep i)).2.members.length = f.members.length ∧
    ∀ j, f.QuietAt j ∨ j = i → (f.step (.sweep i)).2.QuietAt j := by
  cases hd : f.desk? i with
  | none =>
      have hnone := desk?_eq_none hd
      rw [step, hnone]
      refine ⟨rfl, rfl, ?_⟩
      rintro j (hquiet | rfl)
      · exact hquiet
      · intro m hm
        cases hnone.symm.trans hm
  | some d =>
      obtain ⟨m, hm, rfl⟩ := desk?_eq_some hd
      rw [step, hm, onTimer_of_desk? hd]
      dsimp only
      obtain ⟨chores, hrouse⟩ := rouse_eq (f.putDesk i
        { f.deskWith m.timer with timer := (f.deskWith m.timer).timer.fire.2 }) i
      rw [hrouse]
      refine ⟨rfl, length_members_putDesk, ?_⟩
      intro j hj
      by_cases hij : i = j
      · subst hij
        intro m' hm'
        cases (member_putDesk hm).symm.trans hm'
        exact Timer.quiet_sweep
      · have hquiet : f.QuietAt j := hj.resolve_right (Ne.symm hij)
        exact quietAt_putDesk hquiet fun heq => absurd heq hij

/-- What the delivery of an announced key does to the timers of a fleet. -/
theorem deliver_frame {m : Member} {key : String} {rest : List String}
    (hm : f.members[i]? = some m) (hannounced : m.timer.announced = key :: rest) :
    ∃ d, f.deliver i key [] = f.putDesk i d ∧ d.timer.announced = rest ∧
      (m.timer.Quiet → d.timer.Quiet) := by
  have hd := desk?_of_member hm
  obtain ⟨hsame, hquiet⟩ := Desk.timer_expireAfter f.site.windows key f.clock
    { f.deskWith m.timer with timer := m.timer.next }
  refine ⟨_, ?_, hsame.trans ?_, hquiet⟩
  · unfold deliver
    rw [onTimer_of_desk? hd, step, actDesk_of_desk? (desk?_putDesk hd), putDesk_putDesk]
    rfl
  · change m.timer.announced.tail = rest
    rw [hannounced]
    rfl

namespace Settles

variable {swept swept' : List Nat} {g' : Fleet}

theorem trans (h : f.Settles swept g) (h' : g.Settles swept' g') :
    f.Settles (swept ++ swept') g' := by
  induction h with
  | done f => exact h'
  | sweep i hrest ih => exact .sweep i (ih h')
  | deliver hm hannounced hrest ih => exact .deliver hm hannounced (ih h')

/-- Settling keeps a fleet watchful and its clock still, and the front ends that sweep become and
stay quiet. -/
theorem frame (hs : f.Settles swept g) (h : f.Watchful) :
    g.Watchful ∧ g.clock = f.clock ∧ g.members.length = f.members.length ∧
      ∀ j, f.QuietAt j ∨ j ∈ swept → g.QuietAt j := by
  induction hs with
  | done f =>
      refine ⟨h, rfl, rfl, ?_⟩
      rintro j (hquiet | hmem)
      · exact hquiet
      · cases hmem
  | @sweep f g swept i hrest ih =>
      obtain ⟨hclock, hlength, hquiet⟩ := sweep_frame f i
      obtain ⟨hwatchful, hclock', hlength', hquiet'⟩ := ih (h.sweep i)
      refine ⟨hwatchful, hclock'.trans hclock, hlength'.trans hlength, ?_⟩
      rintro j (hj | hj)
      · exact hquiet' j (.inl (hquiet j (.inl hj)))
      · rcases List.mem_cons.1 hj with hj | hj
        · exact hquiet' j (.inl (hquiet j (.inr hj)))
        · exact hquiet' j (.inr hj)
  | @deliver f g swept i m key rest hm hannounced hrest ih =>
      have hnone : ∀ v ∈ ([] : List VisitOf), f.Timely v := by
        intro v hv
        cases hv
      obtain ⟨hwatchful, hclock, hlength, hquiet⟩ := ih (h.deliver hm hannounced hnone)
      obtain ⟨d, hdeliver, -, hcalm⟩ := deliver_frame hm hannounced
      rw [hdeliver] at hclock hlength hquiet
      refine ⟨hwatchful, hclock, hlength.trans length_members_putDesk, ?_⟩
      rintro j (hj | hj)
      · apply hquiet j
        left
        apply quietAt_putDesk hj
        rintro rfl
        exact hcalm (hj m hm)
      · exact hquiet j (.inr hj)

/-- Any front ends can sweep one after the other. -/
theorem exists_sweeps (f : Fleet) (is : List Nat) :
    ∃ g, f.Settles is g ∧ g.members.length = f.members.length := by
  induction is generalizing f with
  | nil => exact ⟨f, .done f, rfl⟩
  | cons i rest ih =>
      obtain ⟨g, hg, hlength⟩ := ih (f.step (.sweep i)).2
      exact ⟨g, .sweep i hg, hlength.trans (sweep_frame f i).2.1⟩

/-- A front end can answer everything that is announced to it. -/
theorem exists_answered {m : Member} {keys : List String} (hm : f.members[i]? = some m)
    (hannounced : m.timer.announced = keys) :
    ∃ g, f.Settles [] g ∧ g.members.length = f.members.length ∧
      (∀ m' : Member, g.members[i]? = some m' → m'.timer.announced = []) ∧
      ∀ j, j ≠ i → g.members[j]? = f.members[j]? := by
  induction keys generalizing f m with
  | nil =>
      refine ⟨f, .done f, rfl, ?_, fun j _ => rfl⟩
      intro m' hm'
      cases hm.symm.trans hm'
      exact hannounced
  | cons key rest ih =>
      obtain ⟨d, hdeliver, hrest, -⟩ := deliver_frame hm hannounced
      obtain ⟨g, hg, hlength, hanswered, hothers⟩ := ih (member_putDesk hm) hrest
      refine ⟨g, .deliver hm hannounced (hdeliver ▸ hg), hlength.trans length_members_putDesk,
        hanswered, ?_⟩
      intro j hj
      rw [hothers j hj, member_putDesk_of_ne hj]

/-- The first front ends of a fleet can answer everything that is announced to them. -/
theorem exists_allAnswered (f : Fleet) (n : Nat) :
    ∃ g, f.Settles [] g ∧ g.members.length = f.members.length ∧
      ∀ (i : Nat) (m : Member), i < n → g.members[i]? = some m → m.timer.announced = [] := by
  induction n with
  | zero =>
      refine ⟨f, .done f, rfl, ?_⟩
      intro i m hi
      exact absurd hi (Nat.not_lt_zero i)
  | succ n ih =>
      obtain ⟨g, hg, hlength, hanswered⟩ := ih
      cases hm : g.members[n]? with
      | none =>
          refine ⟨g, hg, hlength, ?_⟩
          intro i m hi hm'
          rcases Nat.lt_succ_iff_lt_or_eq.1 hi with hi | rfl
          · exact hanswered i m hi hm'
          · cases hm.symm.trans hm'
      | some m =>
          obtain ⟨g', hg', hlength', hanswered', hothers⟩ := exists_answered hm rfl
          refine ⟨g', hg.trans hg', hlength'.trans hlength, ?_⟩
          intro i m' hi hm'
          rcases Nat.lt_succ_iff_lt_or_eq.1 hi with hi | rfl
          · rw [hothers i (Nat.ne_of_lt hi)] at hm'
            exact hanswered i m' hi hm'
          · exact hanswered' m' hm'

/-- A fleet can always settle. -/
theorem exists_settled (f : Fleet) :
    ∃ swept g, f.Settles swept g ∧ (∀ i, i < f.members.length → i ∈ swept) ∧
      ∀ (i : Nat) (m : Member), g.members[i]? = some m → m.timer.announced = [] := by
  obtain ⟨g, hg, hlength⟩ := exists_sweeps f (List.range f.members.length)
  obtain ⟨g', hg', hlength', hanswered⟩ := exists_allAnswered g g.members.length
  refine ⟨_, g', hg.trans hg', ?_, ?_⟩
  · intro i hi
    rw [List.append_nil]
    exact List.mem_range.2 hi
  · intro i m hm
    apply hanswered i m _ hm
    rw [← hlength']
    exact (List.getElem?_eq_some_iff.1 hm).1

end Settles

/-- In every run from an empty store, a wake-up in time is on its way for everything stored. From
every state front ends can settle, and once all of them have swept and answered their wake-ups,
nothing stored is due. -/
theorem nothing_stranded (hstart : f.Starts) (hrun : f.Run g) :
    (∀ key bytes, g.store.table.get? key = some bytes →
      ∃ due, Desk.deadline? key bytes = some due ∧
        ∃ (i : Nat) (m : Member), g.members[i]? = some m ∧
          ((∃ deadline, m.timer.armed.get? key = some deadline ∧
              deadline ≤ max due.toNat g.clock.toNat * 1000) ∨
            key ∈ m.timer.announced)) ∧
    (∃ swept g', g.Settles swept g' ∧ (∀ i, i < g.members.length → i ∈ swept) ∧
      ∀ (i : Nat) (m : Member), g'.members[i]? = some m → m.timer.announced = []) ∧
    ∀ swept g', g.Settles swept g' → (∀ i, i < g.members.length → i ∈ swept) →
      (∀ (i : Nat) (m : Member), g'.members[i]? = some m → m.timer.announced = []) →
      ∀ key bytes due, g'.store.table.get? key = some bytes →
        Desk.deadline? key bytes = some due → g.clock < due := by
  have hwatchful := (Watchful.of_starts hstart).of_run hrun
  refine ⟨hwatchful.watched, Settles.exists_settled g, ?_⟩
  intro swept g' hsettles hswept hanswered key bytes due hlook hdue
  obtain ⟨hwatchful', hclock, hlength, hquiet⟩ := hsettles.frame hwatchful
  rw [← hclock]
  refine hwatchful'.not_due ?_ hlook hdue
  intro i m hm
  have hlt : i < g.members.length := by
    rw [← hlength]
    exact (List.getElem?_eq_some_iff.1 hm).1
  exact ⟨hquiet i (.inr (hswept i hlt)) m hm, hanswered i m hm⟩

/-- A session that connects, and whose front end sweeps only after the deadline. -/
theorem nothing_stranded_connect :
    let id : SessionId := ⟨"a1", by decide, by decide, by decide⟩
    let v : VisitOf := ⟨id, .connect Dict.empty, 0, "x"⟩
    let g := (pair.step (.visit 0 v)).2.moveTo 2000
    pair.Starts ∧ pair.Run g ∧ (g.store.table.get? id.fragmentKey).isSome = true ∧
      ∃ swept g', g.Settles swept g' ∧ ∀ key bytes due, g'.store.table.get? key = some bytes →
        Desk.deadline? key bytes = some due → g.clock < due := by
  intro id v g
  have hstart : pair.Starts :=
    starts_ofSettings _ _ _ _ _ Table.isEmpty_memory rfl
  have hvisit : pair.Moves (pair.step (.visit 0 v)).2 := .visit 0 ⟨rfl, by decide⟩
  have hpass : Moves (pair.step (.visit 0 v)).2 g := .pass (by decide)
  have hrun : pair.Run g := .tail (.tail (.refl pair) hvisit) hpass
  obtain ⟨-, ⟨swept, g', hsettles, hswept, hanswered⟩, hnone⟩ := nothing_stranded hstart hrun
  refine ⟨hstart, hrun, ?_, swept, g', hsettles, hnone swept g' hsettles hswept hanswered⟩
  decide +kernel

end Fleet

end Gatehouse
