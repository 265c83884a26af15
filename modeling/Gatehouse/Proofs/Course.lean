import Gatehouse.Proofs.Ledger.Run

/-!
# Courses

What happens to the sessions of a fleet happens one thing at a time: a client visits, a region is
noted, time passes, a timer is swept, a listener takes the key that was announced first. A course is
a list of such occurrences, each with the answer that it gets.
-/

namespace Gatehouse

/-- What may happen to the sessions of a fleet; `i` is the front end that it happens to. A listener
that takes a key answers the wake-up for it, and a wake-up may also be answered that nobody
announced. -/
inductive Occurrence
  | visit (i : Nat) (v : VisitOf)
  | expire (i : Nat) (key : String) (now : UInt64) (before : List VisitOf)
  | deliver (i : Nat) (key : String) (now : UInt64) (before : List VisitOf)
  | noteRegion (i : Nat) (id : SessionId) (region : String) (now : UInt64)
  | region (i : Nat) (id : SessionId) (now : UInt64)
  | forgetRegion (i : Nat) (id : SessionId)
  | purgeRegions (i : Nat) (now : UInt64)
  | recover (i : Nat) (now : UInt64)
  | restart (i : Nat)
  | sweep (i : Nat)
  | pass (t : UInt64)
  | outage (calls : List StoreCall) (reason : String)
  deriving DecidableEq

/-- The turns that an occurrence and its answer tell of. -/
def Occurrence.turns : Occurrence → Answer → List Turn
  | .visit _ v, .visited a => [.visit v a]
  | .expire _ key _ before, .expired answers r =>
      List.zipWith Turn.visit before (answers.getD []) ++ [.wake key r]
  | .deliver _ key _ before, .expired answers r =>
      List.zipWith Turn.visit before (answers.getD []) ++ [.wake key r]
  | _, _ => []

/-- A wake-up for an announced key is a wake-up. -/
theorem Occurrence.turns_deliver (i : Nat) (key : String) (now : UInt64) (before : List VisitOf)
    (a : Answer) : (deliver i key now before).turns a = (expire i key now before).turns a := by
  cases a with
  | _ => rfl

/-- Whether an occurrence is neither a visit nor a wake-up. -/
def Occurrence.isQuiet : Occurrence → Bool
  | .visit _ _ => false
  | .expire _ _ _ _ => false
  | .deliver _ _ _ _ => false
  | _ => true

theorem Occurrence.turns_of_isQuiet {o : Occurrence} (h : o.isQuiet = true) (a : Answer) :
    o.turns a = [] := by
  cases o with
  | visit i v => cases h
  | expire i key now before => cases h
  | deliver i key now before => cases h
  | _ => rfl

namespace Fleet

/-- What an occurrence does to a fleet, and its answer. -/
def meet (f : Fleet) : Occurrence → Answer × Fleet
  | .visit i v => f.step (.visit i v)
  | .expire i key now before => f.step (.expire i key now before)
  | .deliver i key now before => (f.onTimer i Timer.next).step (.expire i key now before)
  | .noteRegion i id region now => f.step (.noteRegion i id region now)
  | .region i id now => f.step (.region i id now)
  | .forgetRegion i id => f.step (.forgetRegion i id)
  | .purgeRegions i now => f.step (.purgeRegions i now)
  | .recover i now => f.step (.recover i now)
  | .restart i => f.step (.restart i)
  | .sweep i => f.step (.sweep i)
  | .pass t => (.none, f.moveTo t)
  | .outage calls reason => f.step (.outage calls reason)

/-- The answers of a course, and the fleet behind it. -/
def course (f : Fleet) : List Occurrence → List Answer × Fleet
  | [] => ([], f)
  | o :: rest => ((f.meet o).1 :: ((f.meet o).2.course rest).1, ((f.meet o).2.course rest).2)

/-- The turns of a course. -/
def courseTurns (f : Fleet) (os : List Occurrence) : List Turn :=
  (List.zipWith Occurrence.turns os (f.course os).1).flatten

variable {f : Fleet} {i : Nat} {d : Desk}

/-- An occurrence does not change what the service is configured with. -/
theorem site_meet (f : Fleet) (o : Occurrence) : (f.meet o).2.site = f.site := by
  cases o with
  | visit i v => exact site_actDesk i _ _
  | expire i key now before => exact site_actDesk i _ _
  | deliver i key now before => exact site_actDesk i _ _
  | noteRegion i id region now =>
      rw [meet, step]
      exact site_tryDesk i _ _
  | region i id now =>
      rw [meet, step]
      exact site_tryDesk i _ _
  | forgetRegion i id =>
      rw [meet, step]
      exact site_tryDesk i _ _
  | purgeRegions i now => exact site_tryDesk i _ _
  | recover i now => exact site_tryDesk i _ _
  | restart i => exact site_tryDesk i _ _
  | sweep i =>
      rw [meet, step]
      split
      · obtain ⟨chores, hrouse⟩ := rouse_eq (f.onTimer i fun t => t.fire.2) i
        rw [hrouse]
        rfl
      · rfl
  | pass t => rfl
  | outage calls reason => rfl

theorem site_course (f : Fleet) (os : List Occurrence) : (f.course os).2.site = f.site := by
  induction os generalizing f with
  | nil => rfl
  | cons o rest ih => exact (ih (f.meet o).2).trans (site_meet f o)

section Quiet

variable {P : Table → List Event → Prop}
variable (hput : ∀ t es (id : SessionId) value, P t es → P (t.put id.regionKey value) es)
variable (hremove : ∀ t es key, P t es → P (t.remove key) es)

/-- What a front end tries keeps something true of the table and the events if what it does at its
desk does. -/
theorem tryDesk_invariant {α : Type} (h : P f.store.table f.events) (i : Nat) (idle : α)
    {work : Desk → Except Unavailable (α × Desk)}
    (hwork : ∀ d a d', P d.store.table d.events → work d = .ok (a, d') →
      P d'.store.table d'.events) :
    P (f.tryDesk i idle work).2.store.table (f.tryDesk i idle work).2.events := by
  obtain hsame | ⟨d, a, d', hd, hdone, hchanged⟩ := tryDesk_cases (f := f) i idle work
  · rw [hsame]
    exact h
  · obtain ⟨m, -, rfl⟩ := desk?_eq_some hd
    rw [hchanged]
    exact hwork _ a d' h hdone

theorem recover_invariant (h : P f.store.table f.events) (i : Nat) (now : UInt64) :
    P (f.tryDesk i 0 (Desk.recover now)).2.store.table
      (f.tryDesk i 0 (Desk.recover now)).2.events := by
  apply tryDesk_invariant h
  intro d n d' hd hrecover
  obtain ⟨hstore, hevents⟩ := Desk.recover_frame hrecover
  rw [hstore, hevents]
  exact hd

include hput hremove in
/-- A quiet occurrence keeps true of the table and the events what putting region entries and
removing keys keeps true. -/
theorem quiet_invariant (h : P f.store.table f.events) {o : Occurrence} (ho : o.isQuiet = true) :
    P (f.meet o).2.store.table (f.meet o).2.events := by
  cases o with
  | noteRegion i id region now =>
      rw [meet, step]
      apply tryDesk_invariant h
      intro d a d' hd hnote
      obtain ⟨d'', hnote, hpair⟩ := ok_of_map hnote
      cases hpair
      rw [Desk.noteRegion_eq_ok hnote]
      exact hput _ _ id _ hd
  | region i id now =>
      rw [meet, step]
      apply tryDesk_invariant h
      intro d a d' hd hregion
      obtain ⟨found, -, hpair⟩ := ok_of_map hregion
      cases hpair
      exact hd
  | forgetRegion i id =>
      rw [meet, step]
      apply tryDesk_invariant h
      intro d a d' hd hforget
      obtain ⟨d'', hforget, hpair⟩ := ok_of_map hforget
      cases hpair
      rw [Desk.forgetRegion_eq_ok hforget]
      exact hremove _ _ id.regionKey hd
  | purgeRegions i now =>
      rw [meet, step]
      apply tryDesk_invariant h
      intro d n d' hd hpurge
      apply Desk.purgeRegions_invariant (P := fun d => P d.store.table d.events) _ hd hpurge
      intro d key hd
      exact hremove _ _ key hd
  | recover i now => exact recover_invariant h i now
  | restart i => exact recover_invariant (f := f.onTimer i fun t => { clock := t.clock }) h i f.clock
  | sweep i =>
      rw [meet, step]
      split
      · obtain ⟨chores, hrouse⟩ := rouse_eq (f.onTimer i fun t => t.fire.2) i
        rw [hrouse]
        exact h
      · exact h
  | pass t => exact h
  | outage calls reason => exact h
  | _ => cases ho

end Quiet

theorem course_append (f : Fleet) (os os' : List Occurrence) :
    (f.course (os ++ os')).2 = ((f.course os).2.course os').2 := by
  induction os generalizing f with
  | nil => rfl
  | cons o rest ih => exact ih (f.meet o).2

end Fleet

end Gatehouse
