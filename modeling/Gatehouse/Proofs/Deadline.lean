import Gatehouse.Proofs.Course

/-!
# Flushes come at the stored deadline

The deadline of a fragment is stored with it and is moved by every visit that is folded in, on
whichever front end. A wake-up takes the fragment out exactly if that deadline has come, and is put
off for the time that is left otherwise, whatever has armed it.
-/

namespace Gatehouse

namespace Turn

/-- The visit that a turn folds into a fragment, be it a new one or the one that was open. -/
def folded? (t : Turn) : Option VisitOf := t.opening?.or t.applied?

/-- The last visit that a log folds into a fragment under a key. -/
def lastFolded (key : String) (log : List Turn) : Option VisitOf :=
  ((log.filterMap folded?).filter fun v => v.key == key).getLast?

/-- A turn hands back a record rightfully if it is a connect, and the record is of its session, or the
wake-up for a fragment. -/
def Rightful : Turn → Prop
  | .visit v a => ∀ r, (Turn.visit v a).record? = some r →
      v.visit.isReport = false ∧ r.session = v.id.text
  | .wake key a => ∀ r, (Turn.wake key a).record? = some r → Desk.isFragmentKey key = true

variable {log : List Turn} {t : Turn} {v : VisitOf} {key : String}

theorem key_of_lastFolded (h : lastFolded key log = some v) : v.key = key :=
  beq_iff_eq.1 (List.mem_filter.1 (List.mem_of_getLast? h)).2

theorem lastFolded_concat (key : String) (log : List Turn) (t : Turn) :
    lastFolded key (log ++ [t]) =
      (t.folded?.filter fun v => v.key == key).or (lastFolded key log) := by
  unfold lastFolded
  rw [List.filterMap_append, List.filter_append, List.getLast?_append]
  cases ht : t.folded? with
  | none => simp [ht]
  | some v =>
      by_cases hkey : v.key = key
      · simp [ht, hkey, Option.filter]
      · simp [ht, hkey, Option.filter]

/-- A turn that folds nothing in leaves the last visits as they were. -/
theorem lastFolded_concat_of_none (ht : t.folded? = none) (key : String) (log : List Turn) :
    lastFolded key (log ++ [t]) = lastFolded key log := by
  rw [lastFolded_concat, ht]
  rfl

end Turn

/-- The time up to which a visit keeps its fragment, in seconds. -/
def VisitOf.deadline (w : Windows) (v : VisitOf) : Nat := v.now.toNat + (v.visit.window w).toNat

/-- A fragment is as a visit left it if it is of the session of the visit and due at the end of its
window. -/
structure Fragment.LeftBy (w : Windows) (v : VisitOf) (x : Fragment) : Prop where
  session : x.session = v.id.text
  due : x.due = capped v.now (v.visit.window w)

theorem VisitOf.leftBy_opening (w : Windows) (v : VisitOf) : (v.opening w).LeftBy w v := by
  rw [opening_eq]
  exact ⟨rfl, rfl⟩

theorem VisitOf.leftBy_fold {w : Windows} {v : VisitOf} {x : Fragment}
    (h : x.session = v.id.text) : (v.fold w x).LeftBy w v := ⟨h, rfl⟩

/-- The deadline of a fragment is that of the visit that left it, if it fits into a word. -/
theorem Fragment.LeftBy.toNat_due {w : Windows} {v : VisitOf} {x : Fragment} (h : x.LeftBy w v)
    (hroom : v.deadline w < UInt64.size) : x.due.toNat = v.deadline w := by
  rw [h.due, toNat_capped, VisitOf.deadline]
  unfold VisitOf.deadline at hroom
  omega

/-- A table is dated by a log if everything stored under the key of a fragment is a fragment that the
last visit under the key has left. -/
def Table.Dated (w : Windows) (log : List Turn) (t : Table) : Prop :=
  ∀ key bytes, Desk.isFragmentKey key = true → t.get? key = some bytes →
    ∃ x v, Fragment.decode? bytes = some x ∧ Turn.lastFolded key log = some v ∧ x.LeftBy w v

namespace Table.Dated

variable {w : Windows} {log log' : List Turn} {t : Table} {key : String} {value : Bytes}

theorem of_isEmpty (h : t.IsEmpty) : t.Dated w log := by
  intro key bytes hkey hlook
  rw [h key] at hlook
  cases hlook

theorem congr (h : t.Dated w log)
    (hlog : ∀ key, Turn.lastFolded key log' = Turn.lastFolded key log) : t.Dated w log' := by
  intro key bytes hkey hlook
  rw [hlog]
  exact h key bytes hkey hlook

theorem remove (h : t.Dated w log) (key : String) : (t.remove key).Dated w log := by
  intro key' bytes hkey hlook
  rw [get?_remove] at hlook
  split at hlook
  · cases hlook
  · exact h key' bytes hkey hlook

/-- What is put under another key than that of a fragment does not matter. -/
theorem put_of_not_fragment (h : t.Dated w log) (hkey : Desk.isFragmentKey key = false) :
    (t.put key value).Dated w log := by
  intro key' bytes hkey' hlook
  rw [get?_put] at hlook
  split at hlook
  · rename_i heq
    rw [heq, hkey] at hkey'
    cases hkey'
  · exact h key' bytes hkey' hlook

/-- A fragment that a visit leaves may be put under the key of the visit. -/
theorem put {turn : Turn} {v : VisitOf} {x : Fragment} (h : t.Dated w log)
    (hturn : turn.folded? = some v) (hx : x.LeftBy w v) :
    (t.put v.key x.encode).Dated w (log ++ [turn]) := by
  intro key bytes hkey hlook
  rw [get?_put] at hlook
  split at hlook
  · rename_i heq
    rw [← Option.some.inj hlook]
    refine ⟨x, v, Fragment.decode?_encode x, ?_, hx⟩
    rw [Turn.lastFolded_concat, hturn, heq]
    simp
  · rename_i hne
    obtain ⟨y, u, hy, hu, hleft⟩ := h key bytes hkey hlook
    refine ⟨y, u, hy, ?_, hleft⟩
    have hother : (v.key == key) = false := beq_false_of_ne (Ne.symm hne)
    rw [Turn.lastFolded_concat, hturn, Option.filter, hother]
    exact hu

/-- The fragment that is open under the key of a visit is of the session of the visit. -/
theorem session_eq {d : Desk} {v : VisitOf} {x : Fragment} (h : d.store.table.Dated w log)
    (hopen : d.fragment? v.key = some x) : x.session = v.id.text := by
  obtain ⟨bytes, hlook, hdecode⟩ := Option.bind_eq_some_iff.1 hopen
  obtain ⟨y, u, hy, hu, hleft⟩ := h v.key bytes (Desk.isFragmentKey_fragmentKey v.id) hlook
  obtain rfl : y = x := Option.some.inj (hy.symm.trans hdecode)
  have hid : u.id = v.id := SessionId.fragmentKey_inj (Turn.key_of_lastFolded hu)
  rw [hleft.session, hid]

variable {d d' : Desk} {v : VisitOf} {a : VisitAnswer} {now : UInt64} {r : Option SessionRecord}

/-- A visit leaves a table dated by the log that notes it. -/
theorem visit (h : d.store.table.Dated w log) (hvisit : Desk.Visits w v d a d') :
    d'.store.table.Dated w (log ++ [.visit v a]) := by
  cases hvisit with
  | failed e hdown => exact h.congr fun key => Turn.lastFolded_concat_of_none rfl key log
  | opened hconnect hnone => exact h.put rfl (v.leftBy_opening w)
  | reopened hconnect hopen => exact h.put rfl (v.leftBy_opening w)
  | openedPartial hreport hnone => exact h.put rfl (v.leftBy_opening w)
  | applied hreport hopen haccepts =>
      exact h.put rfl (VisitOf.leftBy_fold (h.session_eq hopen))
  | duplicate hreport hopen haccepts =>
      exact h.congr fun key => Turn.lastFolded_concat_of_none rfl key log

/-- A wake-up puts nothing into a table. -/
theorem wake (h : d.store.table.Dated w log) (hwake : Desk.Wakes key now d r d') :
    d'.store.table.Dated w log := by
  cases hwake with
  | unreadable hfragment hlook hdecode => exact h.remove key
  | flushed hfragment hopen hdue => exact h.remove key
  | stale hregion hlook hleft => exact h.remove key
  | _ => exact h

end Table.Dated

/-- What is stored and emitted is booked by a log if the log dates the table, the events are those
that the turns of the log hand back, and each of them does so rightfully. -/
structure Booked (w : Windows) (earlier : List Event) (log : List Turn) (t : Table)
    (es : List Event) : Prop where
  dated : t.Dated w log
  handed : es = earlier ++ log.flatMap Turn.emitted
  rightful : ∀ t ∈ log, t.Rightful

/-- The books of a desk are its table and its events. -/
def Desk.Booked (w : Windows) (earlier : List Event) (log : List Turn) (d : Desk) : Prop :=
  Gatehouse.Booked w earlier log d.store.table d.events

namespace Desk.Booked

variable {w : Windows} {earlier : List Event} {log : List Turn} {d d' : Desk} {t : Turn}
variable {v : VisitOf} {a : VisitAnswer} {key : String} {now : UInt64} {r : Option SessionRecord}

/-- A turn is booked after the turns before it. -/
theorem concat (h : d.Booked w earlier log) (hdated : d'.store.table.Dated w (log ++ [t]))
    (hevents : d'.events = d.events ++ t.emitted) (hrightful : t.Rightful) :
    d'.Booked w earlier (log ++ [t]) where
  dated := hdated
  handed := by
    rw [hevents, h.handed, List.flatMap_append, List.flatMap_singleton, List.append_assoc]
  rightful := by
    intro t' ht'
    rcases List.mem_append.1 ht' with hbefore | hlast
    · exact h.rightful t' hbefore
    · rw [List.mem_singleton.1 hlast]
      exact hrightful

theorem visit (h : d.Booked w earlier log) (hvisit : Visits w v d a d') :
    d'.Booked w earlier (log ++ [.visit v a]) := by
  apply h.concat (h.dated.visit hvisit) (events_of_visits hvisit)
  intro r hr
  cases hvisit with
  | reopened hconnect hopen =>
      cases hr
      exact ⟨hconnect, h.dated.session_eq hopen⟩
  | _ => cases hr

theorem wake (h : d.Booked w earlier log) (hwake : Wakes key now d r d') :
    d'.Booked w earlier (log ++ [.wake key (.ok r)]) := by
  apply h.concat _ (events_of_wakes hwake)
  · intro r' hr'
    cases hwake with
    | flushed hfragment hopen hdue => exact hfragment
    | _ => cases hr'
  · apply (h.dated.wake hwake).congr
    intro key'
    exact Turn.lastFolded_concat_of_none rfl key' log

theorem visitAll (h : d.Booked w earlier log) (vs : List VisitOf) :
    (d.visitAll w vs).2.Booked w earlier
      (log ++ List.zipWith Turn.visit vs (d.visitAll w vs).1) := by
  induction vs generalizing log d with
  | nil =>
      rw [List.zipWith_nil_left, List.append_nil]
      exact h
  | cons v rest ih =>
      dsimp only [Desk.visitAll, List.zipWith_cons_cons]
      rw [List.append_cons]
      exact ih (h.visit (visits_visit w v d))

theorem tryExpiry (h : d.Booked w earlier log) (key : String) (now : UInt64) :
    (d.tryExpiry key now).2.Booked w earlier (log ++ [.wake key (d.tryExpiry key now).1]) := by
  obtain ⟨r, d', hexpiry, hwake⟩ | ⟨e, hexpiry, -⟩ := tryExpiry_cases key now d
  · rw [hexpiry]
    exact h.wake hwake
  · rw [hexpiry]
    apply h.concat _ (List.append_nil d.events).symm
    · intro r hr
      cases hr
    · apply h.dated.congr
      intro key'
      exact Turn.lastFolded_concat_of_none rfl key' log

theorem expireAfter (h : d.Booked w earlier log) (key : String) (now : UInt64)
    (before : List VisitOf) :
    let result := d.expireAfter w key now before
    result.2.Booked w earlier (log ++
      (List.zipWith Turn.visit before (result.1.1.getD []) ++ [.wake key result.1.2])) := by
  rw [expireAfter_eq]
  split
  · have hwake := (h.visitAll before).tryExpiry key now
    rw [List.append_assoc] at hwake
    exact hwake
  · dsimp only
    rw [Option.getD_none, List.zipWith_nil_right]
    exact h.tryExpiry key now

end Desk.Booked

namespace Fleet

/-- The books of a fleet are the table and the events that its front ends share. -/
def Booked (earlier : List Event) (log : List Turn) (f : Fleet) : Prop :=
  Gatehouse.Booked f.site.windows earlier log f.store.table f.events

variable {f g : Fleet} {earlier : List Event} {log : List Turn} {i : Nat} {key : String}
variable {now : UInt64}

theorem booked_of_isEmpty (h : f.store.table.IsEmpty) : f.Booked f.events [] where
  dated := .of_isEmpty h
  handed := (List.append_nil f.events).symm
  rightful := by
    intro t ht
    cases ht

theorem booked_step_visit (h : f.Booked earlier log) (i : Nat) (v : VisitOf) :
    (f.step (.visit i v)).2.Booked earlier
      (log ++ (Occurrence.visit i v).turns (f.step (.visit i v)).1) := by
  cases hd : f.desk? i with
  | none =>
      rw [step, actDesk_of_none hd]
      rw [← List.append_nil log] at h
      exact h
  | some d =>
      obtain ⟨m, -, rfl⟩ := desk?_eq_some hd
      rw [step_visit_of_desk? hd]
      exact Desk.Booked.visit (d := f.deskWith m.timer) h (Desk.visits_visit _ v _)

theorem booked_step_expire (h : f.Booked earlier log) (i : Nat) (key : String) (now : UInt64)
    (before : List VisitOf) :
    (f.step (.expire i key now before)).2.Booked earlier
      (log ++ (Occurrence.expire i key now before).turns
        (f.step (.expire i key now before)).1) := by
  cases hd : f.desk? i with
  | none =>
      rw [step, actDesk_of_none hd]
      rw [← List.append_nil log] at h
      exact h
  | some d =>
      obtain ⟨m, -, rfl⟩ := desk?_eq_some hd
      rw [step, actDesk_of_desk? hd]
      exact Desk.Booked.expireAfter (d := f.deskWith m.timer) h key now before

/-- Whatever happens is booked by the turns that it tells of. -/
theorem booked_meet (h : f.Booked earlier log) (o : Occurrence) :
    (f.meet o).2.Booked earlier (log ++ o.turns (f.meet o).1) := by
  cases ho : o.isQuiet with
  | true =>
      rw [Occurrence.turns_of_isQuiet ho, List.append_nil, Booked, site_meet]
      apply quiet_invariant (P := Gatehouse.Booked f.site.windows earlier log) _ _ h ho
      · intro t es id value hbooked
        refine ⟨hbooked.dated.put_of_not_fragment ?_, hbooked.handed, hbooked.rightful⟩
        exact Desk.isFragmentKey_of_isRegionKey (Desk.isRegionKey_regionKey id)
      · intro t es key hbooked
        exact ⟨hbooked.dated.remove key, hbooked.handed, hbooked.rightful⟩
  | false =>
      cases o with
      | visit i v => exact booked_step_visit h i v
      | expire i key now before => exact booked_step_expire h i key now before
      | deliver i key now before =>
          have hexpire := booked_step_expire (f := f.onTimer i Timer.next) h i key now before
          rw [Occurrence.turns_deliver]
          exact hexpire
      | _ => cases ho

/-- What is emitted is what the turns hand back. -/
theorem events_meet (h : f.Booked earlier log) (o : Occurrence) :
    (f.meet o).2.events = f.events ++ (o.turns (f.meet o).1).flatMap Turn.emitted :=
  calc (f.meet o).2.events
      = earlier ++ (log ++ o.turns (f.meet o).1).flatMap Turn.emitted := (booked_meet h o).handed
    _ = (earlier ++ log.flatMap Turn.emitted) ++ (o.turns (f.meet o).1).flatMap Turn.emitted := by
        rw [List.flatMap_append, List.append_assoc]
    _ = f.events ++ (o.turns (f.meet o).1).flatMap Turn.emitted := by rw [h.handed]

/-- A course is booked by its turns. -/
theorem booked_course (h : f.Booked earlier log) (os : List Occurrence) :
    (f.course os).2.Booked earlier (log ++ f.courseTurns os) := by
  induction os generalizing f log with
  | nil =>
      rw [show f.courseTurns [] = [] from rfl, List.append_nil]
      exact h
  | cons o rest ih =>
      have hrest := ih (booked_meet h o)
      rw [List.append_assoc] at hrest
      exact hrest

/-- A wake-up takes a fragment out if it hands back and emits the record of the fragment and leaves
everything else as it was. -/
structure TakesOut (g : Fleet) (key : String) (x : Fragment) (result : Answer × Fleet) : Prop where
  answer : ∃ answers, result.1 = .expired answers (.ok (some x.finish))
  gone : result.2.store.table.get? key = none
  others : ∀ key', key' ≠ key → result.2.store.table.get? key' = g.store.table.get? key'
  events : result.2.events = g.events ++ [.session x.finish]
  members : result.2.members = g.members

/-- A wake-up is put off if it changes neither the store nor the events, and the key is armed again
where it was answered, after some seconds. Nothing else changes there or at another front end. -/
structure PutsOff (g : Fleet) (i : Nat) (key : String) (seconds : Nat) (result : Answer × Fleet) :
    Prop where
  answer : ∃ answers, result.1 = .expired answers (.ok none)
  store : result.2.store = g.store
  events : result.2.events = g.events
  rearmed : ∃ m timer, g.members[i]? = some m ∧ m.timer.Rearmed key seconds timer ∧
    result.2.members[i]? = some { m with timer := timer }
  others : ∀ j, j ≠ i → result.2.members[j]? = g.members[j]?

/-- Visits at one front end are visits at its desk. -/
theorem course_visits {d : Desk} (hd : g.desk? i = some d) (vs : List VisitOf) :
    (g.course (vs.map (.visit i))).2 = g.putDesk i (d.visitAll g.site.windows vs).2 := by
  induction vs generalizing g d with
  | nil => exact (putDesk_desk? hd).symm
  | cons v rest ih =>
      have hstep : (g.meet (.visit i v)).2 = g.putDesk i (d.visit g.site.windows v).2 := by
        rw [meet, step_visit_of_desk? hd]
      calc (g.course ((v :: rest).map (.visit i))).2
          = ((g.meet (.visit i v)).2.course (rest.map (.visit i))).2 := rfl
        _ = ((g.putDesk i (d.visit g.site.windows v).2).course (rest.map (.visit i))).2 := by
            rw [hstep]
        _ = g.putDesk i (d.visitAll g.site.windows (v :: rest)).2 := by
            rw [ih (desk?_putDesk hd), putDesk_putDesk]
            rfl

theorem course_visits_of_none (hd : g.desk? i = none) (vs : List VisitOf) :
    (g.course (vs.map (.visit i))).2 = g := by
  induction vs with
  | nil => rfl
  | cons v rest ih =>
      have hstep : (g.meet (.visit i v)).2 = g := by
        rw [meet, step, actDesk_of_none hd]
      calc (g.course ((v :: rest).map (.visit i))).2
          = ((g.meet (.visit i v)).2.course (rest.map (.visit i))).2 := rfl
        _ = g := by rw [hstep, ih]

variable {d : Desk} {x : Fragment} {answers : Option (List VisitAnswer)}

/-- A wake-up for a fragment is answered at the desk that the visits leave which land just before
the store is looked at. -/
theorem meet_expire_eq (hkey : Desk.isFragmentKey key = true) (now : UInt64)
    {before : List VisitOf} (hd : (g.course (before.map (.visit i))).2.desk? i = some d) :
    ∃ answers, g.meet (.expire i key now before) =
      (.expired answers (d.tryExpiry key now).1,
        (g.course (before.map (.visit i))).2.putDesk i (d.tryExpiry key now).2) := by
  have hlooked : (Desk.isFragmentKey key || Desk.isRegionKey key) = true := by
    rw [hkey]
    rfl
  cases hd₀ : g.desk? i with
  | none =>
      rw [course_visits_of_none hd₀, hd₀] at hd
      cases hd
  | some d₀ =>
      rw [course_visits hd₀] at hd ⊢
      obtain rfl := Option.some.inj ((desk?_putDesk hd₀).symm.trans hd)
      rw [putDesk_putDesk, meet, step, actDesk_of_desk? hd₀]
      simp only [Desk.expireAfter_eq, hlooked, ↓reduceIte]
      exact ⟨_, rfl⟩

/-- A fragment that is due is taken out. -/
theorem takesOut_of_due (hd : g.desk? i = some d) (hup : .removeIf ∉ d.store.down)
    (hkey : Desk.isFragmentKey key = true) (hopen : d.fragment? key = some x) (hdue : x.due ≤ now) :
    g.TakesOut key x
      (.expired answers (d.tryExpiry key now).1, g.putDesk i (d.tryExpiry key now).2) := by
  rw [Desk.tryExpiry_eq hup (.flushed hkey hopen hdue)]
  obtain ⟨m, -, rfl⟩ := desk?_eq_some hd
  refine ⟨⟨answers, rfl⟩, ?_, ?_, rfl, ?_⟩
  · exact (Desk.look_without _ key key).trans (if_pos rfl)
  · intro key' hne
    exact (Desk.look_without _ key key').trans (if_neg hne)
  · have hback : (g.putDesk i (g.deskWith m.timer)).members = g.members :=
      congrArg Fleet.members (putDesk_desk? hd)
    exact hback

/-- The wake-up for a fragment that is not yet due is put off until it is. -/
theorem putsOff_of_early (hd : g.desk? i = some d) (hup : .removeIf ∉ d.store.down)
    (hkey : Desk.isFragmentKey key = true) (hopen : d.fragment? key = some x) (hdue : now < x.due) :
    g.PutsOff i key (x.due.toNat - now.toNat)
      (.expired answers (d.tryExpiry key now).1, g.putDesk i (d.tryExpiry key now).2) := by
  rw [Desk.tryExpiry_eq hup (.early hkey hopen hdue)]
  obtain ⟨m, hm, rfl⟩ := desk?_eq_some hd
  have hleft : (x.due - now).toNat = x.due.toNat - now.toNat :=
    UInt64.toNat_sub_of_le _ _ (UInt64.le_of_lt hdue)
  rw [← hleft]
  exact {
    answer := ⟨answers, rfl⟩
    store := rfl
    events := rfl
    rearmed := ⟨m, _, hm, Timer.rearmed_armSeconds, member_putDesk hm⟩
    others := fun j hj => member_putDesk_of_ne hj }

/-- What is put off is not taken out. -/
theorem PutsOff.not_takesOut {seconds : Nat} {bytes : Bytes} {result : Answer × Fleet}
    (h : g.PutsOff i key seconds result) (hlook : g.store.table.get? key = some bytes) :
    ¬ g.TakesOut key x result := by
  intro htakes
  have hgone := htakes.gone
  rw [h.store, hlook] at hgone
  cases hgone

/-- The wake-up for a fragment goes by the deadline of the last visit that was folded into it, once
the visits before it have landed. A time to which it is put off must be within reach. -/
theorem meet_expire_of_booked {landed : Fleet} (hbooked : landed.Booked earlier log)
    {before : List VisitOf} (hlanded : (g.course (before.map (.visit i))).2 = landed) {m : Member}
    (hkey : Desk.isFragmentKey key = true) (hm : landed.members[i]? = some m)
    (hup : .removeIf ∉ landed.store.down) {bytes : Bytes}
    (hlook : landed.store.table.get? key = some bytes) (now : UInt64) :
    ∃ x v, Fragment.decode? bytes = some x ∧ Turn.lastFolded key log = some v ∧
      (v.deadline landed.site.windows < UInt64.size →
        let result := g.meet (.expire i key now before)
        (landed.TakesOut key x result ↔ v.deadline landed.site.windows ≤ now.toNat) ∧
          (now.toNat < v.deadline landed.site.windows →
            m.timer.Reaches ((v.deadline landed.site.windows - now.toNat) * 1000) →
              landed.PutsOff i key (v.deadline landed.site.windows - now.toNat) result)) := by
  obtain ⟨x, v, hdecode, hlast, hleft⟩ := hbooked.dated key bytes hkey hlook
  refine ⟨x, v, hdecode, hlast, ?_⟩
  intro hroom result
  have hd : landed.desk? i = some (landed.deskWith m.timer) := desk?_of_member hm
  have hopen : (landed.deskWith m.timer).fragment? key = some x :=
    Option.bind_eq_some_iff.2 ⟨bytes, hlook, hdecode⟩
  rw [← hlanded] at hd
  obtain ⟨answers, hresult⟩ := meet_expire_eq hkey now hd
  rw [hlanded] at hd hresult
  rw [← hleft.toNat_due hroom]
  have hearly : now.toNat < x.due.toNat →
      landed.PutsOff i key (x.due.toNat - now.toNat) result := by
    intro hnow
    rw [show result = _ from hresult]
    exact putsOff_of_early hd hup hkey hopen (UInt64.lt_iff_toNat_lt.2 hnow)
  refine ⟨⟨?_, ?_⟩, fun hnow _ => hearly hnow⟩
  · intro htakes
    apply Nat.le_of_not_lt
    intro hnow
    exact (hearly hnow).not_takesOut hlook htakes
  · intro hnow
    rw [show result = _ from hresult]
    exact takesOut_of_due hd hup hkey hopen (UInt64.le_iff_toNat_le.2 hnow)

/-- The course of a fleet flushes what is due and nothing else. A wake-up for a stored fragment takes
it out if the deadline of the last visit that was folded into it has come, be it one that landed just
before the store was looked at, and is put off for the time that is left if not, provided the clock
can show the time to which it is put off. Apart from that only connects emit records, each at most
one of its own session. -/
structure FlushesWhenDue (f : Fleet) (os : List Occurrence) : Prop where
  flush : ∀ (i : Nat) (key : String) (now : UInt64) (before : List VisitOf) (m : Member)
    (bytes : Bytes),
    let course := os ++ before.map (.visit i)
    let landed := (f.course course).2
    Desk.isFragmentKey key = true → landed.members[i]? = some m →
    .removeIf ∉ landed.store.down → landed.store.table.get? key = some bytes →
      ∃ x v, Fragment.decode? bytes = some x ∧
        Turn.lastFolded key (f.courseTurns course) = some v ∧
        (v.deadline f.site.windows < UInt64.size →
          let result := (f.course os).2.meet (.expire i key now before)
          (landed.TakesOut key x result ↔ v.deadline f.site.windows ≤ now.toNat) ∧
            (now.toNat < v.deadline f.site.windows →
              m.timer.Reaches ((v.deadline f.site.windows - now.toNat) * 1000) →
                landed.PutsOff i key (v.deadline f.site.windows - now.toNat) result))
  emits : ∀ o : Occurrence,
    let result := (f.course os).2.meet o
    result.2.events = (f.course os).2.events ++ (o.turns result.1).flatMap Turn.emitted ∧
      ∀ t ∈ o.turns result.1, t.Rightful

/-- Every course from an empty store flushes what is due and nothing else. The front ends may come in
any order, and the store may fail in between. -/
theorem flushes_when_due (hempty : f.store.table.IsEmpty) (os : List Occurrence) :
    f.FlushesWhenDue os where
  flush := by
    intro i key now before m bytes course landed hkey hm hup hlook
    have hbooked : landed.Booked f.events (f.courseTurns course) :=
      booked_course (booked_of_isEmpty hempty) course
    have hlanded : ((f.course os).2.course (before.map (.visit i))).2 = landed :=
      (course_append f os _).symm
    have hflush := meet_expire_of_booked hbooked hlanded hkey hm hup hlook now
    rw [show landed.site = f.site from site_course f course] at hflush
    exact hflush
  emits := by
    intro o result
    have hbooked : (f.course os).2.Booked f.events (f.courseTurns os) :=
      booked_course (booked_of_isEmpty hempty) os
    constructor
    · exact events_meet hbooked o
    · intro t ht
      exact (booked_meet hbooked o).rightful t (List.mem_append_right _ ht)

/-- A session connects at one front end and disconnects at another one, which cuts its window to a
second. Its wake-up is put off at the time of the disconnect, and takes it out a second later. -/
theorem flushes_when_due_cut_short :
    let id : SessionId := ⟨"a1", by decide, by decide, by decide⟩
    let os : List Occurrence :=
      [.visit 0 ⟨id, .connect Dict.empty, 5, "x"⟩, .visit 1 ⟨id, .disconnect 10 none, 7, "y"⟩]
    pair.store.table.IsEmpty ∧ pair.FlushesWhenDue os ∧
      (pair.course os).2.PutsOff 0 id.fragmentKey 1
        ((pair.course os).2.meet (.expire 0 id.fragmentKey 7 [])) ∧
      ∃ x, (pair.course os).2.TakesOut id.fragmentKey x
        ((pair.course os).2.meet (.expire 0 id.fragmentKey 8 [])) := by
  intro id os
  have hempty : pair.store.table.IsEmpty := Table.isEmpty_memory
  have hflushes : pair.FlushesWhenDue os := flushes_when_due hempty os
  obtain ⟨m, hm⟩ : ∃ m, (pair.course os).2.members[0]? = some m := ⟨_, rfl⟩
  obtain ⟨hlast, hup, hsome, hreach⟩ :
      Turn.lastFolded id.fragmentKey (pair.courseTurns os) =
          some ⟨id, .disconnect 10 none, 7, "y"⟩ ∧
        .removeIf ∉ (pair.course os).2.store.down ∧
          ((pair.course os).2.store.table.get? id.fragmentKey).isSome = true ∧
            ∀ m ∈ (pair.course os).2.members[0]?, m.timer.Reaches (1 * 1000) := by
    decide +kernel
  obtain ⟨bytes, hlook⟩ := Option.isSome_iff_exists.1 hsome
  refine ⟨hempty, hflushes, ?_, ?_⟩
  · obtain ⟨x, v, -, hv, hdue⟩ := hflushes.flush 0 id.fragmentKey 7 [] m bytes
      (Desk.isFragmentKey_fragmentKey id) hm hup hlook
    obtain rfl := Option.some.inj (hlast.symm.trans hv)
    exact (hdue (by decide)).2 (by decide) (hreach m hm)
  · obtain ⟨x, v, -, hv, hdue⟩ := hflushes.flush 0 id.fragmentKey 8 [] m bytes
      (Desk.isFragmentKey_fragmentKey id) hm hup hlook
    obtain rfl := Option.some.inj (hlast.symm.trans hv)
    exact ⟨x, (hdue (by decide)).1.2 (by decide)⟩

end Fleet

end Gatehouse
