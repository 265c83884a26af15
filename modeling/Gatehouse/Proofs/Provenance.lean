import Gatehouse.Proofs.Admission
import Gatehouse.Proofs.Beside.Run
import Gatehouse.Proofs.Ledger.Run
import Gatehouse.Proofs.Service.Handshakes
import Gatehouse.Proofs.Service.Lifecycle
import Mathlib.Data.List.Infix

/-!
# Where records come from

A record is emitted for a fragment that was read from the store, by the visit that takes its place or
by the wake-up that takes it out. Wake-ups put nothing in place of what they take, so whatever a
front end emits while it catches up with its wake-ups was there when it began.
-/

namespace Gatehouse

/-- A table holds the fragment of a record, as bytes that can be read under the key of a fragment. -/
def Table.Holds (t : Table) (r : SessionRecord) : Prop :=
  ∃ key bytes x, Desk.isFragmentKey key = true ∧ t.get? key = some bytes ∧
    Fragment.decode? bytes = some x ∧ r = x.finish

/-- Events follow others from a table if each record among them is that of a fragment that the table
holds. -/
def Draws (t : Table) (es es' : List Event) : Prop :=
  ∃ news, es' = es ++ news ∧ ∀ r, .session r ∈ news → t.Holds r

namespace Draws

variable {t : Table} {es es' es'' news : List Event} {e : Event} {x : Fragment} {key : String}

theorem of_eq (h : es' = es) : Draws t es es' :=
  ⟨[], h.trans (List.append_nil es).symm, nofun⟩

/-- Events without a record may follow. -/
theorem tell (h : Draws t es es') (hnews : ∀ e ∈ news, e.record? = none) :
    Draws t es (es' ++ news) := by
  obtain ⟨before, rfl, hbefore⟩ := h
  refine ⟨before ++ news, List.append_assoc _ _ _, ?_⟩
  intro r hr
  rcases List.mem_append.1 hr with hr | hr
  · exact hbefore r hr
  · cases hnews _ hr

theorem emit (h : Draws t es es') (he : e.record? = none) : Draws t es (es' ++ [e]) := by
  apply h.tell
  intro e' he'
  rw [List.mem_singleton.1 he']
  exact he

/-- The record of a fragment that the table holds may follow. -/
theorem record (hkey : Desk.isFragmentKey key = true)
    (hopen : (t.get? key).bind Fragment.decode? = some x) :
    Draws t es (es ++ [.session x.finish]) := by
  obtain ⟨bytes, hlook, hdecode⟩ := Option.bind_eq_some_iff.1 hopen
  refine ⟨[.session x.finish], rfl, ?_⟩
  intro r hr
  cases List.mem_singleton.1 hr
  exact ⟨key, bytes, x, hkey, hlook, hdecode, rfl⟩

end Draws

/-- Only taking out: events follow others from a table, and the table that is left has under each key
of a fragment what was there or nothing. -/
structure Sheds (t : Table) (es : List Event) (t' : Table) (es' : List Event) : Prop where
  draws : Draws t es es'
  left : ∀ key, Desk.isFragmentKey key = true → t'.get? key = t.get? key ∨ t'.get? key = none

namespace Sheds

variable {t t' t'' : Table} {es es' es'' : List Event} {r : SessionRecord}

theorem refl (t : Table) (es : List Event) : Sheds t es t es := ⟨.of_eq rfl, fun _ _ => .inl rfl⟩

theorem holds (h : Sheds t es t' es') (hr : t'.Holds r) : t.Holds r := by
  obtain ⟨key, bytes, x, hkey, hlook, hdecode, rfl⟩ := hr
  rcases h.left key hkey with hsame | hnone
  · exact ⟨key, bytes, x, hkey, hsame.symm.trans hlook, hdecode, rfl⟩
  · cases hnone.symm.trans hlook

theorem draws_trans (h : Sheds t es t' es') (h' : Draws t' es' es'') : Draws t es es'' := by
  obtain ⟨before, rfl, hbefore⟩ := h.draws
  obtain ⟨news, rfl, hnews⟩ := h'
  refine ⟨before ++ news, List.append_assoc _ _ _, ?_⟩
  intro r hr
  rcases List.mem_append.1 hr with hr | hr
  · exact hbefore r hr
  · exact h.holds (hnews r hr)

theorem trans (h : Sheds t es t' es') (h' : Sheds t' es' t'' es'') : Sheds t es t'' es'' := by
  refine ⟨h.draws_trans h'.draws, ?_⟩
  intro key hkey
  rcases h'.left key hkey with hsame | hnone
  · rw [hsame]
    exact h.left key hkey
  · exact .inr hnone

end Sheds

namespace Desk

variable {d d' : Desk} {w : Windows} {v : VisitOf} {a : VisitAnswer} {key : String} {now : UInt64}
variable {r : Option SessionRecord} {id : SessionId} {tag : String} {fields : Dict String}

/-- What a visit emits follows from what it finds. -/
theorem draws_of_visits (h : Visits w v d a d') : Draws d.store.table d.events d'.events := by
  cases h with
  | reopened hvisit hopen => exact .record (isFragmentKey_fragmentKey v.id) hopen
  | _ => exact .of_eq rfl

theorem draws_of_connect (h : d.connect w id tag fields now = .ok (r, d')) :
    Draws d.store.table d.events d'.events := by
  obtain ⟨-, -, rfl⟩ | ⟨f, hopen, -, rfl⟩ := connect_cases h
  · exact .of_eq rfl
  · exact .record (isFragmentKey_fragmentKey id) hopen

/-- A wake-up takes out the fragment whose record it emits, and puts nothing in its place. -/
theorem sheds_of_wakes (h : Wakes key now d r d') :
    Sheds d.store.table d.events d'.store.table d'.events := by
  refine ⟨?_, ?_⟩
  · cases h with
    | flushed hfragment hopen hdue => exact .record hfragment hopen
    | _ => exact .of_eq rfl
  · intro key' _
    have hleft : ∀ key', (d.without key).look key' = d.look key' ∨
        (d.without key).look key' = none := by
      intro key'
      rw [look_without]
      split
      · exact .inr rfl
      · exact .inl rfl
    cases h with
    | unreadable hfragment hlook hdecode => exact hleft key'
    | flushed hfragment hopen hdue => exact hleft key'
    | stale hregion hlook hleft' => exact hleft key'
    | _ => exact .inl rfl

theorem sheds_tryExpiry (key : String) (now : UInt64) (d : Desk) :
    Sheds d.store.table d.events (d.tryExpiry key now).2.store.table
      (d.tryExpiry key now).2.events := by
  obtain ⟨r, d', hexpiry, hwake⟩ | ⟨e, hexpiry, -⟩ := tryExpiry_cases key now d
  · rw [hexpiry]
    exact sheds_of_wakes hwake
  · rw [hexpiry]
    exact .refl _ _

theorem sheds_answerAll (now : UInt64) (keys : List String) (d : Desk) :
    Sheds d.store.table d.events (answerAll now keys d).2.store.table
      (answerAll now keys d).2.events := by
  induction keys generalizing d with
  | nil => exact .refl _ _
  | cons key rest ih =>
      unfold answerAll
      cases hexpiry : d.handleExpiry key now with
      | error e => exact ih d
      | ok result => exact (sheds_of_wakes (handleExpiry_wakes hexpiry)).trans (ih result.2)

theorem sheds_wake (now : UInt64) (d : Desk) :
    Sheds d.store.table d.events (wake now d).2.store.table (wake now d).2.events :=
  sheds_answerAll now d.timer.collect.1 { d with timer := d.timer.collect.2 }

theorem events_authenticate (g : Gate) (user token : String) (remote : Option Address)
    (now : UInt64) (d : Desk) : (g.authenticate user token remote now d).2.events = d.events := by
  have hends := Gate.authenticate_ends g user token remote now d
  generalize (g.authenticate user token remote now d).1 = answer at hends
  generalize (g.authenticate user token remote now d).2 = d' at hends ⊢
  cases hends with
  | _ => rfl

theorem events_purgeRegions {n : Nat} (h : d.purgeRegions now = .ok (n, d')) :
    d'.events = d.events :=
  purgeRegions_invariant (P := fun e => e.events = d.events) (fun _ _ he => he) rfl h

end Desk

/-! ## Requests -/

/-- A front end's events after some work follow from its table before. -/
abbrev FrontEnd.Draws (fe fe' : FrontEnd) : Prop :=
  Gatehouse.Draws fe.desk.store.table fe.desk.events fe'.desk.events

namespace Site

variable {s : Site} {c : Call} {fe : FrontEnd}

theorem draws_openSession (a : Accepted) (id : SessionId) :
    fe.Draws (s.openSession c a id fe).2 := by
  unfold openSession
  split
  · exact .of_eq rfl
  · dsimp only
    split
    · exact .of_eq rfl
    · rename_i desk hconnect
      have hdesk := Desk.draws_of_connect hconnect
      rw [← Desk.events_tryForgetRegion id desk] at hdesk
      exact hdesk.emit rfl

theorem draws_connected : fe.Draws (s.connected c fe).2 := by
  unfold connected
  split
  · exact .of_eq rfl
  · split
    · exact .of_eq rfl
    · exact draws_openSession _ _
    · exact Draws.emit (.of_eq rfl) rfl

theorem draws_failed : fe.Draws (s.failed c fe).2 := by
  unfold failed
  split
  · exact .of_eq rfl
  · split
    · exact .of_eq rfl
    · exact Draws.emit (.of_eq rfl) rfl

theorem draws_status : fe.Draws (s.status c fe).2 := by
  unfold status
  split
  · exact .of_eq rfl
  · split
    · exact .of_eq rfl
    · split
      · exact .of_eq rfl
      · split
        · exact .of_eq rfl
        · simp only [reportUsage]
          split
          · exact .of_eq rfl
          · rename_i desk hreport
            exact Draws.emit (.of_eq (Desk.report_quiet hreport).1) rfl

theorem draws_handshake : fe.Draws (s.handshake c fe).2 := by
  unfold handshake
  split
  · exact .of_eq rfl
  · split
    · exact .of_eq rfl
    · unfold greet
      dsimp only
      split
      · exact .of_eq rfl
      · exact Draws.tell (.of_eq rfl) (record?_handshakeEvents _ _ _)

/-- What a request emits follows from what is stored. -/
theorem draws_handle (e : Endpoint) : fe.Draws (s.handle e c fe).2 := by
  cases e with
  | handshake => exact draws_handshake
  | connected => exact draws_connected
  | failed => exact draws_failed
  | status => exact draws_status
  | download =>
      rw [handle, download_eq]
      exact .of_eq rfl

theorem draws_route (r : Request) : fe.Draws (s.route r fe).2 := by
  unfold route
  split
  · exact .of_eq rfl
  · split
    · exact draws_handle _
    · exact .of_eq rfl

/-- The answer to a request that waits for a file is a download, and changes nothing. -/
theorem handle_of_awaitsFile {e : Endpoint} (h : s.awaitsFile e c = true) :
    (s.handle e c fe).2 = fe := by
  rw [awaitsFile, Bool.and_eq_true, beq_iff_eq] at h
  obtain ⟨rfl, -⟩ := h
  rw [handle, download_eq]

theorem route_of_awaits {r : Request} (h : s.awaits r = true) : (s.route r fe).2 = fe := by
  unfold awaits at h
  unfold route
  split at h
  · rename_i e hpath
    obtain ⟨hallows, hwaits⟩ := Bool.and_eq_true_iff.1 h
    rw [hpath]
    dsimp only
    rw [if_pos hallows]
    exact handle_of_awaitsFile hwaits
  · cases h

end Site

namespace Fleet

variable {f g g' : Fleet} {i : Nat} {α : Type}

/-- A fleet is left by taking out alone. -/
abbrev Sheds (f g : Fleet) : Prop :=
  Gatehouse.Sheds f.store.table f.events g.store.table g.events

/-- A fleet's events follow from the table of another. -/
abbrev Draws (f g : Fleet) : Prop := Gatehouse.Draws f.store.table f.events g.events

/-! ## Catching up with wake-ups -/

theorem sheds_of_frame (hstore : g.store = f.store) (hevents : g.events = f.events) : f.Sheds g := by
  unfold Sheds
  rw [hstore, hevents]
  exact .refl _ _

theorem sheds_actDesk (idle : α) {work : Desk → α × Desk}
    (hwork : ∀ d, Gatehouse.Sheds d.store.table d.events (work d).2.store.table (work d).2.events) :
    f.Sheds (f.actDesk i idle work).2 := by
  cases hd : f.desk? i with
  | none =>
      rw [actDesk_of_none hd]
      exact sheds_of_frame rfl rfl
  | some d =>
      rw [actDesk_of_desk? hd]
      obtain ⟨m, -, rfl⟩ := desk?_eq_some hd
      exact hwork (f.deskWith m.timer)

theorem sheds_perform (f : Fleet) (c : Chore) : f.Sheds (f.perform c) := by
  cases c with
  | sweep i =>
      obtain ⟨hstore, hevents, -⟩ := sweepInRhythm_frame f i
      exact sheds_of_frame hstore hevents
  | answer i => exact sheds_actDesk [] (Desk.sheds_wake f.clock)

theorem sheds_performAll (f : Fleet) : f.Sheds f.performAll := by
  have hall (chores : List Chore) (g : Fleet) : g.Sheds (chores.foldl perform g) := by
    induction chores generalizing g with
    | nil => exact sheds_of_frame rfl rfl
    | cons c rest ih => exact (sheds_perform g c).trans (ih (g.perform c))
  exact hall f.chores { f with chores := [] }

theorem sheds_work (f : Fleet) : f.Sheds f.work :=
  (sheds_performAll f).trans (sheds_performAll f.performAll)

theorem sheds_pass (f : Fleet) (t : UInt64) : f.Sheds (f.pass t) := by
  obtain ⟨hstore, hevents, -⟩ := summon_frame (f.moveTo t).work
  have hmoved : f.Sheds (f.moveTo t) := sheds_of_frame rfl rfl
  exact (hmoved.trans (sheds_work (f.moveTo t))).trans (sheds_of_frame hstore hevents)

theorem sheds_run (n : Nat) (f : Fleet) : f.Sheds (run n f) := by
  induction n generalizing f with
  | zero => exact sheds_of_frame rfl rfl
  | succ n ih =>
      have hsecond := (sheds_pass f (f.clock + 1)).trans (sheds_work (f.pass (f.clock + 1)))
      exact hsecond.trans (ih _)

theorem sheds_wakeByHand (f : Fleet) (i : Nat) (now : UInt64) :
    f.Sheds (f.wakeByHand i now).2 := by
  unfold wakeByHand
  split
  · have hswept : f.Sheds (f.onTimer i Timer.sweep) := sheds_of_frame rfl rfl
    exact hswept.trans (sheds_actDesk [] (Desk.sheds_wake now))
  · exact sheds_of_frame rfl rfl

theorem sheds_wakeEach (now : UInt64) (is : List Nat) (f : Fleet) :
    f.Sheds (wakeEach now is f).2 := by
  induction is generalizing f with
  | nil => exact sheds_of_frame rfl rfl
  | cons i rest ih => exact (sheds_wakeByHand f i now).trans (ih (f.wakeByHand i now).2)

theorem sheds_start (f : Fleet) (i interval : Nat) : f.Sheds (f.start i interval) := by
  unfold start
  split
  · obtain ⟨hstore, hevents, -⟩ := queue_frame (f.following i interval) (.sweep i)
    have hqueued : f.Sheds ((f.following i interval).queue (.sweep i)) :=
      sheds_of_frame hstore hevents
    exact hqueued.trans (sheds_work _)
  · exact sheds_of_frame rfl rfl

/-! ## Steps -/

/-- What happens at a front end emits what follows from the table. -/
theorem draws_act (idle : α) {work : FrontEnd → α × FrontEnd}
    (hwork : ∀ fe, FrontEnd.Draws fe (work fe).2) : f.Draws (f.act i idle work).2 := by
  unfold act frontEnd?
  cases f.members[i]? with
  | none => exact .of_eq rfl
  | some m => exact hwork _

/-- What is tried at a desk without an event emits none. -/
theorem draws_tryDesk (idle : α) {work : Desk → Except Unavailable (α × Desk)}
    (hwork : ∀ d a d', work d = .ok (a, d') → d'.events = d.events) :
    f.Draws (f.tryDesk i idle work).2 := by
  obtain hsame | ⟨d, a, d', hd, hok, hput⟩ := tryDesk_cases (f := f) i idle work
  · rw [hsame]
    exact .of_eq rfl
  · rw [hput]
    obtain ⟨m, -, rfl⟩ := desk?_eq_some hd
    exact .of_eq (hwork _ a d' hok)

theorem draws_tryChange {work : Desk → Except Unavailable Desk}
    (hwork : ∀ d d', work d = .ok d' → d'.events = d.events) :
    f.Draws (f.tryDesk i () fun d => (work d).map fun d' => ((), d')).2 := by
  apply draws_tryDesk
  intro d a d' hok
  obtain ⟨e, hdone, heq⟩ := ok_of_map hok
  cases heq
  exact hwork d d' hdone

/-- Front ends that go on working while a request waits for a file take out what was there before
the request. -/
theorem draws_waiting {work : FrontEnd → Answer × FrontEnd} {waits : Bool}
    (hwork : ∀ fe, FrontEnd.Draws fe (work fe).2)
    (hwaits : waits = true → ∀ fe, (work fe).2 = fe) :
    f.Draws (if waits then (f.act i .noMember work).2.work else (f.act i .noMember work).2) := by
  split
  · rename_i hwaiting
    have hsame : (f.act i .noMember work).2.store = f.store ∧
        (f.act i .noMember work).2.events = f.events := by
      unfold act frontEnd?
      cases f.members[i]? with
      | none => exact ⟨rfl, rfl⟩
      | some m =>
          dsimp only [Option.map_some]
          rw [hwaits hwaiting]
          exact ⟨rfl, rfl⟩
    exact ((sheds_of_frame hsame.1 hsame.2).trans (sheds_work _)).draws
  · exact draws_act .noMember hwork

/-- The fleets at which a step looks into the store. Visits that land before a wake-up looks come one
by one. -/
def moments (f : Fleet) : Step → List Fleet
  | .expire i _ _ before => before.inits.map fun vs => f.after (vs.map (.visit i))
  | _ => [f]

/-- A fleet's events follow from the tables of some moments. -/
def DrawsFrom (moments : List Fleet) (f g : Fleet) : Prop :=
  ∃ news, g.events = f.events ++ news ∧
    ∀ r, .session r ∈ news → ∃ m ∈ moments, m.store.table.Holds r

theorem at_moment {ms : List Fleet} (h : f.Draws g) (hmem : f ∈ ms) : DrawsFrom ms f g := by
  obtain ⟨news, hevents, hnews⟩ := h
  exact ⟨news, hevents, fun r hr => ⟨f, hmem, hnews r hr⟩⟩

theorem DrawsFrom.append {ms ms' : List Fleet} (h : DrawsFrom ms f g) (h' : DrawsFrom ms' g g') :
    DrawsFrom (ms ++ ms') f g' := by
  obtain ⟨before, hbefore, hheld⟩ := h
  obtain ⟨news, hnews, hheld'⟩ := h'
  refine ⟨before ++ news, ?_, ?_⟩
  · rw [hnews, hbefore, List.append_assoc]
  · intro r hr
    rcases List.mem_append.1 hr with hr | hr
    · obtain ⟨m, hm, hholds⟩ := hheld r hr
      exact ⟨m, List.mem_append_left ms' hm, hholds⟩
    · obtain ⟨m, hm, hholds⟩ := hheld' r hr
      exact ⟨m, List.mem_append_right ms hm, hholds⟩

theorem draws_visit (f : Fleet) (i : Nat) (v : VisitOf) : f.Draws (f.step (.visit i v)).2 := by
  cases hd : f.desk? i with
  | none =>
      rw [step, actDesk_of_none hd]
      exact .of_eq rfl
  | some d =>
      rw [step_visit_of_desk? hd]
      obtain ⟨m, -, rfl⟩ := desk?_eq_some hd
      exact Desk.draws_of_visits (Desk.visits_visit _ v _)

theorem sheds_expire_alone (f : Fleet) (i : Nat) (key : String) (now : UInt64) :
    f.Sheds (f.step (.expire i key now [])).2 := by
  apply sheds_actDesk
  intro d
  rw [Desk.expireAfter_nil]
  exact Desk.sheds_tryExpiry key now d

theorem drawsFrom_expire (f : Fleet) (i : Nat) (key : String) (now : UInt64)
    (before : List VisitOf) :
    DrawsFrom (f.moments (.expire i key now before)) f (f.step (.expire i key now before)).2 := by
  by_cases hkey : (Desk.isFragmentKey key || Desk.isRegionKey key) = true
  · rw [(step_expire_landing hkey before).1, moments]
    induction before generalizing f with
    | nil => exact at_moment (sheds_expire_alone f i key now).draws List.mem_cons_self
    | cons v rest ih =>
        -- the first visit looks at the fleet, and the others at what it leaves
        have hfirst : DrawsFrom [f] f (f.step (.visit i v)).2 :=
          at_moment (draws_visit f i v) List.mem_cons_self
        have hall := hfirst.append (ih (f.step (.visit i v)).2)
        rw [List.inits_cons, List.map_cons, List.map_map]
        exact hall
  · have hunknown : f.Draws (f.step (.expire i key now before)).2 := by
      apply Gatehouse.Sheds.draws
      apply sheds_actDesk
      intro d
      rw [Desk.expireAfter_eq, if_neg hkey]
      exact Desk.sheds_tryExpiry key now d
    apply at_moment hunknown
    exact List.mem_map.2 ⟨[], (List.mem_inits _ _).2 List.nil_prefix, rfl⟩

/-- The records that a step emits are those of fragments that the table holds at its moments. -/
theorem step_drawsFrom (f : Fleet) (s : Step) : DrawsFrom (f.moments s) f (f.step s).2 := by
  have hnow : ∀ {g : Fleet}, f.Draws g → DrawsFrom [f] f g :=
    fun h => at_moment h List.mem_cons_self
  cases s with
  | expire i key now before => exact drawsFrom_expire f i key now before
  | visit i v => exact hnow (draws_visit f i v)
  | skip t => exact hnow (sheds_pass f t).draws
  | wakeAll t => exact hnow ((sheds_pass f t).trans (sheds_wakeEach t _ (f.pass t))).draws
  | wake i now =>
      apply hnow
      rw [step]
      split
      · exact (sheds_actDesk [] (Desk.sheds_wake now)).draws
      · exact .of_eq rfl
  | sweep i =>
      apply hnow
      rw [step]
      split
      · obtain ⟨chores, hrouse⟩ := rouse_eq (f.onTimer i fun t => t.fire.2) i
        rw [hrouse]
        exact .of_eq rfl
      · exact .of_eq rfl
  | recover i now =>
      exact hnow (draws_tryDesk 0 fun d n d' h => (Desk.recover_frame h).2)
  | restart i =>
      have hrecover : (f.onTimer i fun t => { clock := t.clock }).Draws (f.step (.restart i)).2 :=
        draws_tryDesk 0 fun d n d' h => (Desk.recover_frame h).2
      exact hnow hrecover
  | arm i key seconds => exact hnow (.of_eq rfl)
  | set key value => exact hnow (.of_eq rfl)
  | delete key => exact hnow (.of_eq rfl)
  | noteRegion i id region now =>
      apply hnow
      apply draws_tryChange
      intro d d' hnote
      rw [Desk.noteRegion_eq_ok hnote]
      rfl
  | region i id now =>
      have hread : f.Draws
          (f.tryDesk i none fun d => (d.region? id now).map fun r => (r, d)).2 := by
        apply draws_tryDesk
        intro d r d' h
        obtain ⟨_, -, heq⟩ := ok_of_map h
        cases heq
        rfl
      exact hnow hread
  | forgetRegion i id =>
      apply hnow
      apply draws_tryChange
      intro d d' hforget
      rw [Desk.forgetRegion_eq_ok hforget]
      rfl
  | purgeRegions i now =>
      exact hnow (draws_tryDesk 0 fun d n d' h => Desk.events_purgeRegions h)
  | login i user token remote now =>
      apply hnow
      apply draws_act
      intro fe
      exact .of_eq (Desk.events_authenticate f.gate user token remote now fe.desk)
  | request i r =>
      apply hnow
      exact draws_waiting (fun fe => Site.draws_route r) fun hwaits fe => Site.route_of_awaits hwaits
  | handle i e c =>
      apply hnow
      exact draws_waiting (fun fe => Site.draws_handle e)
        fun hwaits fe => Site.handle_of_awaitsFile hwaits
  | currentKey i =>
      apply hnow
      rw [step]
      split
      · exact .of_eq rfl
      · exact .of_eq rfl
  | refuseKeys reason => exact hnow (.of_eq rfl)
  | sightings i x =>
      apply hnow
      rw [step]
      split
      · exact .of_eq rfl
      · exact .of_eq rfl
  | outage calls reason => exact hnow (.of_eq rfl)
  | start i interval => exact hnow (sheds_start f i interval).draws
  | run seconds => exact hnow (sheds_run seconds f).draws
  | stop => exact hnow (.of_eq rfl)

/-- The moments of a history. -/
def passed (f : Fleet) : List Step → List Fleet
  | [] => []
  | s :: rest => f.moments s ++ (f.step s).2.passed rest

/-- The records that a history emits are those of fragments that the table holds at its moments. -/
theorem after_drawsFrom (f : Fleet) (steps : List Step) :
    DrawsFrom (f.passed steps) f (f.after steps) := by
  induction steps generalizing f with
  | nil => exact ⟨[], (List.append_nil f.events).symm, nofun⟩
  | cons s rest ih => exact (step_drawsFrom f s).append (ih (f.step s).2)

end Fleet

end Gatehouse
