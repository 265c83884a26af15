import Gatehouse.Proofs.Beside.Desk
import Gatehouse.Proofs.Fleet

/-!
# Runs on another table

Two fleets that differ in their tables alone take every step alike, as long as the operations treat
the two tables alike. What a step asks of the operations is listed here: the times at which it looks
at what is due, the sessions whose region it notes or forgets, and the keys that it writes directly.
-/

namespace Gatehouse

/-- The keys that a step writes directly. -/
inductive Step.Writes : Step → String → Prop
  | set (key : String) (value : Bytes) : Writes (.set key value) key
  | delete (key : String) : Writes (.delete key) key

namespace Fleet

/-- The fleet with another table in its store. -/
def on (f : Fleet) (t : Table) : Fleet := { f with store := f.store.on t }

/-- Two fleets are beside each other if they differ in their tables alone, and these and the events
are related. -/
def Beside (Q : Table → Table → List Event → Prop) (f g : Fleet) : Prop :=
  ∃ t, g = f.on t ∧ Q f.store.table t f.events

/-- The times at which a step looks at what is due. Waiting for a file gives the chores that wait
their turn. -/
inductive LooksAt (f : Fleet) : Step → UInt64 → Prop
  | expire (i : Nat) (key : String) (now : UInt64) (before : List VisitOf) :
      LooksAt f (.expire i key now before) now
  | skip (t : UInt64) : LooksAt f (.skip t) t
  | wakeAll (t : UInt64) : LooksAt f (.wakeAll t) t
  | wake (i : Nat) (now : UInt64) : LooksAt f (.wake i now) now
  | purgeRegions (i : Nat) (now : UInt64) : LooksAt f (.purgeRegions i now) now
  | request (i : Nat) {r : Request} (hwaits : f.site.awaits r = true) :
      LooksAt f (.request i r) f.clock
  | handle (i : Nat) {e : Endpoint} {c : Call} (hwaits : f.site.awaitsFile e c = true) :
      LooksAt f (.handle i e c) f.clock
  | start (i interval : Nat) : LooksAt f (.start i interval) f.clock
  | run {n k : Nat} (hk : k < n) : LooksAt f (.run n) (f.clock + UInt64.ofNat (k + 1))

/-- The sessions whose region a step notes or forgets: by itself, with a login that succeeds, or with
a connect report that is carried out. -/
inductive SetsRegion (f : Fleet) : Step → SessionId → Prop
  | noteRegion (i : Nat) (id : SessionId) (region : String) (now : UInt64) :
      SetsRegion f (.noteRegion i id region now) id
  | forgetRegion (i : Nat) (id : SessionId) : SetsRegion f (.forgetRegion i id) id
  | login {i : Nat} {user token : String} {remote : Option Address} {now : UInt64} {id : SessionId}
      {region : String}
      (hanswer : (f.step (.login i user token remote now)).1 = .login (.session id region)) :
      SetsRegion f (.login i user token remote now) id
  | request {i : Nat} {r : Request} {a : Response} {id : SessionId}
      (hpath : Endpoint.ofPath? r.path = some .connected)
      (hname : (f.site.call r).params.sessionRef = .ok (.session id))
      (hanswer : (f.step (.request i r)).1 = .response a) (hstatus : a.status = 200) :
      SetsRegion f (.request i r) id
  | handle {i : Nat} {c : Call} {a : Response} {id : SessionId}
      (hname : c.params.sessionRef = .ok (.session id))
      (hanswer : (f.step (.handle i .connected c)).1 = .handled (.ok a)) :
      SetsRegion f (.handle i .connected c) id

/-- A step asks nothing but what is granted: it looks at what is due at granted times, and sets
regions and writes keys that are free. -/
structure Permits (timely : UInt64 → Prop) (free : String → Prop) (f : Fleet) (s : Step) : Prop where
  times : ∀ t, f.LooksAt s t → timely t
  regions : ∀ id, f.SetsRegion s id → free id.regionKey
  keys : ∀ key, s.Writes key → free key

/-- Every step of a history asks nothing but what is granted. -/
def PermitsAll (timely : UInt64 → Prop) (free : String → Prop) (f : Fleet) : List Step → Prop
  | [] => True
  | s :: rest => f.Permits timely free s ∧ (f.step s).2.PermitsAll timely free rest

variable {timely : UInt64 → Prop} {free : String → Prop}
variable {Q : Table → Table → List Event → Prop} {f g : Fleet} {i : Nat} {α : Type}

theorem desk?_on (f : Fleet) (t : Table) (i : Nat) :
    (f.on t).desk? i = (f.desk? i).map fun d => d.on t := by
  unfold desk?
  rw [Option.map_map]
  rfl

theorem frontEnd?_on (f : Fleet) (t : Table) (i : Nat) :
    (f.on t).frontEnd? i =
      (f.frontEnd? i).map fun fe => { fe with desk := fe.desk.on t } := by
  unfold frontEnd?
  rw [Option.map_map]
  rfl

theorem clock_act (i : Nat) (idle : α) (work : FrontEnd → α × FrontEnd) :
    (f.act i idle work).2.clock = f.clock := by
  unfold act
  split
  · rfl
  · rfl

theorem queue_on (f : Fleet) (t : Table) (c : Chore) : (f.on t).queue c = (f.queue c).on t := by
  unfold queue
  rw [show (f.on t).chores = f.chores from rfl]
  split
  · rfl
  · rfl

/-- A chore that gets in line changes nothing but the line. -/
theorem queue_frame (f : Fleet) (c : Chore) :
    (f.queue c).store = f.store ∧ (f.queue c).events = f.events ∧ (f.queue c).clock = f.clock := by
  unfold queue
  split
  · exact ⟨rfl, rfl, rfl⟩
  · exact ⟨rfl, rfl, rfl⟩

theorem rouse_on (f : Fleet) (t : Table) (i : Nat) : (f.on t).rouse i = (f.rouse i).on t := by
  unfold rouse
  rw [show (f.on t).members = f.members from rfl]
  split
  · rfl
  · split
    · exact queue_on f t (.answer i)
    · rfl

theorem sweepInRhythm_on (f : Fleet) (t : Table) (i : Nat) :
    (f.on t).sweepInRhythm i = (f.sweepInRhythm i).on t := by
  unfold sweepInRhythm
  rw [show (f.on t).members = f.members from rfl]
  split
  · rfl
  · split
    · rw [← rouse_on]
      rfl
    · rfl

theorem summon_on (f : Fleet) (t : Table) : (f.on t).summon = f.summon.on t := by
  have hall (rounds : List Nat) (f : Fleet) :
      rounds.foldl (fun f i => f.queue (.sweep i)) (f.on t) =
        (rounds.foldl (fun f i => f.queue (.sweep i)) f).on t := by
    induction rounds generalizing f with
    | nil => rfl
    | cons i rest ih =>
        rw [List.foldl_cons, List.foldl_cons, queue_on]
        exact ih (f.queue (.sweep i))
  exact hall f.dueRounds f

/-- Sweeping in a rhythm changes nothing that is shared but the chores. -/
theorem sweepInRhythm_frame (f : Fleet) (i : Nat) :
    (f.sweepInRhythm i).store = f.store ∧ (f.sweepInRhythm i).events = f.events ∧
      (f.sweepInRhythm i).clock = f.clock := by
  unfold sweepInRhythm
  split
  · exact ⟨rfl, rfl, rfl⟩
  · split
    · rename_i m _ _
      obtain ⟨chores, hrouse⟩ := rouse_eq
        { f with
          members := f.members.modify i fun m =>
            { m with timer := m.timer.sweep, rhythm := m.rhythm.after m.timer.clock }
          rounds := f.rounds.filter (fun j => j != i) ++ [i] } i
      rw [hrouse]
      exact ⟨rfl, rfl, rfl⟩
    · exact ⟨rfl, rfl, rfl⟩

theorem summon_frame (f : Fleet) :
    f.summon.store = f.store ∧ f.summon.events = f.events ∧ f.summon.clock = f.clock := by
  have hall (rounds : List Nat) (f : Fleet) :
      let last := rounds.foldl (fun f i => f.queue (.sweep i)) f
      last.store = f.store ∧ last.events = f.events ∧ last.clock = f.clock := by
    induction rounds generalizing f with
    | nil => exact ⟨rfl, rfl, rfl⟩
    | cons i rest ih =>
        obtain ⟨hstore, hevents, hclock⟩ := ih (f.queue (.sweep i))
        obtain ⟨hstore', hevents', hclock'⟩ := queue_frame f (.sweep i)
        exact ⟨hstore.trans hstore', hevents.trans hevents', hclock.trans hclock'⟩
  exact hall f.dueRounds f

/-- The fleet in which front end `i` has taken up a rhythm. -/
def following (f : Fleet) (i interval : Nat) : Fleet :=
  { f with
    members := f.members.modify i fun m => { m with rhythm := .every interval m.timer.clock }
    rounds := f.rounds ++ [i] }

namespace Beside

/-- A change that leaves the store and the events alone, and does not depend on the table. -/
theorem change (h : f.Beside Q g) {X : Fleet → Fleet} (hon : ∀ t, X (f.on t) = (X f).on t)
    (hstore : (X f).store = f.store) (hevents : (X f).events = f.events) :
    (X f).Beside Q (X g) := by
  obtain ⟨t, rfl, hQ⟩ := h
  refine ⟨t, hon t, ?_⟩
  rw [hstore, hevents]
  exact hQ

theorem site (h : f.Beside Q g) : g.site = f.site := by
  obtain ⟨t, rfl, -⟩ := h
  rfl

theorem gate (h : f.Beside Q g) : g.gate = f.gate := by
  obtain ⟨t, rfl, -⟩ := h
  rfl

theorem clock (h : f.Beside Q g) : g.clock = f.clock := by
  obtain ⟨t, rfl, -⟩ := h
  rfl

theorem members (h : f.Beside Q g) : g.members = f.members := by
  obtain ⟨t, rfl, -⟩ := h
  rfl

theorem act (h : f.Beside Q g) (i : Nat) (idle : α) {work : FrontEnd → α × FrontEnd}
    (hwork : ∀ fe fe', f.frontEnd? i = some fe → fe.Beside Q fe' →
      Abreast (FrontEnd.Beside Q) (work fe) (work fe')) :
    Abreast (Fleet.Beside Q) (f.act i idle work) (g.act i idle work) := by
  obtain ⟨t, rfl, hQ⟩ := h
  unfold Fleet.act
  rw [frontEnd?_on]
  cases hfe : f.frontEnd? i with
  | none => exact ⟨rfl, t, rfl, hQ⟩
  | some fe =>
      have hbeside : fe.Beside Q { fe with desk := fe.desk.on t } := by
        obtain ⟨m, -, rfl⟩ := Option.map_eq_some_iff.1 hfe
        exact ⟨_, ⟨t, rfl, hQ⟩, rfl⟩
      obtain ⟨hanswer, d', ⟨u, rfl, hQ'⟩, hstate⟩ := hwork fe _ hfe hbeside
      refine ⟨hanswer, u, ?_, hQ'⟩
      dsimp only [Option.map_some]
      rw [hstate]
      rfl

theorem actDesk (h : f.Beside Q g) (i : Nat) (idle : α) (work : Desk → α × Desk)
    (hwork : ∀ d d', f.desk? i = some d → d.Beside Q d' →
      Abreast (Desk.Beside Q) (work d) (work d')) :
    Abreast (Fleet.Beside Q) (f.actDesk i idle work) (g.actDesk i idle work) := by
  obtain ⟨t, rfl, hQ⟩ := h
  cases hd : f.desk? i with
  | none =>
      have hd' : (f.on t).desk? i = none := by rw [desk?_on, hd]; rfl
      rw [actDesk_of_none hd, actDesk_of_none hd']
      exact ⟨rfl, t, rfl, hQ⟩
  | some d =>
      have hd' : (f.on t).desk? i = some (d.on t) := by rw [desk?_on, hd]; rfl
      have hbeside : d.Beside Q (d.on t) := by
        obtain ⟨m, -, rfl⟩ := desk?_eq_some hd
        exact ⟨t, rfl, hQ⟩
      obtain ⟨hanswer, u, hstate, hQ'⟩ := hwork d _ hd hbeside
      rw [actDesk_of_desk? hd, actDesk_of_desk? hd']
      refine ⟨hanswer, u, ?_, hQ'⟩
      rw [hstate]
      rfl

theorem tryDesk (h : f.Beside Q g) (i : Nat) (idle : α)
    (work : Desk → Except Unavailable (α × Desk))
    (hwork : ∀ d d', d.Beside Q d' → Matches (Abreast (Desk.Beside Q)) (work d) (work d')) :
    Abreast (Fleet.Beside Q) (f.tryDesk i idle work) (g.tryDesk i idle work) := by
  apply h.actDesk
  intro d d' _ hdesk
  obtain ⟨e, hx, hy⟩ | ⟨a, b, hx, hy, hdone⟩ := hwork d d' hdesk
  · rw [hx, hy]
    exact ⟨rfl, hdesk⟩
  · rw [hx, hy]
    exact ⟨congrArg Except.ok hdone.answer, hdone.state⟩

theorem onTimer (h : f.Beside Q g) (i : Nat) (change : Timer → Timer) :
    (f.onTimer i change).Beside Q (g.onTimer i change) :=
  h.change (X := fun f => f.onTimer i change) (fun _ => rfl) rfl rfl

theorem moveTo (h : f.Beside Q g) (t : UInt64) : (f.moveTo t).Beside Q (g.moveTo t) :=
  h.change (X := fun f => f.moveTo t) (fun _ => rfl) rfl rfl

theorem rouse (h : f.Beside Q g) (i : Nat) : (f.rouse i).Beside Q (g.rouse i) := by
  obtain ⟨chores, hrouse⟩ := rouse_eq f i
  have hstore : (f.rouse i).store = f.store := by rw [hrouse]
  have hevents : (f.rouse i).events = f.events := by rw [hrouse]
  exact h.change (X := fun f => f.rouse i) (fun t => rouse_on f t i) hstore hevents

theorem summon (h : f.Beside Q g) : f.summon.Beside Q g.summon :=
  h.change (summon_on f) (summon_frame f).1 (summon_frame f).2.1

/-- A chore is done alike, and the clock does not move meanwhile. -/
theorem perform (h : f.Beside Q g) (hQ : Respected timely free Q) (ht : timely f.clock)
    (c : Chore) : (f.perform c).Beside Q (g.perform c) ∧ (f.perform c).clock = f.clock := by
  cases c with
  | sweep i =>
      obtain ⟨hstore, hevents, hclock⟩ := sweepInRhythm_frame f i
      exact ⟨h.change (X := fun f => f.sweepInRhythm i) (fun t => sweepInRhythm_on f t i) hstore
        hevents, hclock⟩
  | answer i =>
      have hwoken := h.actDesk i [] (Desk.wake f.clock) fun d d' _ hdesk =>
        hdesk.wake hQ ht
      dsimp only [Fleet.perform]
      rw [h.clock]
      refine ⟨hwoken.state, ?_⟩
      rw [actDesk_eq]
      split
      · rfl
      · rfl

theorem performAll (h : f.Beside Q g) (hQ : Respected timely free Q) (ht : timely f.clock) :
    f.performAll.Beside Q g.performAll ∧ f.performAll.clock = f.clock := by
  have hall (chores : List Chore) (f g : Fleet) (h : f.Beside Q g) (ht : timely f.clock) :
      (chores.foldl Fleet.perform f).Beside Q (chores.foldl Fleet.perform g) ∧
        (chores.foldl Fleet.perform f).clock = f.clock := by
    induction chores generalizing f g with
    | nil => exact ⟨h, rfl⟩
    | cons c rest ih =>
        obtain ⟨hdone, hclock⟩ := h.perform hQ ht c
        have ht' : timely (f.perform c).clock := by
          rw [hclock]
          exact ht
        obtain ⟨hrest, hclock'⟩ := ih _ _ hdone ht'
        exact ⟨hrest, hclock'.trans hclock⟩
  obtain ⟨t, rfl, hrelated⟩ := h
  exact hall f.chores { f with chores := [] } { f.on t with chores := [] } ⟨t, rfl, hrelated⟩ ht

theorem work (h : f.Beside Q g) (hQ : Respected timely free Q) (ht : timely f.clock) :
    f.work.Beside Q g.work ∧ f.work.clock = f.clock := by
  obtain ⟨hfirst, hclock⟩ := h.performAll hQ ht
  have ht' : timely f.performAll.clock := by
    rw [hclock]
    exact ht
  obtain ⟨hsecond, hclock'⟩ := hfirst.performAll hQ ht'
  exact ⟨hsecond, hclock'.trans hclock⟩

theorem pass (h : f.Beside Q g) (hQ : Respected timely free Q) {t : UInt64} (ht : timely t) :
    (f.pass t).Beside Q (g.pass t) ∧ (f.pass t).clock = t := by
  obtain ⟨hdone, hclock⟩ := (h.moveTo t).work hQ (ht : timely (f.moveTo t).clock)
  exact ⟨hdone.summon, (summon_frame _).2.2.trans hclock⟩

theorem run (h : f.Beside Q g) (hQ : Respected timely free Q) (n : Nat)
    (ht : ∀ k, k < n → timely (f.clock + UInt64.ofNat (k + 1))) :
    (run n f).Beside Q (run n g) := by
  induction n generalizing f g with
  | zero => exact h
  | succ n ih =>
      have hnext : timely (f.clock + 1) := ht 0 (Nat.zero_lt_succ n)
      obtain ⟨hpassed, hclock⟩ := h.pass hQ hnext
      have hnext' : timely (f.pass (f.clock + 1)).clock := by
        rw [hclock]
        exact hnext
      obtain ⟨hdone, hclock'⟩ := hpassed.work hQ hnext'
      unfold Fleet.run
      rw [h.clock]
      apply ih hdone
      intro k hk
      have hlater : f.clock + 1 + UInt64.ofNat (k + 1) = f.clock + UInt64.ofNat (k + 1 + 1) := by
        rw [UInt64.ofNat_add (k + 1) 1, UInt64.add_assoc, UInt64.add_comm (UInt64.ofNat (k + 1))]
        rfl
      rw [hclock'.trans hclock, hlater]
      exact ht (k + 1) (Nat.succ_lt_succ hk)

theorem wakeByHand (h : f.Beside Q g) (hQ : Respected timely free Q) {now : UInt64}
    (ht : timely now) (i : Nat) :
    Abreast (Fleet.Beside Q) (f.wakeByHand i now) (g.wakeByHand i now) := by
  unfold Fleet.wakeByHand
  rw [h.members]
  split
  · apply (h.onTimer i Timer.sweep).actDesk
    intro d d' _ hdesk
    exact hdesk.wake hQ ht
  · exact ⟨rfl, h⟩

theorem wakeEach (h : f.Beside Q g) (hQ : Respected timely free Q) {now : UInt64}
    (ht : timely now) (is : List Nat) :
    Abreast (Fleet.Beside Q) (wakeEach now is f) (wakeEach now is g) := by
  induction is generalizing f g with
  | nil => exact ⟨rfl, h⟩
  | cons i rest ih =>
      obtain ⟨hanswer, hstate⟩ := h.wakeByHand hQ ht i
      obtain ⟨hanswers, hlast⟩ := ih hstate
      refine ⟨?_, hlast⟩
      dsimp only [Fleet.wakeEach]
      rw [hanswer, hanswers]

theorem start (h : f.Beside Q g) (hQ : Respected timely free Q) (ht : timely f.clock)
    (i interval : Nat) : (f.start i interval).Beside Q (g.start i interval) := by
  have hqueued : ((f.following i interval).queue (.sweep i)).Beside Q
      ((g.following i interval).queue (.sweep i)) := by
    obtain ⟨t, rfl, hrelated⟩ := h
    obtain ⟨hstore, hevents, -⟩ := queue_frame (f.following i interval) (.sweep i)
    refine ⟨t, queue_on (f.following i interval) t (.sweep i), ?_⟩
    rw [hstore, hevents]
    exact hrelated
  have ht' : timely ((f.following i interval).queue (.sweep i)).clock := by
    rw [(queue_frame (f.following i interval) (.sweep i)).2.2]
    exact ht
  obtain ⟨t, rfl, hrelated⟩ := h
  unfold Fleet.start
  rw [show (f.on t).members = f.members from rfl]
  split
  · exact (hqueued.work hQ ht').1
  · exact ⟨t, rfl, hrelated⟩

theorem step_login (h : f.Beside Q g) (hQ : Respected timely free Q) {i : Nat}
    {user token : String} {remote : Option Address} {now : UInt64}
    (hs : f.Permits timely free (.login i user token remote now)) :
    Abreast (Fleet.Beside Q) (f.step (.login i user token remote now))
      (g.step (.login i user token remote now)) := by
  rw [step, step, h.gate]
  apply h.actDesk
  intro d d' hd hdesk
  have hlogin := hdesk.authenticate hQ f.gate user token remote now (by
    intro id region hanswer
    apply hs.regions id
    have hstep : (f.step (.login i user token remote now)).1 = .login (.session id region) := by
      rw [step, actDesk_of_desk? hd]
      exact congrArg Answer.login hanswer
    exact .login hstep)
  exact ⟨congrArg Answer.login hlogin.answer, hlogin.state⟩

theorem step_request (h : f.Beside Q g) (hQ : Respected timely free Q) {i : Nat} {r : Request}
    (hs : f.Permits timely free (.request i r)) :
    Abreast (Fleet.Beside Q) (f.step (.request i r)) (g.step (.request i r)) := by
  have hacted : Abreast (Fleet.Beside Q)
      (f.act i .noMember fun fe =>
        ((Answer.response (f.site.route r fe).1), (f.site.route r fe).2))
      (g.act i .noMember fun fe =>
        ((Answer.response (f.site.route r fe).1), (f.site.route r fe).2)) := by
    apply h.act
    intro fe fe' hfe hbeside
    have hrouted := Site.beside_route (s := f.site) hbeside hQ r (by
      intro id hpath hstatus hname
      apply hs.regions id
      refine .request hpath hname ?_ hstatus
      dsimp only [step, Fleet.act]
      rw [hfe])
    exact ⟨congrArg Answer.response hrouted.answer, hrouted.state⟩
  dsimp only [step]
  rw [h.site]
  refine ⟨hacted.answer, ?_⟩
  split
  · rename_i hwaits
    have hclock : (f.act i Answer.noMember fun fe =>
        ((Answer.response (f.site.route r fe).1), (f.site.route r fe).2)).2.clock = f.clock :=
      clock_act i _ _
    have ht : timely (f.act i Answer.noMember fun fe =>
        ((Answer.response (f.site.route r fe).1), (f.site.route r fe).2)).2.clock := by
      rw [hclock]
      exact hs.times _ (.request i hwaits)
    exact (hacted.state.work hQ ht).1
  · exact hacted.state

theorem step_handle (h : f.Beside Q g) (hQ : Respected timely free Q) {i : Nat} {e : Endpoint}
    {c : Call} (hs : f.Permits timely free (.handle i e c)) :
    Abreast (Fleet.Beside Q) (f.step (.handle i e c)) (g.step (.handle i e c)) := by
  have hacted : Abreast (Fleet.Beside Q)
      (f.act i .noMember fun fe =>
        ((Answer.handled (f.site.handle e c fe).1), (f.site.handle e c fe).2))
      (g.act i .noMember fun fe =>
        ((Answer.handled (f.site.handle e c fe).1), (f.site.handle e c fe).2)) := by
    apply h.act
    intro fe fe' hfe hbeside
    have hhandled := Site.beside_handle (s := f.site) (c := c) hbeside hQ e (by
      intro a id he hanswer hname
      subst he
      apply hs.regions id
      refine .handle (a := a) hname ?_
      dsimp only [step, Fleet.act]
      rw [hfe]
      exact congrArg Answer.handled hanswer)
    exact ⟨congrArg Answer.handled hhandled.answer, hhandled.state⟩
  dsimp only [step]
  rw [h.site]
  refine ⟨hacted.answer, ?_⟩
  split
  · rename_i hwaits
    have hclock : (f.act i Answer.noMember fun fe =>
        ((Answer.handled (f.site.handle e c fe).1), (f.site.handle e c fe).2)).2.clock = f.clock :=
      clock_act i _ _
    have ht : timely (f.act i Answer.noMember fun fe =>
        ((Answer.handled (f.site.handle e c fe).1), (f.site.handle e c fe).2)).2.clock := by
      rw [hclock]
      exact hs.times _ (.handle i hwaits)
    exact (hacted.state.work hQ ht).1
  · exact hacted.state

/-- What is tried at a desk and hands back nothing. -/
theorem tryChange (h : f.Beside Q g) (i : Nat)
    (work : Desk → Except Unavailable Desk)
    (hwork : ∀ d d', d.Beside Q d' → Matches (Desk.Beside Q) (work d) (work d')) :
    Abreast (Fleet.Beside Q) (f.tryDesk i () fun d => (work d).map fun d' => ((), d'))
      (g.tryDesk i () fun d => (work d).map fun d' => ((), d')) := by
  apply h.tryDesk
  intro d d' hdesk
  exact (hwork d d' hdesk).map _ fun a b hdone => ⟨rfl, hdone⟩

/-- Fleets that are beside each other take a permitted step alike. -/
theorem step (h : f.Beside Q g) (hQ : Respected timely free Q) {s : Step}
    (hs : f.Permits timely free s) : Abreast (Fleet.Beside Q) (f.step s) (g.step s) := by
  cases s with
  | visit i v =>
      rw [Fleet.step, Fleet.step, h.site]
      apply h.actDesk
      intro d d' _ hdesk
      have hvisit := hdesk.visit hQ f.site.windows v
      exact ⟨congrArg Answer.visited hvisit.answer, hvisit.state⟩
  | expire i key now before =>
      rw [Fleet.step, Fleet.step, h.site]
      apply h.actDesk
      intro d d' _ hdesk
      have hexpired :=
        hdesk.expireAfter hQ (hs.times now (.expire i key now before)) f.site.windows key before
      exact ⟨congrArg (fun a => Answer.expired a.1 a.2) hexpired.answer, hexpired.state⟩
  | skip t => exact ⟨rfl, (h.pass hQ (hs.times t (.skip t))).1⟩
  | wakeAll t =>
      have ht := hs.times t (.wakeAll t)
      have hpassed := (h.pass hQ ht).1
      have hwoken := hpassed.wakeEach hQ ht (List.range (f.pass t).members.length)
      dsimp only [Fleet.step]
      rw [hpassed.members]
      exact ⟨congrArg Answer.woken hwoken.answer, hwoken.state⟩
  | wake i now =>
      dsimp only [Fleet.step]
      rw [h.members]
      split
      · have hwoken := h.actDesk i [] (Desk.wake now) fun d d' _ hdesk =>
          hdesk.wake hQ (hs.times now (.wake i now))
        exact ⟨congrArg Answer.wokenOne hwoken.answer, hwoken.state⟩
      · exact ⟨rfl, h⟩
  | sweep i =>
      dsimp only [Fleet.step]
      rw [h.members]
      split
      · exact ⟨rfl, (h.onTimer i Timer.sweep).rouse i⟩
      · exact ⟨rfl, h⟩
  | recover i now =>
      have hrecovered := h.tryDesk i 0 (Desk.recover now) fun d d' hdesk =>
        hQ.recover hdesk now
      exact ⟨congrArg Answer.count hrecovered.answer, hrecovered.state⟩
  | restart i =>
      have hrecovered := (h.onTimer i fun t => { clock := t.clock }).tryDesk i 0
        (Desk.recover f.clock) fun d d' hdesk => hQ.recover hdesk f.clock
      dsimp only [Fleet.step]
      rw [h.clock]
      exact ⟨congrArg Answer.count hrecovered.answer, hrecovered.state⟩
  | arm i key seconds => exact ⟨rfl, h.onTimer i fun t => t.armSeconds key seconds⟩
  | set key value =>
      obtain ⟨t, rfl, hrelated⟩ := h
      exact ⟨rfl, _, rfl, hQ.put hrelated (hs.keys key (.set key value)) value⟩
  | delete key =>
      obtain ⟨t, rfl, hrelated⟩ := h
      exact ⟨rfl, _, rfl, hQ.remove hrelated (hs.keys key (.delete key))⟩
  | noteRegion i id region now =>
      have hnoted := h.tryChange i (Desk.noteRegion f.site.windows.region id region now)
        fun d d' hdesk => hdesk.noteRegion hQ _ id region now fun _ _ =>
          hs.regions id (.noteRegion i id region now)
      dsimp only [Fleet.step]
      rw [h.site]
      exact ⟨congrArg Answer.stored hnoted.answer, hnoted.state⟩
  | region i id now =>
      have hlooked := h.tryDesk i none
        (fun d => (d.region? id now).map fun r => (r, d)) (by
          intro d d' hdesk
          rw [hdesk.region? hQ]
          cases d.region? id now with
          | error e => exact .inl ⟨e, rfl, rfl⟩
          | ok r => exact .inr ⟨_, _, rfl, rfl, rfl, hdesk⟩)
      exact ⟨congrArg Answer.region hlooked.answer, hlooked.state⟩
  | forgetRegion i id =>
      have hforgot := h.tryChange i (Desk.forgetRegion id) fun d d' hdesk =>
        hdesk.forgetRegion hQ id (hs.regions id (.forgetRegion i id))
      exact ⟨congrArg Answer.stored hforgot.answer, hforgot.state⟩
  | purgeRegions i now =>
      have hpurged := h.tryDesk i 0 (Desk.purgeRegions now) fun d d' hdesk =>
        hQ.purge hdesk (hs.times now (.purgeRegions i now))
      exact ⟨congrArg Answer.count hpurged.answer, hpurged.state⟩
  | login i user token remote now => exact h.step_login hQ hs
  | request i r => exact h.step_request hQ hs
  | handle i e c => exact h.step_handle hQ hs
  | currentKey i =>
      dsimp only [Fleet.step]
      rw [h.members]
      split
      · exact ⟨rfl, h⟩
      · exact ⟨rfl, h⟩
  | refuseKeys reason =>
      obtain ⟨t, rfl, hrelated⟩ := h
      exact ⟨rfl, t, rfl, hrelated⟩
  | sightings i x =>
      dsimp only [Fleet.step]
      rw [h.members]
      split
      · exact ⟨rfl, h⟩
      · exact ⟨rfl, h⟩
  | outage calls reason =>
      obtain ⟨t, rfl, hrelated⟩ := h
      exact ⟨rfl, t, rfl, hrelated⟩
  | start i interval => exact ⟨rfl, h.start hQ (hs.times _ (.start i interval)) i interval⟩
  | run n => exact ⟨rfl, h.run hQ n fun k hk => hs.times _ (.run hk)⟩
  | stop =>
      obtain ⟨t, rfl, hrelated⟩ := h
      exact ⟨rfl, t, rfl, hrelated⟩

/-- Fleets that are beside each other have the same permitted histories. -/
theorem history (h : f.Beside Q g) (hQ : Respected timely free Q) {steps : List Step}
    (hsteps : f.PermitsAll timely free steps) :
    Abreast (Fleet.Beside Q) (f.history steps) (g.history steps) := by
  induction steps generalizing f g with
  | nil => exact ⟨rfl, h⟩
  | cons s rest ih =>
      obtain ⟨hanswer, hstate⟩ := h.step hQ hsteps.1
      obtain ⟨hanswers, hlast⟩ := ih hstate hsteps.2
      refine ⟨?_, hlast⟩
      dsimp only [Fleet.history]
      rw [hanswer, hanswers]

end Beside

end Fleet

end Gatehouse
