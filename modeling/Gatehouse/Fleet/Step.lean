import Gatehouse.Fleet.Basic

/-! # Histories of a fleet

A history is a list of steps: what clients, operators and the passing of time do to a fleet.
Each step has an answer. -/

namespace Gatehouse

/-- What a client tells about its session. -/
inductive Visit
  | connect (fields : Dict String)
  | status (bytes : UInt64) (seq : Option UInt64)
  | disconnect (bytes : UInt64) (seq : Option UInt64)
  deriving DecidableEq

/-- A visit of a session at a time, with the tag drawn for a fragment that it may open. -/
structure VisitOf where
  id : SessionId
  visit : Visit
  now : UInt64
  tag : String
  deriving DecidableEq

/-- What a visit did. -/
inductive VisitAnswer
  | opened (flushed : Option SessionRecord)
  | reported (outcome : ReportOutcome)
  | failed (e : Unavailable)
  deriving DecidableEq

/-- One step of a history; `i` is the front end that takes it. `set` and `delete` act on the table
behind the store's calls. -/
inductive Step
  | visit (i : Nat) (v : VisitOf)
  | expire (i : Nat) (key : String) (now : UInt64) (before : List VisitOf)
  | skip (t : UInt64)
  | wakeAll (t : UInt64)
  | wake (i : Nat) (now : UInt64)
  | sweep (i : Nat)
  | recover (i : Nat) (now : UInt64)
  | restart (i : Nat)
  | arm (i : Nat) (key : String) (seconds : UInt64)
  | set (key : String) (value : Bytes)
  | delete (key : String)
  | noteRegion (i : Nat) (id : SessionId) (region : String) (now : UInt64)
  | region (i : Nat) (id : SessionId) (now : UInt64)
  | forgetRegion (i : Nat) (id : SessionId)
  | purgeRegions (i : Nat) (now : UInt64)
  | login (i : Nat) (user token : String) (remote : Option Address) (now : UInt64)
  | request (i : Nat) (r : Request)
  | handle (i : Nat) (e : Endpoint) (c : Call)
  | currentKey (i : Nat)
  | refuseKeys (reason : Option String)
  | sightings (i : Nat) (x : Address.V4)
  | outage (calls : List StoreCall) (reason : String)
  | start (i interval : Nat)
  | run (seconds : Nat)
  | stop

/-- The answer to a step. -/
inductive Answer
  | none
  | visited (a : VisitAnswer)
  | expired (before : Option (List VisitAnswer)) (r : Except Unavailable (Option SessionRecord))
  | woken (answers : List (List (String × Option Unavailable)))
  | wokenOne (answers : List (String × Option Unavailable))
  | count (r : Except Unavailable Nat)
  | stored (r : Except Unavailable Unit)
  | region (r : Except Unavailable (Option String))
  | login (a : LoginAnswer)
  | response (r : Response)
  | handled (r : Except Rejection Response)
  | key (k : KeyState)
  | sightings (s : Sightings)
  | noMember

namespace Desk

/-- Answer a visit. -/
def visit (w : Windows) (v : VisitOf) (d : Desk) : VisitAnswer × Desk :=
  match v.visit with
  | .connect fields =>
      match d.connect w v.id v.tag fields v.now with
      | .ok (flushed, d') => (.opened flushed, d')
      | .error e => (.failed e, d)
  | .status bytes seq =>
      match d.status w v.id v.tag bytes seq v.now with
      | .ok (outcome, d') => (.reported outcome, d')
      | .error e => (.failed e, d)
  | .disconnect bytes seq =>
      match d.disconnect w v.id v.tag bytes seq v.now with
      | .ok (outcome, d') => (.reported outcome, d')
      | .error e => (.failed e, d)

/-- Answer visits one after the other. -/
def visitAll (w : Windows) : List VisitOf → Desk → List VisitAnswer × Desk
  | [], d => ([], d)
  | v :: rest, d =>
      let (a, d') := d.visit w v
      let (answers, d'') := visitAll w rest d'
      (a :: answers, d'')

/-- Answer a wake-up for a key while visits arrive just before the store is looked at. They do not
arrive if the key is of no kind that is looked up. -/
def expireAfter (w : Windows) (key : String) (now : UInt64) (before : List VisitOf) (d : Desk) :
    (Option (List VisitAnswer) × Except Unavailable (Option SessionRecord)) × Desk :=
  if isFragmentKey key || isRegionKey key then
    let (answers, d') := d.visitAll w before
    match d'.handleExpiry key now with
    | .ok (r, d'') => ((some answers, .ok r), d'')
    | .error e => ((some answers, .error e), d')
  else
    match d.handleExpiry key now with
    | .ok (r, d') => ((none, .ok r), d')
    | .error e => ((none, .error e), d)

end Desk

namespace Fleet

/-- Carry out a step, and answer it. -/
def step (f : Fleet) : Step → Answer × Fleet
  | .visit i v =>
      f.actDesk i .noMember fun d =>
        let (a, d') := d.visit f.site.windows v
        (.visited a, d')
  | .expire i key now before =>
      f.actDesk i .noMember fun d =>
        let (a, d') := d.expireAfter f.site.windows key now before
        (.expired a.1 a.2, d')
  | .skip t => (.woken [], f.pass t)
  | .wakeAll t =>
      let moved := f.pass t
      let (answers, f') := wakeEach t (List.range moved.members.length) moved
      (.woken answers, f')
  | .wake i now =>
      match f.members[i]? with
      | some ⟨_, _, _, .byHand⟩ =>
          let (answers, f') := f.actDesk i [] (Desk.wake now)
          (.wokenOne answers, f')
      | _ => (.wokenOne [], f)
  | .sweep i =>
      match f.members[i]? with
      | some m => (.count (.ok m.timer.fire.1), (f.onTimer i fun t => t.fire.2).rouse i)
      | none => (.noMember, f)
  | .recover i now =>
      let (r, f') := f.tryDesk i 0 (Desk.recover now)
      (.count r, f')
  | .restart i =>
      let fresh := f.onTimer i fun t => { clock := t.clock }
      let (r, f') := fresh.tryDesk i 0 (Desk.recover f.clock)
      (.count r, f')
  | .arm i key seconds => (.none, f.onTimer i fun t => t.armSeconds key seconds)
  | .set key value =>
      (.none, { f with store := { f.store with table := f.store.table.put key value } })
  | .delete key =>
      (.none, { f with store := { f.store with table := f.store.table.remove key } })
  | .noteRegion i id region now =>
      let (r, f') := f.tryDesk i () fun d =>
        (d.noteRegion f.site.windows.region id region now).map fun d' => ((), d')
      (.stored r, f')
  | .region i id now =>
      let (r, f') := f.tryDesk i none fun d => (d.region? id now).map fun r => (r, d)
      (.region r, f')
  | .forgetRegion i id =>
      let (r, f') := f.tryDesk i () fun d => (d.forgetRegion id).map fun d' => ((), d')
      (.stored r, f')
  | .purgeRegions i now =>
      let (r, f') := f.tryDesk i 0 (Desk.purgeRegions now)
      (.count r, f')
  | .login i user token remote now =>
      f.actDesk i .noMember fun d =>
        let (a, d') := f.gate.authenticate user token remote now d
        (.login a, d')
  | .request i r =>
      let (a, f') := f.act i .noMember fun fe =>
        let (a, fe') := f.site.route r fe
        (.response a, fe')
      (a, if f.site.awaits r then f'.work else f')
  | .handle i e c =>
      let (a, f') := f.act i .noMember fun fe =>
        let (a, fe') := f.site.handle e c fe
        (.handled a, fe')
      (a, if f.site.awaitsFile e c then f'.work else f')
  | .currentKey i =>
      match f.members[i]? with
      | some m => (.key m.rotator.current, f)
      | none => (.noMember, f)
  | .refuseKeys reason => (.none, { f with outlet := { f.outlet with refusal := reason } })
  | .sightings i x =>
      match f.members[i]? with
      | some m => (.sightings (m.peers.sightings x), f)
      | none => (.noMember, f)
  | .outage calls reason =>
      (.none, { f with store := { f.store with down := calls, reason := reason } })
  | .start i interval => (.none, f.start i interval)
  | .run seconds => (.none, run seconds f)
  | .stop => (.count (.ok f.kinds), f.stop)

/-- Carry out a history, collecting the answers. -/
def history : Fleet → List Step → List Answer × Fleet
  | f, [] => ([], f)
  | f, s :: rest =>
      let (a, f') := f.step s
      let (answers, f'') := history f' rest
      (a :: answers, f'')

end Fleet

end Gatehouse
