import Gatehouse.Login
import Gatehouse.Service.Router

/-! # Front ends that share a store

Any number of front ends work on one store. Each has its own timer, tunnel key and peer
counters; a key that is announced on one is looked up in the store that all of them change.

A front end sweeps its timer and answers its wake-ups when it is told to, or else in a rhythm. The
chores of a rhythm wait in one line for the whole fleet until it comes to them. -/

namespace Gatehouse

/-- How a front end answers its wake-ups: when told to, on its own in a fixed rhythm of
milliseconds, or no longer. -/
inductive Rhythm
  | byHand
  | every (interval next : Nat)
  | stopped
  deriving DecidableEq, Repr

/-- What a rhythm asks of front end `i`: to sweep its timer, or to answer its wake-ups. -/
inductive Chore
  | sweep (i : Nat)
  | answer (i : Nat)
  deriving DecidableEq, Repr

/-- What a front end has of its own. -/
structure Member where
  timer : Timer
  rotator : Rotator
  peers : PeerDirectory
  rhythm : Rhythm := .byHand

/-- Front ends, what they share, and the time in seconds. The chores that wait stand in line, the
oldest first; of the front ends with a rhythm the one that swept longest ago comes first. -/
structure Fleet where
  site : Site
  gate : Gate
  store : Store
  outlet : KeyOutlet
  files : Files
  clock : UInt64
  events : List Event := []
  members : List Member
  rounds : List Nat := []
  chores : List Chore := []

namespace Fleet

/-- A front end at start, with the key drawn for it. -/
def newMember (s : Settings) (clock : UInt64) (key : String) : Member where
  timer := { clock := clock.toNat * 1000 }
  rotator := Rotator.start s.server.address key
  peers := PeerDirectory.ofEntries s.peers

/-- A fleet at start, with a key drawn for each front end. -/
def ofSettings (s : Settings) (store : Store) (outlet : KeyOutlet) (files : Files) (clock : UInt64)
    (keys : List String) : Fleet where
  site := Site.ofSettings s
  gate := Gate.ofSettings s
  store := store
  outlet := outlet
  files := files
  clock := clock
  members := keys.map (newMember s clock)

/-- Front end `i` with what it shares. -/
def frontEnd? (f : Fleet) (i : Nat) : Option FrontEnd :=
  f.members[i]?.map fun m =>
    { desk := { store := f.store, timer := m.timer, events := f.events }
      rotator := m.rotator
      outlet := f.outlet
      files := f.files
      peers := m.peers }

/-- The fleet after front end `i` has changed. -/
def putFrontEnd (f : Fleet) (i : Nat) (fe : FrontEnd) : Fleet :=
  { f with
    store := fe.desk.store
    events := fe.desk.events
    outlet := fe.outlet
    files := fe.files
    members := f.members.modify i fun m =>
      { m with timer := fe.desk.timer, rotator := fe.rotator, peers := fe.peers } }

/-- Let front end `i` do something. -/
def act {α : Type} (f : Fleet) (i : Nat) (idle : α) (work : FrontEnd → α × FrontEnd) : α × Fleet :=
  match f.frontEnd? i with
  | none => (idle, f)
  | some fe => ((work fe).1, f.putFrontEnd i (work fe).2)

/-- Let the desk of front end `i` do something. -/
def actDesk {α : Type} (f : Fleet) (i : Nat) (idle : α) (work : Desk → α × Desk) : α × Fleet :=
  f.act i idle fun fe => ((work fe.desk).1, { fe with desk := (work fe.desk).2 })

/-- Let the desk of front end `i` do something that may fail and then changes nothing. -/
def tryDesk {α : Type} (f : Fleet) (i : Nat) (idle : α)
    (work : Desk → Except Unavailable (α × Desk)) : Except Unavailable α × Fleet :=
  f.actDesk i (.ok idle) fun d =>
    match work d with
    | .ok (a, d') => (.ok a, d')
    | .error e => (.error e, d)

/-- Change the timer of front end `i`. -/
def onTimer (f : Fleet) (i : Nat) (change : Timer → Timer) : Fleet :=
  { f with members := f.members.modify i fun m => { m with timer := change m.timer } }

/-- Let the clock go to `t`. Timers do not go back. -/
def moveTo (f : Fleet) (t : UInt64) : Fleet :=
  { f with
    clock := t
    members := f.members.map fun m =>
      { m with timer := m.timer.advance ((t.toNat - f.clock.toNat) * 1000) } }

end Fleet

namespace Desk

/-- Answer a wake-up for each of some keys, and say which of them failed. -/
def answerAll (now : UInt64) : List String → Desk → List (String × Option Unavailable) × Desk
  | [], d => ([], d)
  | key :: rest, d =>
      match d.handleExpiry key now with
      | .error e =>
          let (answers, d') := answerAll now rest d
          ((key, some e) :: answers, d')
      | .ok (_, d') =>
          let (answers, d'') := answerAll now rest d'
          ((key, none) :: answers, d'')

/-- Answer the wake-ups that wait. -/
def wake (now : UInt64) (d : Desk) : List (String × Option Unavailable) × Desk :=
  answerAll now d.timer.collect.1 { d with timer := d.timer.collect.2 }

end Desk

namespace Rhythm

/-- Whether the time for a sweep has come. It never comes where no time passes between sweeps. -/
def isDue (r : Rhythm) (clock : Nat) : Bool :=
  match r with
  | .every interval next => 0 < interval && next ≤ clock
  | _ => false

/-- The rhythm after the sweeps up to a time. -/
def after (r : Rhythm) (clock : Nat) : Rhythm :=
  match r with
  | .every interval next =>
      if next ≤ clock then .every interval (next + interval * ((clock - next) / interval + 1))
      else .every interval next
  | r => r

/-- Whether wake-ups are answered in a rhythm. -/
def isRunning : Rhythm → Bool
  | .every _ _ => true
  | _ => false

/-- The time of the next sweep. -/
def nextSweep : Rhythm → Nat
  | .every _ next => next
  | _ => 0

/-- Whether the timer is swept in a rhythm. -/
def sweeps : Rhythm → Bool
  | .every interval _ => 0 < interval
  | _ => false

/-- How many kinds of chores a rhythm keeps up. Where no time passes between sweeps there are no
sweeps, and only wake-ups are answered. -/
def kinds : Rhythm → Nat
  | .every 0 _ => 1
  | .every _ _ => 2
  | _ => 0

end Rhythm

namespace Fleet

/-- Put a chore at the end of the line, unless it waits there already. -/
def queue (f : Fleet) (c : Chore) : Fleet :=
  if f.chores.contains c then f else { f with chores := f.chores ++ [c] }

/-- Let front end `i` answer its wake-ups when its turn comes, if it has any and a rhythm. -/
def rouse (f : Fleet) (i : Nat) : Fleet :=
  match f.members[i]? with
  | none => f
  | some m =>
      if m.rhythm.isRunning && !m.timer.announced.isEmpty then f.queue (.answer i) else f

/-- Sweep the timer of front end `i` as its rhythm asks for. -/
def sweepInRhythm (f : Fleet) (i : Nat) : Fleet :=
  match f.members[i]? with
  | none => f
  | some m =>
      if m.rhythm.isDue m.timer.clock then
        ({ f with
          members := f.members.modify i fun m =>
            { m with timer := m.timer.sweep, rhythm := m.rhythm.after m.timer.clock }
          rounds := f.rounds.filter (fun j => j != i) ++ [i] } : Fleet).rouse i
      else f

/-- Do a chore. -/
def perform (f : Fleet) : Chore → Fleet
  | .sweep i => f.sweepInRhythm i
  | .answer i => (f.actDesk i [] (Desk.wake f.clock)).2

/-- Do the chores that wait, but not those that they give rise to. -/
def performAll (f : Fleet) : Fleet := f.chores.foldl perform { f with chores := [] }

/-- Do the chores that wait until there are none. Sweeps give rise to answers, and answers to
nothing. -/
def work (f : Fleet) : Fleet := f.performAll.performAll

/-- The front ends for which the time of a sweep has come, in the order of these times. -/
def dueRounds (f : Fleet) : List Nat :=
  let due := f.rounds.filterMap fun i =>
    match f.members[i]? with
    | some m => if m.rhythm.isDue m.timer.clock then some (m.rhythm.nextSweep, i) else none
    | none => none
  (due.mergeSort (fun a b => a.1 ≤ b.1)).map (·.2)

/-- Let the sweeps whose time has come wait for their turn. -/
def summon (f : Fleet) : Fleet := f.dueRounds.foldl (fun f i => f.queue (.sweep i)) f

/-- Let the clock go to `t`. The chores that have waited are done then, and new ones wait. -/
def pass (f : Fleet) (t : UInt64) : Fleet := (f.moveTo t).work.summon

/-- Sweep the timer of front end `i` and answer its wake-ups, if it does so by hand. -/
def wakeByHand (f : Fleet) (i : Nat) (now : UInt64) : List (String × Option Unavailable) × Fleet :=
  match f.members[i]? with
  | some ⟨_, _, _, .byHand⟩ => (f.onTimer i Timer.sweep).actDesk i [] (Desk.wake now)
  | _ => ([], f)

/-- Let some front ends sweep and answer their wake-ups. -/
def wakeEach (now : UInt64) :
    List Nat → Fleet → List (List (String × Option Unavailable)) × Fleet
  | [], f => ([], f)
  | i :: rest, f =>
      let (answers, f') := f.wakeByHand i now
      let (others, f'') := wakeEach now rest f'
      (answers :: others, f'')

/-- Let `n` seconds pass one by one, with every front end following its rhythm. -/
def run : Nat → Fleet → Fleet
  | 0, f => f
  | n + 1, f => run n (f.pass (f.clock + 1)).work

/-- Let front end `i` follow a rhythm from now on, unless it once did. -/
def start (f : Fleet) (i interval : Nat) : Fleet :=
  match f.members[i]? with
  | some ⟨_, _, _, .byHand⟩ =>
      (({ f with
        members := f.members.modify i fun m => { m with rhythm := .every interval m.timer.clock }
        rounds := f.rounds ++ [i] } : Fleet).queue (.sweep i)).work
  | _ => f

/-- The kinds of chores that are kept up. -/
def kinds (f : Fleet) : Nat := f.members.foldl (fun n m => n + m.rhythm.kinds) 0

/-- Stop every rhythm. A front end that had one does not listen any more. -/
def stop (f : Fleet) : Fleet :=
  { f with
    members := f.members.map fun m =>
      if m.rhythm.isRunning then { m with timer := m.timer.deafen, rhythm := .stopped } else m
    rounds := []
    chores := [] }

end Fleet

end Gatehouse
