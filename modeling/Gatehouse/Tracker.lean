import Gatehouse.Desk

/-! # Session accounting

Connects, reports, disconnects and wake-ups become finished records. A session has at most one
open fragment, which lies in the store together with the time at which it is due; a wake-up
only says when to look. A fragment leaves the store in one step, either for a new connect of
the same session or because it is due, and only then is its record emitted. -/

namespace Gatehouse

/-- For how many seconds a fragment lasts after an event, how many it has left after a
disconnect, and for how many a region may be used. -/
structure Windows where
  fragment : UInt64
  disconnect : UInt64
  region : UInt64
  deriving DecidableEq, Repr

/-- What a report did. -/
inductive ReportOutcome
  | applied
  | openedPartial
  | duplicate
  deriving DecidableEq, Repr

namespace ReportOutcome

/-- The name of an outcome. -/
def name : ReportOutcome → String
  | .applied => "Applied"
  | .openedPartial => "OpenedPartial"
  | .duplicate => "Duplicate"

end ReportOutcome

/-- What a report says: its time, its bytes, its number and the window it leaves. -/
structure Report where
  now : UInt64
  bytes : UInt64
  seq : Option UInt64
  window : UInt64
  deriving DecidableEq, Repr

namespace Report

/-- What a report makes of the stored value of its session, and the value that it stores.
Bytes that hold no fragment count as none. -/
def fold (r : Report) (id : SessionId) (tag : String) (found : Option Bytes) :
    ReportOutcome × Option Fragment :=
  match found.bind Fragment.decode? with
  | none =>
      (.openedPartial,
        some ((Fragment.openedPartial id.text tag r.now r.bytes r.seq).extend r.now r.window))
  | some f =>
      if f.accepts r.seq then (.applied, some ((f.apply r.now r.bytes r.seq).extend r.now r.window))
      else (.duplicate, none)

end Report

namespace Desk

/-- Finish the fragment that some bytes hold, if they hold one, and emit its record. -/
def finish (d : Desk) (bytes : Bytes) : Option SessionRecord × Desk :=
  match Fragment.decode? bytes with
  | none => (none, d)
  | some f => (some f.finish, d.emit (.session f.finish))

/-- Open a fragment. One that is open for the same session is finished. -/
def connect (w : Windows) (id : SessionId) (tag : String) (fields : Dict String) (now : UInt64)
    (d : Desk) : Except Unavailable (Option SessionRecord × Desk) :=
  let fresh := (Fragment.opened id.text tag fields now).extend now w.fragment
  match d.store.update id.fragmentKey (fun _ => some fresh.encode) with
  | .error e => .error e
  | .ok (found, store) =>
      let d' := { d with store := store }.arm id.fragmentKey w.fragment
      match found with
      | none => .ok (none, d')
      | some bytes => .ok (d'.finish bytes)

/-- Fold a report into the open fragment, or open a partial one from it. -/
def report (id : SessionId) (tag : String) (r : Report) (d : Desk) :
    Except Unavailable (ReportOutcome × Desk) :=
  match d.store.update id.fragmentKey (fun found => (r.fold id tag found).2.map Fragment.encode) with
  | .error e => .error e
  | .ok (found, store) =>
      match (r.fold id tag found).1 with
      | .duplicate => .ok (.duplicate, { d with store := store })
      | outcome => .ok (outcome, { d with store := store }.arm id.fragmentKey r.window)

/-- Add the bytes of a usage report and start the window anew. -/
def status (w : Windows) (id : SessionId) (tag : String) (bytes : UInt64) (seq : Option UInt64)
    (now : UInt64) (d : Desk) : Except Unavailable (ReportOutcome × Desk) :=
  d.report id tag ⟨now, bytes, seq, w.fragment⟩

/-- Add the last bytes of a session and cut its window short. -/
def disconnect (w : Windows) (id : SessionId) (tag : String) (bytes : UInt64) (seq : Option UInt64)
    (now : UInt64) (d : Desk) : Except Unavailable (ReportOutcome × Desk) :=
  d.report id tag ⟨now, bytes, seq, w.disconnect⟩

/-- Whether stored bytes are to be taken out at a time: they hold a fragment that is due, or
none at all. -/
def isFinal (now : UInt64) (bytes : Bytes) : Bool :=
  match Fragment.decode? bytes with
  | some f => f.isDue now
  | none => true

/-- Take out the fragment under a key if it is due and emit its record; wake up again at its
time if it is not. -/
def flushIfDue (key : String) (now : UInt64) (d : Desk) :
    Except Unavailable (Option SessionRecord × Desk) :=
  match d.store.removeIf key (isFinal now) with
  | .error e => .error e
  | .ok (none, store) => .ok (none, { d with store := store })
  | .ok (some bytes, store) =>
      match Fragment.decode? bytes with
      | none => .ok (none, { d with store := store })
      | some f =>
          if f.isDue now then .ok ({ d with store := store }.finish bytes)
          else .ok (none, { d with store := store }.arm key (f.due - now))

/-- Remove the region entry under a key if it is stale; wake up again at its time if not. -/
def dropIfStale (key : String) (now : UInt64) (d : Desk) : Except Unavailable Desk :=
  match d.store.removeIf key (isStale now) with
  | .error e => .error e
  | .ok (found, store) =>
      match found.bind (fun b => RegionEntry.left? b now) with
      | none => .ok { d with store := store }
      | some left => .ok ({ d with store := store }.arm key left)

/-- Whether a key belongs to a fragment. -/
def isFragmentKey (key : String) : Bool := RegionTable.starts SessionId.fragmentStem key

/-- Whether a key belongs to a region entry. -/
def isRegionKey (key : String) : Bool := RegionTable.starts SessionId.regionStem key

/-- Answer a wake-up for a key. -/
def handleExpiry (key : String) (now : UInt64) (d : Desk) :
    Except Unavailable (Option SessionRecord × Desk) :=
  if isFragmentKey key then d.flushIfDue key now
  else if isRegionKey key then
    match d.dropIfStale key now with
    | .error e => .error e
    | .ok d' => .ok (none, d')
  else .ok (none, d)

/-- The seconds until stored bytes are due as a fragment; none are left if they hold none. -/
def fragmentLeft (now : UInt64) (found : Option Bytes) : UInt64 :=
  match found.bind Fragment.decode? with
  | some f => excess f.due now
  | none => 0

/-- The seconds for which stored bytes may be used as a region entry. -/
def regionLeft (now : UInt64) (found : Option Bytes) : UInt64 :=
  (found.bind (fun b => RegionEntry.left? b now)).getD 0

/-- Wake up for some keys after the seconds that `left` finds in their values. -/
def armStored (left : Option Bytes → UInt64) : List String → Desk → Except Unavailable Desk
  | [], d => .ok d
  | key :: rest, d =>
      match d.store.get key with
      | .error e => .error e
      | .ok found => armStored left rest (d.arm key (left found))

/-- Wake up for everything in the store at its time, as after a restart, and count the keys. -/
def recover (now : UInt64) (d : Desk) : Except Unavailable (Nat × Desk) :=
  match d.store.keys SessionId.fragmentStem with
  | .error e => .error e
  | .ok fragments =>
      match d.store.keys SessionId.regionStem with
      | .error e => .error e
      | .ok regions =>
          match d.armStored (fragmentLeft now) fragments with
          | .error e => .error e
          | .ok d' =>
              match d'.armStored (regionLeft now) regions with
              | .error e => .error e
              | .ok d'' => .ok (fragments.length + regions.length, d'')

end Desk

end Gatehouse
