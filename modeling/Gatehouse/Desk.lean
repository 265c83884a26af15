import Gatehouse.Event
import Gatehouse.Region
import Gatehouse.Store.Basic
import Gatehouse.Timer

/-! # The desk of a front end

Session accounting works on three things: the store, which several front ends may share, the
front end's own timer, and the events it has emitted. -/

namespace Gatehouse

/-- What the session operations of a front end read and change. -/
structure Desk where
  store : Store
  timer : Timer
  events : List Event := []
  deriving DecidableEq

namespace Desk

/-- Emit an event. -/
def emit (d : Desk) (e : Event) : Desk := { d with events := d.events ++ [e] }

/-- Emit events in order. -/
def emitAll (d : Desk) (es : List Event) : Desk := { d with events := d.events ++ es }

/-- Wake up for a key after some seconds. -/
def arm (d : Desk) (key : String) (seconds : UInt64) : Desk :=
  { d with timer := d.timer.armSeconds key seconds }

/-- Drop the wake-up for a key. -/
def disarm (d : Desk) (key : String) : Desk := { d with timer := d.timer.disarm key }

/-! ## Regions of sessions

The tunnel login sees a client's real address and notes its region under the session; the web
front end only sees addresses inside the tunnel and looks the region up. -/

/-- Note the region of a session, to be used for `window` seconds. -/
def noteRegion (window : UInt64) (id : SessionId) (region : String) (now : UInt64) (d : Desk) :
    Except Unavailable Desk :=
  match d.store.set id.regionKey (RegionEntry.encode ⟨region, now + window⟩) with
  | .error e => .error e
  | .ok store => .ok ({ d with store := store }.arm id.regionKey window)

/-- The region noted for a session, if it may still be used. The entry stays. -/
def region? (id : SessionId) (now : UInt64) (d : Desk) : Except Unavailable (Option String) :=
  match d.store.get id.regionKey with
  | .error e => .error e
  | .ok found => .ok ((found.bind (fun b => RegionEntry.fresh? b now)).map RegionEntry.region)

/-- Drop the region noted for a session. -/
def forgetRegion (id : SessionId) (d : Desk) : Except Unavailable Desk :=
  match d.store.delete id.regionKey with
  | .error e => .error e
  | .ok (_, store) => .ok ({ d with store := store }.disarm id.regionKey)

/-- Whether the entry that some bytes hold may not be used any more. -/
def isStale (now : UInt64) (bytes : Bytes) : Bool := (RegionEntry.left? bytes now).isNone

/-- Remove the stale entries among some keys, and count them. -/
def purgeKeys (now : UInt64) : List String → Desk → Except Unavailable (Nat × Desk)
  | [], d => .ok (0, d)
  | key :: rest, d =>
      match d.store.removeIf key (isStale now) with
      | .error e => .error e
      | .ok (found, store) =>
          if found.any (isStale now) then
            match purgeKeys now rest ({ d with store := store }.disarm key) with
            | .error e => .error e
            | .ok (n, d') => .ok (n + 1, d')
          else purgeKeys now rest { d with store := store }

/-- Remove every stale region entry, and count them. Entries that another process wrote have no
wake-up here, so this is what removes them. -/
def purgeRegions (now : UInt64) (d : Desk) : Except Unavailable (Nat × Desk) :=
  match d.store.keys SessionId.regionStem with
  | .error e => .error e
  | .ok keys => purgeKeys now keys d

end Desk

end Gatehouse
