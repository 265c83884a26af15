import Gatehouse.Dict.Basic

/-! # Wake-ups

A timer holds at most one deadline a key, in milliseconds on a clock of its own. A sweep takes
out every deadline that has come and announces its key; announced keys wait in line for their
only listener. The timer says when to look at a key and nothing about what is stored there.

Clocks count seconds in a signed word of sixty-four bits. A wake-up for a time that no clock shows
cannot be armed: whatever asks for it is broken off. `Timer.arm` says what is armed within reach. -/

namespace Gatehouse

/-- The deadlines of one process and the keys that wait for its listener, the oldest first. -/
structure Timer where
  clock : Nat
  armed : Dict Nat := Dict.empty
  announced : List String := []
  heard : Bool := true
  deriving DecidableEq

namespace Timer

/-- The first time that no clock shows. -/
def horizon : Nat := UInt64.size / 2 * 1000

/-- The clock can show the time after a delay. -/
def Reaches (t : Timer) (delay : Nat) : Prop := t.clock + delay < horizon

instance (t : Timer) (delay : Nat) : Decidable (t.Reaches delay) :=
  inferInstanceAs (Decidable (t.clock + delay < horizon))

/-- Wake up for a key after a delay within reach, in place of any earlier wake-up for it. -/
def arm (t : Timer) (key : String) (delay : Nat) : Timer :=
  { t with armed := t.armed.insert key (t.clock + delay) }

/-- Wake up for a key after some seconds, which are within reach. -/
def armSeconds (t : Timer) (key : String) (seconds : UInt64) : Timer :=
  t.arm key (seconds.toNat * 1000)

/-- Drop the wake-up for a key. -/
def disarm (t : Timer) (key : String) : Timer := { t with armed := t.armed.erase key }

/-- Let time pass. -/
def advance (t : Timer) (duration : Nat) : Timer := { t with clock := t.clock + duration }

/-- The wake-ups whose deadline has come, by deadline and then by key. -/
def due (t : Timer) : List (String × Nat) :=
  (t.armed.toList.filter (fun e => e.2 ≤ t.clock)).mergeSort (fun a b => a.2 ≤ b.2)

/-- Take out every wake-up whose deadline has come and announce its key. Announcements that
nobody listens to are lost. -/
def sweep (t : Timer) : Timer :=
  { t with
    armed := t.armed.filter (fun _ deadline => t.clock < deadline)
    announced := if t.heard then t.announced ++ t.due.map (·.1) else t.announced }

/-- Sweep, and count the wake-ups whose deadline has come. -/
def fire (t : Timer) : Nat × Timer := (t.due.length, t.sweep)

/-- Hand over the announced keys. -/
def collect (t : Timer) : List String × Timer := (t.announced, { t with announced := [] })

/-- Stop listening. Keys that are waiting are lost too. -/
def deafen (t : Timer) : Timer := { t with announced := [], heard := false }

end Timer

end Gatehouse
