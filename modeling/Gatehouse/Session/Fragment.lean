import Gatehouse.Dict.Basic
import Gatehouse.Session.Id

/-! # Open fragments

A fragment is the running account of one session between two flushes. It carries the time at
which it is due; every event folded into it moves that time. Finishing a fragment yields the
record of the session. -/

namespace Gatehouse

/-! ## Counters that stop at the top

Byte counts and deadlines are sixty-four bit words. Their sum is cut off at the greatest word
instead of starting again from zero. -/

/-- The sum of two words, or the greatest word where the sum does not fit. -/
def capped (a b : UInt64) : UInt64 :=
  if a.toNat + b.toNat < UInt64.size then a + b else UInt64.ofNat (UInt64.size - 1)

theorem toNat_capped (a b : UInt64) :
    (capped a b).toNat = min (UInt64.size - 1) (a.toNat + b.toNat) := by
  have ha := a.toNat_lt_size
  have hb := b.toNat_lt_size
  have hs : UInt64.size = 18446744073709551616 := rfl
  unfold capped
  split
  · rw [UInt64.toNat_add]; omega
  · have : (UInt64.ofNat (UInt64.size - 1)).toNat = UInt64.size - 1 := by decide
    omega

/-- How far one word lies above another, and zero where it does not. -/
def excess (a b : UInt64) : UInt64 := if b ≤ a then a - b else 0

theorem toNat_excess (a b : UInt64) : (excess a b).toNat = a.toNat - b.toNat := by
  unfold excess
  split
  case isTrue h => exact UInt64.toNat_sub_of_le _ _ h
  case isFalse h =>
    have : a.toNat < b.toNat := by simpa [UInt64.le_iff_toNat_le] using h
    simp; omega

/-! ## Fragments and records -/

/-- The record of a finished session. -/
structure SessionRecord where
  session : String
  tag : String
  start : UInt64
  last : UInt64
  duration : UInt64
  bytes : UInt64
  isPartial : Bool
  fields : Dict String
  deriving DecidableEq

/-- The running account of a session. The tag tells the fragments of one session apart; a partial
fragment was opened by a report without a connect before it. -/
structure Fragment where
  session : String
  tag : String
  start : UInt64
  last : UInt64
  bytes : UInt64
  isPartial : Bool
  lastSeq : Option UInt64
  fields : Dict String
  due : UInt64
  deriving DecidableEq

namespace Fragment

/-- The fragment that a connect opens. -/
def opened (session tag : String) (fields : Dict String) (now : UInt64) : Fragment where
  session := session
  tag := tag
  start := now
  last := now
  bytes := 0
  isPartial := false
  lastSeq := none
  fields := fields
  due := now

/-- The fragment that a report without a connect opens. -/
def openedPartial (session tag : String) (now bytes : UInt64) (seq : Option UInt64) : Fragment :=
  { opened session tag Dict.empty now with isPartial := true, bytes := bytes, lastSeq := seq }

/-- Whether a report with this number has not been folded in. One without a number always counts. -/
def accepts (f : Fragment) (seq : Option UInt64) : Bool :=
  match seq, f.lastSeq with
  | some n, some last => last < n
  | _, _ => true

/-- The later of two report numbers. -/
def laterSeq : Option UInt64 → Option UInt64 → Option UInt64
  | some n, some last => some (if last < n then n else last)
  | some n, none => some n
  | none, last => last

/-- Fold a report in. The last event never moves back. -/
def apply (f : Fragment) (now bytes : UInt64) (seq : Option UInt64) : Fragment :=
  { f with
    last := if f.last < now then now else f.last
    bytes := capped f.bytes bytes
    lastSeq := laterSeq seq f.lastSeq }

/-- Make a fragment due `window` seconds after `now`. -/
def extend (f : Fragment) (now window : UInt64) : Fragment := { f with due := capped now window }

/-- Whether a fragment is due. -/
def isDue (f : Fragment) (now : UInt64) : Bool := f.due ≤ now

/-- The record of the session that a fragment accounts for. -/
def finish (f : Fragment) : SessionRecord where
  session := f.session
  tag := f.tag
  start := f.start
  last := f.last
  duration := excess f.last f.start
  bytes := f.bytes
  isPartial := f.isPartial
  fields := f.fields

end Fragment

end Gatehouse
