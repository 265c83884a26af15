import Gatehouse.Address.Basic
import Gatehouse.Dict.Basic
import Gatehouse.Json.Basic
import Gatehouse.Json.Printer
import Gatehouse.Json.Reader
import Gatehouse.Text.Utf8

/-! # Regions

Where a client comes from is looked up by its address and kept for its session. -/

namespace Gatehouse

/-! ## Region entries

A tunnel login leaves the client's region in the store, with the time up to which it may be
used. -/

/-- The region recorded for a session. -/
structure RegionEntry where
  region : String
  due : UInt64
  deriving DecidableEq, Repr

namespace RegionEntry

/-- An entry as JSON. -/
def toJson (e : RegionEntry) : Json :=
  Json.record [("region", Json.text e.region), ("expires_at", Json.number e.due)]

/-- Read an entry. -/
def ofJson? (j : Json) : Option RegionEntry :=
  match Json.fields? ["region", "expires_at"] j with
  | some [region, due] => do
      return {
        region := ← Json.required Json.text? region
        due := ← Json.required Json.number? due }
  | _ => none

/-- The stored form of an entry. -/
def encode (e : RegionEntry) : Bytes := e.toJson.bytes

/-- Read a stored entry. -/
def decode? (bytes : Bytes) : Option RegionEntry := (Json.parse? bytes).bind ofJson?

/-- The entry that some bytes hold, if it may still be used. -/
def fresh? (bytes : Bytes) (now : UInt64) : Option RegionEntry :=
  match decode? bytes with
  | some e => if now < e.due then some e else none
  | none => none

/-- The seconds for which the entry that some bytes hold may still be used. -/
def left? (bytes : Bytes) (now : UInt64) : Option UInt64 :=
  (fresh? bytes now).map (fun e => e.due - now)

end RegionEntry

/-! ## Regions of addresses

Rules map the start of an address text to a region. The longest rule that fits decides; an
address that no rule fits has the region `None`. -/

/-- Rules, the longest first. -/
structure RegionTable where
  rules : List (String × String)
  deriving DecidableEq, Repr

namespace RegionTable

/-- The region of an address that no rule fits. -/
def unknown : String := "None"

/-- The table of some rules. -/
def ofRules (rules : Dict String) : RegionTable :=
  ⟨rules.toList.mergeSort (fun a b => Utf8.size b.1 ≤ Utf8.size a.1)⟩

/-- Whether a text starts with another. -/
def starts (stem s : String) : Bool := stem.toList.isPrefixOf s.toList

/-- The region of an address. -/
def lookup (t : RegionTable) (x : Address) : String :=
  match t.rules.find? (fun rule => starts rule.1 x.text) with
  | some rule => rule.2
  | none => unknown

end RegionTable

end Gatehouse
