import Gatehouse.Text.Numeral

/-! # Form-encoded queries

A query is a list of `name=value` pairs joined by `&`. In either part a plus sign is a space and
`%` with two hexadecimal digits is a byte; a `%` without them stands for itself, and bytes that
spell no text become U+FFFD. -/

namespace Gatehouse

namespace Form

/-- Split at every occurrence of a byte. -/
def splitAll (sep : UInt8) : Bytes → List Bytes
  | [] => [[]]
  | b :: rest =>
      if b = sep then [] :: splitAll sep rest
      else
        match splitAll sep rest with
        | [] => [[b]]
        | piece :: pieces => (b :: piece) :: pieces

/-- Split at the first occurrence of a byte; the second part is empty if there is none. -/
def splitFirst (sep : UInt8) : Bytes → Bytes × Bytes
  | [] => ([], [])
  | b :: rest =>
      if b = sep then ([], rest)
      else
        let (before, after) := splitFirst sep rest
        (b :: before, after)

/-- The value of a byte that is a hexadecimal digit. -/
def hexValue? (b : UInt8) : Option Nat :=
  let c := Char.ofNat b.toNat
  if Hex.isDigit c then some (Hex.digitValue c) else none

/-- Undo the escapes of one name or value. -/
def unescape : Bytes → Bytes
  | [] => []
  | [b] => [if b = 0x2B then 0x20 else b]
  | [b, b'] => [if b = 0x2B then 0x20 else b, if b' = 0x2B then 0x20 else b']
  | b :: h :: l :: rest =>
      if b = 0x25 then
        match hexValue? h, hexValue? l with
        | some x, some y => UInt8.ofNat (x * 16 + y) :: unescape rest
        | _, _ => b :: unescape (h :: l :: rest)
      else (if b = 0x2B then 0x20 else b) :: unescape (h :: l :: rest)

/-- The text of one name or value. -/
def component (bytes : Bytes) : String := Utf8.decodeLossy (unescape bytes)

/-- The pairs of a query, in order; an empty piece between two `&` is no pair. -/
def pairs (query : String) : List (String × String) :=
  ((splitAll 0x26 (Utf8.encode query)).filter (fun piece => !piece.isEmpty)).map fun piece =>
    let (name, value) := splitFirst 0x3D piece
    (component name, component value)

end Form

end Gatehouse
