import Gatehouse.Text.Numeral

/-! # Network addresses

Addresses of two families, how their texts are read, and how they are written. A socket address
is an address with a port. -/

namespace Gatehouse

/-! ## IPv4 addresses

An address is read from four decimal octets joined by dots, without leading zeros, and written
the same way. -/

namespace Address

/-- An IPv4 address. -/
structure V4 where
  a : UInt8
  b : UInt8
  c : UInt8
  d : UInt8
  deriving DecidableEq, Repr

namespace V4

/-- Read an octet: one to three digits, no leading zero, at most 255. -/
def octet? (cs : List Char) : Option (UInt8 × List Char) :=
  let digits := cs.takeWhile Char.isDigit
  let rest := cs.dropWhile Char.isDigit
  if digits.isEmpty || 3 < digits.length then none
  else if digits.head? = some '0' && 1 < digits.length then none
  else if Decimal.value digits < 256 then some (UInt8.ofNat (Decimal.value digits), rest)
  else none

/-- Step over a dot. -/
def dot? : List Char → Option (List Char)
  | '.' :: rest => some rest
  | _ => none

/-- Read an address at the start of a text. -/
def take? (cs : List Char) : Option (V4 × List Char) := do
  let (a, cs) ← octet? cs
  let (b, cs) ← octet? (← dot? cs)
  let (c, cs) ← octet? (← dot? cs)
  let (d, cs) ← octet? (← dot? cs)
  return (⟨a, b, c, d⟩, cs)

/-- Read a text that is an address and nothing else. -/
def parse? (s : String) : Option V4 :=
  match take? s.toList with
  | some (address, []) => some address
  | _ => none

/-- The dotted form of an address. -/
def text (x : V4) : String :=
  Decimal.text x.a.toNat ++ "." ++ Decimal.text x.b.toNat ++ "." ++
    Decimal.text x.c.toNat ++ "." ++ Decimal.text x.d.toNat

end V4

/-! ## IPv6 addresses

An address is eight groups of sixteen bits. It is read in any of the usual forms, with one `::`
and a trailing dotted IPv4 part allowed, and written in the canonical form: lower case, no
leading zeros, the first longest run of two or more zero groups as `::`, and the IPv4-mapped
block in dotted form. -/

/-- An IPv6 address. -/
structure V6 where
  groups : Vector UInt16 8
  deriving DecidableEq

namespace V6

/-- Read a group: one to four hexadecimal digits. -/
def group? (cs : List Char) : Option (UInt16 × List Char) :=
  let digits := cs.takeWhile Hex.isDigit
  if digits.isEmpty || 4 < digits.length then none
  else some (UInt16.ofNat (Hex.value digits), cs.dropWhile Hex.isDigit)

/-- Step over the colon that joins a group to the one before it, if there is one before it. -/
def joint? (first : Bool) : List Char → Option (List Char)
  | ':' :: rest => if first then some (':' :: rest) else some rest
  | cs => if first then some cs else none

/-- The two groups that hold an IPv4 address. -/
def groupsOfV4 (x : V4) : List UInt16 :=
  [UInt16.ofNat (x.a.toNat * 256 + x.b.toNat), UInt16.ofNat (x.c.toNat * 256 + x.d.toNat)]

/-- Read at most `room` groups joined by colons. A dotted IPv4 part takes the place of two
groups and ends the reading; the flag says that there was one. -/
def takeGroups : (room : Nat) → (first : Bool) → List Char → List UInt16 × Bool × List Char
  | 0, _, cs => ([], false, cs)
  | room + 1, first, cs =>
      match joint? first cs with
      | none => ([], false, cs)
      | some cs' =>
          match (if 1 ≤ room then V4.take? cs' else none) with
          | some (x, rest) => (groupsOfV4 x, true, rest)
          | none =>
              match group? cs' with
              | none => ([], false, cs)
              | some (g, rest) =>
                  let (gs, dotted, rest') := takeGroups room false rest
                  (g :: gs, dotted, rest')

/-- Eight groups from the ones before and after `::`. -/
def ofParts (front back : List UInt16) : V6 :=
  ⟨Vector.ofFn fun i =>
    if i.val < 8 - back.length then front.getD i.val 0
    else back.getD (i.val - (8 - back.length)) 0⟩

/-- Read an address at the start of a text. -/
def take? (cs : List Char) : Option (V6 × List Char) :=
  match takeGroups 8 true cs with
  | (front, dotted, rest) =>
      if front.length = 8 then some (ofParts front [], rest)
      else if dotted then none
      else
        match rest with
        | ':' :: ':' :: rest' =>
            match takeGroups (7 - front.length) true rest' with
            | (back, _, rest'') => some (ofParts front back, rest'')
        | _ => none

/-- Read a text that is an address and nothing else. -/
def parse? (s : String) : Option V6 :=
  match take? s.toList with
  | some (address, []) => some address
  | _ => none

/-- A run of zero groups: where it starts and how long it is. -/
structure Run where
  start : Nat
  length : Nat
  deriving DecidableEq, Repr

/-- The first longest run of zeros in a list whose first group has index `i`; `current` is the
run that ends just before it and `longest` the longest so far. -/
def longestRun (i : Nat) (current longest : Run) : List UInt16 → Run
  | [] => longest
  | g :: rest =>
      if g = 0 then
        let current := if current.length = 0 then ⟨i, 1⟩ else ⟨current.start, current.length + 1⟩
        longestRun (i + 1) current (if longest.length < current.length then current else longest)
          rest
      else longestRun (i + 1) ⟨0, 0⟩ longest rest

/-- Groups joined by colons. -/
def joined (groups : List UInt16) : String :=
  String.intercalate ":" (groups.map (fun g => Hex.ofNat g.toNat))

/-- The IPv4 address inside an IPv4-mapped one. -/
def mapped? (x : V6) : Option V4 :=
  match x.groups.toList with
  | [0, 0, 0, 0, 0, 0xFFFF, hi, lo] =>
      some ⟨UInt8.ofNat (hi.toNat / 256), UInt8.ofNat (hi.toNat % 256),
        UInt8.ofNat (lo.toNat / 256), UInt8.ofNat (lo.toNat % 256)⟩
  | _ => none

/-- The canonical form of an address. -/
def text (x : V6) : String :=
  match x.mapped? with
  | some v4 => "::ffff:" ++ v4.text
  | none =>
      let groups := x.groups.toList
      let run := longestRun 0 ⟨0, 0⟩ ⟨0, 0⟩ groups
      if 1 < run.length then
        joined (groups.take run.start) ++ "::" ++ joined (groups.drop (run.start + run.length))
      else joined groups

end V6

end Address

/-! ## Addresses of either family -/

/-- An address of either family. -/
inductive Address
  | v4 (x : Address.V4)
  | v6 (x : Address.V6)
  deriving DecidableEq

namespace Address

/-- Read a text that is an address of either family. -/
def parse? (s : String) : Option Address :=
  match V4.parse? s with
  | some x => some (.v4 x)
  | none => (V6.parse? s).map .v6

/-- The canonical text of an address. -/
def text : Address → String
  | .v4 x => x.text
  | .v6 x => x.text

/-- An address and a port. -/
structure Socket where
  address : Address
  port : UInt16
  deriving DecidableEq

namespace Socket

/-- Read a colon and a port number that ends the text. -/
def port? : List Char → Option UInt16
  | ':' :: digits =>
      if Decimal.isNumeral digits && Decimal.value digits < UInt16.size then
        some (UInt16.ofNat (Decimal.value digits))
      else none
  | _ => none

/-- Step over the scope of a bracketed address, if there is one. -/
def dropScope? : List Char → Option (List Char)
  | '%' :: rest =>
      let digits := rest.takeWhile Char.isDigit
      if digits.isEmpty || UInt32.size ≤ Decimal.value digits then none
      else some (rest.dropWhile Char.isDigit)
  | cs => some cs

/-- Read `a.b.c.d:port` or `[v6]:port`. -/
def parse? (s : String) : Option Socket :=
  match s.toList with
  | '[' :: inner => do
      let (x, rest) ← V6.take? inner
      match ← dropScope? rest with
      | ']' :: rest' => return ⟨.v6 x, ← port? rest'⟩
      | _ => none
  | cs => do
      let (x, rest) ← V4.take? cs
      return ⟨.v4 x, ← port? rest⟩

end Socket

end Address

end Gatehouse
