import Gatehouse.Text.Utf8

/-! # Numerals

Numbers in decimal digits, and bytes in hexadecimal ones. -/

namespace Gatehouse

/-! ## Decimal numerals

Unsigned numerals in ASCII digits, with any number of leading zeros, and their bounded readings. -/

namespace Decimal

/-- The number that digits write. -/
def value (cs : List Char) : Nat := cs.foldl (fun n c => n * 10 + (c.toNat - '0'.toNat)) 0

/-- Whether a text is one or more ASCII digits and nothing else. -/
def isNumeral (cs : List Char) : Bool := !cs.isEmpty && cs.all Char.isDigit

/-- The number below `bound` that a text of digits writes. -/
def below? (bound : Nat) (s : String) : Option Nat :=
  if isNumeral s.toList && value s.toList < bound then some (value s.toList) else none

/-- As `below?`, with one plus sign allowed in front. -/
def signedBelow? (bound : Nat) (s : String) : Option Nat :=
  match s.toList with
  | '+' :: rest => below? bound (String.ofList rest)
  | _ => below? bound s

/-- The numeral of a number, without leading zeros. -/
def text (n : Nat) : String := String.ofList (Nat.toDigits 10 n)

end Decimal

/-! ## Hexadecimal text

Bytes are written with two lower-case digits each and read in either case. -/

namespace Hex

/-- Whether a character is an ASCII hexadecimal digit, in either case. -/
def isDigit (c : Char) : Bool :=
  ('0' ≤ c && c ≤ '9') || ('a' ≤ c && c ≤ 'f') || ('A' ≤ c && c ≤ 'F')

/-- The value of a hexadecimal digit, and 0 for any other character. -/
def digitValue (c : Char) : Nat :=
  if '0' ≤ c ∧ c ≤ '9' then c.toNat - '0'.toNat
  else if 'a' ≤ c ∧ c ≤ 'f' then c.toNat - 'a'.toNat + 10
  else if 'A' ≤ c ∧ c ≤ 'F' then c.toNat - 'A'.toNat + 10
  else 0

/-- The lower-case digit of a value below sixteen. -/
def digit (n : Nat) : Char :=
  if n < 10 then Char.ofNat ('0'.toNat + n) else Char.ofNat ('a'.toNat + (n - 10))

/-- The number that digits write in a base up to sixteen. -/
def valueIn (base : Nat) (cs : List Char) : Nat := cs.foldl (fun n c => n * base + digitValue c) 0

/-- The number that hexadecimal digits write. -/
def value (cs : List Char) : Nat := valueIn 16 cs

/-- Whether a text is one or more hexadecimal digits and nothing else. -/
def isNumeral (s : String) : Bool := !s.toList.isEmpty && s.toList.all isDigit

/-- Two digits for each byte. -/
def encodeChars : Bytes → List Char
  | [] => []
  | b :: rest => digit (b.toNat / 16) :: digit (b.toNat % 16) :: encodeChars rest

/-- Bytes written in lower-case hexadecimal. -/
def encode (bytes : Bytes) : String := String.ofList (encodeChars bytes)

/-- The bytes that pairs of digits write. -/
def decodeChars? : List Char → Option Bytes
  | [] => some []
  | [_] => none
  | c :: c' :: rest =>
      if isDigit c && isDigit c' then
        (decodeChars? rest).map (UInt8.ofNat (digitValue c * 16 + digitValue c') :: ·)
      else none

/-- The bytes written in a hexadecimal text of either case. -/
def decode? (s : String) : Option Bytes := decodeChars? s.toList

/-- The digits of a number in lower-case hexadecimal, without leading zeros. -/
def ofNat (n : Nat) : String := String.ofList (Nat.toDigits 16 n)

end Hex

end Gatehouse
