/-! # Text as bytes

UTF-8 in both directions. `Utf8.scan` reads any byte string: it yields the characters it finds
and marks each longest piece that no character can start with, so that the strict and the
forgiving reading differ only in what they do with a mark. -/

namespace Gatehouse

/-- A string of bytes. -/
abbrev Bytes := List UInt8

namespace Utf8

/-- The bytes of a text. -/
def encode (s : String) : Bytes := s.toList.flatMap String.utf8EncodeChar

/-- How many bytes a text takes. -/
def size (s : String) : Nat := (encode s).length

/-- A character whose first byte has been read: its bits so far, how many bytes it still owes,
and the range of the next one. -/
structure Begun where
  bits : Nat
  owed : Nat
  low : Nat := 0x80
  high : Nat := 0xBF
  deriving DecidableEq, Repr

/-- What a byte between characters is. -/
inductive Lead
  | whole (c : Char)
  | begun (b : Begun)
  | stray
  deriving DecidableEq, Repr

/-- Read a byte that stands between characters. -/
def lead (byte : UInt8) : Lead :=
  let b := byte.toNat
  if b < 0x80 then .whole (Char.ofNat b)
  else if b < 0xC2 then .stray
  else if b < 0xE0 then .begun { bits := b % 32, owed := 1 }
  else if b = 0xE0 then .begun { bits := 0, owed := 2, low := 0xA0 }
  else if b = 0xED then .begun { bits := 13, owed := 2, high := 0x9F }
  else if b < 0xF0 then .begun { bits := b % 16, owed := 2 }
  else if b = 0xF0 then .begun { bits := 0, owed := 3, low := 0x90 }
  else if b < 0xF4 then .begun { bits := b % 8, owed := 3 }
  else if b = 0xF4 then .begun { bits := 4, owed := 3, high := 0x8F }
  else .stray

/-- Read on, from inside a character or between two; `none` marks a malformed piece. -/
def scan : Option Begun → Bytes → List (Option Char)
  | none, [] => []
  | some _, [] => [none]
  | none, byte :: rest =>
      match lead byte with
      | .whole c => some c :: scan none rest
      | .begun b => scan (some b) rest
      | .stray => none :: scan none rest
  | some b, byte :: rest =>
      if b.low ≤ byte.toNat ∧ byte.toNat ≤ b.high then
        let bits := b.bits * 64 + byte.toNat % 64
        if b.owed ≤ 1 then some (Char.ofNat bits) :: scan none rest
        else scan (some { bits := bits, owed := b.owed - 1 }) rest
      else
        match lead byte with
        | .whole c => none :: some c :: scan none rest
        | .begun b' => none :: scan (some b') rest
        | .stray => none :: none :: scan none rest

/-- The list of values, if there is one everywhere. -/
def allSome {α : Type} : List (Option α) → Option (List α)
  | [] => some []
  | none :: _ => none
  | some a :: rest => (allSome rest).map (a :: ·)

/-- The text that some bytes spell, if they spell one. -/
def decode? (bytes : Bytes) : Option String :=
  (allSome (scan none bytes)).map String.ofList

/-- The text that some bytes spell, with U+FFFD for each malformed piece. -/
def decodeLossy (bytes : Bytes) : String :=
  String.ofList ((scan none bytes).map (fun c => c.getD (Char.ofNat 0xFFFD)))

end Utf8

end Gatehouse
