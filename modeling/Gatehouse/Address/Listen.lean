import Gatehouse.Address.Basic

/-! # Addresses to listen on

A server listens on a socket address, or on a host and a port with a colon between them. The
host may be an address of either family, also one written as fewer than four numbers; of names
only that of the machine itself is known. The address must be one of the machine's own. -/

namespace Gatehouse

namespace Address

/-- Why a server cannot listen on what a text names. -/
inductive ListenFault
  | noPort
  | badPort
  | unknownHost
  | foreign
  deriving DecidableEq, Repr

namespace ListenFault

/-- The fault in words. -/
def message : ListenFault → String
  | .noPort => "invalid socket address"
  | .badPort => "invalid port value"
  | .unknownHost => "failed to lookup address information: Name or service not known"
  | .foreign => "Cannot assign requested address (os error 99)"

end ListenFault

/-- What stands before and after the last colon. -/
def splitPort? (s : String) : Option (String × String) :=
  let reversed := s.toList.reverse
  let port := reversed.takeWhile (fun c => c != ':')
  match reversed.dropWhile (fun c => c != ':') with
  | [] => none
  | _ :: host => some (String.ofList host.reverse, String.ofList port.reverse)

/-- The number that a part of a numeric host writes: in octal after a zero, in hexadecimal after a
zero and an x, and in decimal otherwise. -/
def hostNumber? (part : List Char) : Option Nat :=
  match part with
  | [] => none
  | '0' :: 'x' :: digits => based? 16 Hex.isDigit digits
  | '0' :: 'X' :: digits => based? 16 Hex.isDigit digits
  | ['0'] => some 0
  | '0' :: digits => based? 8 (fun c => '0' ≤ c && c ≤ '7') digits
  | digits => based? 10 Char.isDigit digits
where
  /-- The number that digits write in a base. -/
  based? (base : Nat) (isDigit : Char → Bool) (digits : List Char) : Option Nat :=
    if digits.isEmpty || !digits.all isDigit then none
    else some (Hex.valueIn base digits)

/-- The address of a numeric host: every number but the last is an octet, and the last one fills
up the rest. -/
def ofHostNumbers? : List Nat → Option V4
  | [d] => if d < 0x100000000 then some (octets d) else none
  | [a, d] => if a < 256 ∧ d < 0x1000000 then some (octets (a * 0x1000000 + d)) else none
  | [a, b, d] =>
      if a < 256 ∧ b < 256 ∧ d < 0x10000 then
        some (octets (a * 0x1000000 + b * 0x10000 + d))
      else none
  | [a, b, c, d] =>
      if a < 256 ∧ b < 256 ∧ c < 256 ∧ d < 256 then
        some ⟨UInt8.ofNat a, UInt8.ofNat b, UInt8.ofNat c, UInt8.ofNat d⟩
      else none
  | _ => none
where
  /-- The four octets of a number. -/
  octets (n : Nat) : V4 :=
    ⟨UInt8.ofNat (n / 0x1000000), UInt8.ofNat (n / 0x10000), UInt8.ofNat (n / 0x100),
      UInt8.ofNat n⟩

/-- The address that a host stands for. -/
def ofHost? (host : String) : Option Address :=
  if host = "localhost" then some (.v4 ⟨127, 0, 0, 1⟩)
  else
    match parse? host with
    | some x => some x
    | none =>
        (((host.splitOn ".").mapM fun part => hostNumber? part.toList).bind ofHostNumbers?).map .v4

namespace V4

/-- Whether a machine can listen on an address that it has not been given: one of its own loop, or
one for all or several machines. -/
def isOwn (x : V4) : Bool :=
  x.a = 127 || (224 ≤ x.a && x.a < 240) || x == ⟨0, 0, 0, 0⟩ || x == ⟨255, 255, 255, 255⟩

end V4

namespace V6

/-- Whether a machine can listen on an address that it has not been given. -/
def isOwn (x : V6) : Bool :=
  match x.mapped? with
  | some inner => inner.isOwn
  | none =>
      match x.groups.toList with
      | [0, 0, 0, 0, 0, 0, 0, last] => last = 0 || last = 1
      | first :: _ => 0xFF00 ≤ first
      | [] => false

end V6

/-- Whether a machine can listen on an address that it has not been given. -/
def isOwn : Address → Bool
  | .v4 x => x.isOwn
  | .v6 x => x.isOwn

/-- The address to listen on that a text names, after its port has been looked at. -/
def listenAddress? (s : String) : Except ListenFault Address :=
  match Socket.parse? s with
  | some socket => .ok socket.address
  | none =>
      match splitPort? s with
      | none => .error .noPort
      | some (host, port) =>
          if (Decimal.signedBelow? UInt16.size port).isNone then .error .badPort
          else
            match ofHost? host with
            | some x => .ok x
            | none => .error .unknownHost

/-- Find out whether a server can listen on what a text names. -/
def listenFault? (s : String) : Option ListenFault :=
  match listenAddress? s with
  | .error f => some f
  | .ok x => if x.isOwn then none else some .foreign

end Address

end Gatehouse
