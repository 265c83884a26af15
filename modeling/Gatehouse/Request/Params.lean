import Gatehouse.Address.Basic
import Gatehouse.Text.Numeral

/-! # Request parameters

A request names its values by field. Each field has a rule on its text, and a fault says which
field is to blame and how. -/

namespace Gatehouse

/-! ## Relay protocols

The tunnel a client used, or reports on. -/

/-- A tunnel protocol. -/
inductive Relay
  | vpn
  | ssh
  | ossh
  deriving DecidableEq, Repr

namespace Relay

/-- The name of a protocol. -/
def text : Relay → String
  | .vpn => "VPN"
  | .ssh => "SSH"
  | .ossh => "OSSH"

/-- The protocol with a name. -/
def ofText? (s : String) : Option Relay :=
  if s = "VPN" then some .vpn
  else if s = "SSH" then some .ssh
  else if s = "OSSH" then some .ossh
  else none

end Relay

/-! ## What is wrong with a request

A request names its values by field. A fault says which field is to blame and how. -/

/-- Why the values of a request are refused. -/
inductive Fault
  | missing (field : String)
  | invalid (field : String)
  | secretMismatch
  deriving DecidableEq, Repr

namespace Fault

/-- The field that holds the secret every request presents. -/
def secretField : String := "server_secret"

/-- The field to blame. -/
def field : Fault → String
  | .missing f => f
  | .invalid f => f
  | .secretMismatch => secretField

/-- The fault in words. -/
def message : Fault → String
  | .missing f => "missing field `" ++ f ++ "`"
  | .invalid f => "invalid field `" ++ f ++ "`"
  | .secretMismatch => "server secret mismatch"

end Fault

/-! ## Request fields

The fields a request may carry. Each has a name and a rule on its text; a value that breaks its
rule is refused before anything else looks at it. -/

/-- A field with a rule. -/
inductive Field
  | channel
  | legacyChannel
  | sponsor
  | version
  | relay
  | session
  | legacyAddress
  | errorCode
  | connected
  | knownServer
  | seq
  deriving DecidableEq, Repr

namespace Field

/-- Every field. -/
def all : List Field :=
  [.channel, .legacyChannel, .sponsor, .version, .relay, .session, .legacyAddress, .errorCode,
    .connected, .knownServer, .seq]

/-- The name a field has in a query. -/
def name : Field → String
  | .channel => "propagation_channel_id"
  | .legacyChannel => "client_id"
  | .sponsor => "sponsor_id"
  | .version => "client_version"
  | .relay => "relay_protocol"
  | .session => "session_id"
  | .legacyAddress => "vpn_client_ip_address"
  | .errorCode => "error_code"
  | .connected => "connected"
  | .knownServer => "known_server"
  | .seq => "seq"

/-- The field with a name. -/
def named? (s : String) : Option Field := all.find? (fun f => f.name == s)

/-- Whether a text is one or more ASCII digits. -/
def isDecimal (s : String) : Bool := Decimal.isNumeral s.toList

/-- Whether a text is a dotted IPv4 address. -/
def isAddress (s : String) : Bool := (Address.V4.parse? s).isSome

/-- Whether a text names a tunnel protocol. -/
def isRelay (s : String) : Bool := (Relay.ofText? s).isSome

/-- Whether a text is one of the two flags. -/
def isFlag (s : String) : Bool := s == "0" || s == "1"

/-- Whether a text may stand in a field. -/
def accepts : Field → String → Bool
  | .channel => Hex.isNumeral
  | .legacyChannel => Hex.isNumeral
  | .sponsor => Hex.isNumeral
  | .version => isDecimal
  | .relay => isRelay
  | .session => Hex.isNumeral
  | .legacyAddress => isAddress
  | .errorCode => isDecimal
  | .connected => isFlag
  | .knownServer => isAddress
  | .seq => isDecimal

end Field

/-! ## The pairs of a query

Pairs are decoded and stay in arrival order. A name may repeat; where one value is asked for, the
first one counts. -/

/-- The pairs of a query. -/
structure Params where
  pairs : List (String × String)
  deriving DecidableEq

namespace Params

/-- The first value under a name. -/
def get? (p : Params) (name : String) : Option String := p.pairs.lookup name

/-- Every value under a name, in order. -/
def getAll (p : Params) (name : String) : List String :=
  (p.pairs.filter (fun e => e.1 == name)).map (·.2)

/-- The first value of a field, which must be there and keep its rule. -/
def require (p : Params) (f : Field) : Except Fault String :=
  match p.get? f.name with
  | none => .error (.missing f.name)
  | some v => if f.accepts v then .ok v else .error (.invalid f.name)

/-- The first value of a field, which must keep its rule if it is there. -/
def optional (p : Params) (f : Field) : Except Fault (Option String) :=
  match p.get? f.name with
  | none => .ok none
  | some v => if f.accepts v then .ok (some v) else .error (.invalid f.name)

/-- All values of a field; one that breaks the rule spoils the lot. -/
def all (p : Params) (f : Field) : Except Fault (List String) :=
  if (p.getAll f.name).all f.accepts then .ok (p.getAll f.name) else .error (.invalid f.name)

/-- Look a field up by its name; a name without a rule is refused. -/
def ruled {α : Type} (name : String) (read : Field → Except Fault α) : Except Fault α :=
  match Field.named? name with
  | none => .error (.invalid name)
  | some f => read f

/-- Check the secret a request presents: hexadecimal first, then equal to the one expected. -/
def checkSecret (p : Params) (expected : String) : Except Fault Unit :=
  match p.get? Fault.secretField with
  | none => .error (.missing Fault.secretField)
  | some presented =>
      if !Hex.isNumeral presented then .error (.invalid Fault.secretField)
      else if presented = expected then .ok ()
      else .error .secretMismatch

end Params

end Gatehouse
