import Gatehouse.Request.Params
import Gatehouse.Session.Id

/-! # Typed request fields

What the values of a query mean, after their rules have been checked. Two older forms are still
understood: a channel under the name `client_id`, and a tunnel address in place of a session
id. A query without a protocol comes from a client that only spoke VPN. -/

namespace Gatehouse

/-- What every request says about its client. -/
structure Identity where
  channel : String
  sponsor : String
  version : UInt32
  deriving DecidableEq, Repr

/-- How a request names its session. -/
inductive SessionRef
  | session (id : SessionId)
  | address (x : Address.V4)
  deriving DecidableEq

namespace Params

/-- The number in a required decimal field, if it is below `bound`. -/
def requireNumber (p : Params) (f : Field) (bound : Nat) : Except Fault Nat :=
  match p.require f with
  | .error e => .error e
  | .ok v =>
      match Decimal.below? bound v with
      | some n => .ok n
      | none => .error (.invalid f.name)

/-- The channel, under its own name or else under the older one. -/
def channel (p : Params) : Except Fault String :=
  match p.optional .channel with
  | .error e => .error e
  | .ok (some v) => .ok v
  | .ok none =>
      match p.require .legacyChannel with
      | .ok v => .ok v
      | .error _ => .error (.missing Field.channel.name)

/-- The identity of the client. -/
def identity (p : Params) : Except Fault Identity :=
  match p.channel with
  | .error e => .error e
  | .ok channel =>
      match p.require .sponsor with
      | .error e => .error e
      | .ok sponsor =>
          match p.requireNumber .version UInt32.size with
          | .error e => .error e
          | .ok version => .ok ⟨channel, sponsor, UInt32.ofNat version⟩

/-- The protocol of the tunnel. -/
def relay (p : Params) : Except Fault Relay :=
  match p.optional .relay with
  | .error e => .error e
  | .ok none => .ok .vpn
  | .ok (some v) =>
      match Relay.ofText? v with
      | some r => .ok r
      | none => .error (.invalid Field.relay.name)

/-- The session of a request, by id or, in the older form, by tunnel address. -/
def sessionRef (p : Params) : Except Fault SessionRef :=
  match p.optional .session with
  | .error e => .error e
  | .ok (some v) =>
      match SessionId.parse v with
      | .ok id => .ok (.session id)
      | .error e => .error e
  | .ok none =>
      match p.optional .legacyAddress with
      | .error e => .error e
      | .ok none => .error (.missing Field.session.name)
      | .ok (some v) =>
          match Address.V4.parse? v with
          | some x => .ok (.address x)
          | none => .error (.invalid Field.legacyAddress.name)

/-- The session id of a request that must carry one. -/
def sessionId (p : Params) : Except Fault SessionId :=
  match p.require .session with
  | .error e => .error e
  | .ok v => SessionId.parse v

/-- The addresses among some texts, if all of them are addresses. -/
def addresses : List String → Except Fault (List Address.V4)
  | [] => .ok []
  | v :: rest =>
      match Address.V4.parse? v with
      | none => .error (.invalid Field.knownServer.name)
      | some x =>
          match addresses rest with
          | .error e => .error e
          | .ok xs => .ok (x :: xs)

/-- The servers the client already knows. -/
def knownServers (p : Params) : Except Fault (List Address.V4) :=
  match p.all .knownServer with
  | .error e => .error e
  | .ok vs => addresses vs

/-- The sequence number of a usage report, if the client counts its reports. -/
def seq (p : Params) : Except Fault (Option UInt64) :=
  match p.optional .seq with
  | .error e => .error e
  | .ok none => .ok none
  | .ok (some v) =>
      match Decimal.below? UInt64.size v with
      | some n => .ok (some (UInt64.ofNat n))
      | none => .error (.invalid Field.seq.name)

/-- Whether the client says that its tunnel is up. -/
def connectedFlag (p : Params) : Except Fault Bool :=
  match p.require .connected with
  | .error e => .error e
  | .ok v => .ok (v == "1")

/-- The code of a failure. -/
def errorCode (p : Params) : Except Fault UInt32 :=
  match p.requireNumber .errorCode UInt32.size with
  | .error e => .error e
  | .ok n => .ok (UInt32.ofNat n)

end Params

end Gatehouse
