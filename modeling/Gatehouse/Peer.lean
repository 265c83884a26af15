import Gatehouse.Address.Basic
import Gatehouse.Settings.Basic
import Gatehouse.Text.Numeral

/-! # Peer servers

The servers that a handshake hands out, and how often each of them was news to a client. -/

namespace Gatehouse

/-- A server that clients may be sent to. -/
structure Peer where
  address : Address.V4
  port : UInt16
  secret : String
  certificate : String
  deriving DecidableEq, Repr

namespace Peer

/-- The entry that a client receives: address, port, secret and certificate, joined by spaces
and written in hexadecimal. -/
def encoded (p : Peer) : String :=
  Hex.encode (Utf8.encode (p.address.text ++ " " ++ Decimal.text p.port.toNat ++ " " ++ p.secret ++
    " " ++ p.certificate))

/-- A configured entry as a peer, if its address is one. -/
def ofEntry? (e : Settings.PeerEntry) : Option Peer :=
  (Address.V4.parse? e.address).map fun x => ⟨x, e.port, e.secret, e.certificate⟩

end Peer

/-- A peer handed out to a client, and whether the client did not know it. -/
structure Discovery where
  address : Address.V4
  isNew : Bool
  deriving DecidableEq, Repr

/-- How often a peer was new to a client and how often it was known. -/
structure Sightings where
  new : UInt64 := 0
  known : UInt64 := 0
  deriving DecidableEq, Repr

/-- The peers, one an address, and the sightings of each address. -/
structure PeerDirectory where
  servers : List Peer
  sightings : Address.V4 → Sightings := fun _ => {}

namespace PeerDirectory

/-- The peers of some entries whose address is not among those already seen. -/
def distinct (seen : List Address.V4) : List Settings.PeerEntry → List Peer
  | [] => []
  | e :: rest =>
      match Peer.ofEntry? e with
      | none => distinct seen rest
      | some p =>
          if p.address ∈ seen then distinct seen rest
          else p :: distinct (p.address :: seen) rest

/-- The directory of configured entries. An entry without a proper address is left out, and of
several with one address the first counts. -/
def ofEntries (entries : List Settings.PeerEntry) : PeerDirectory := { servers := distinct [] entries }

/-- One discovery for each peer, given the addresses that the client knows. -/
def discover (d : PeerDirectory) (known : List Address.V4) : List Discovery :=
  d.servers.map fun p => ⟨p.address, !known.contains p.address⟩

/-- Count one discovery. -/
def count (s : Sightings) (isNew : Bool) : Sightings :=
  if isNew then { s with new := s.new + 1 } else { s with known := s.known + 1 }

/-- Count discoveries that were reported to a client. -/
def record (d : PeerDirectory) (found : List Discovery) : PeerDirectory :=
  { d with
    sightings := found.foldl
      (fun s e => fun x => if x = e.address then count (s x) e.isNew else s x) d.sightings }

end PeerDirectory

end Gatehouse
