import Gatehouse.Catalog
import Gatehouse.Key
import Gatehouse.Peer
import Gatehouse.Tracker

/-! # The client-facing service

What the service is configured with, what it changes, and what it answers. A request that is
refused is answered the same way whatever the reason: not found, and nothing else. -/

namespace Gatehouse

/-- What the service is configured with. -/
structure Site where
  address : String
  secret : String
  catalog : Catalog
  regions : RegionTable
  windows : Windows
  downloads : String
  maxBody : Nat
  deriving DecidableEq

/-- What the service of one front end reads and changes. -/
structure FrontEnd where
  desk : Desk
  rotator : Rotator
  outlet : KeyOutlet
  files : Files
  peers : PeerDirectory

/-- The requests that clients make. -/
inductive Endpoint
  | handshake
  | connected
  | failed
  | status
  | download
  deriving DecidableEq, Repr

namespace Endpoint

/-- Every request. -/
def all : List Endpoint := [.handshake, .connected, .failed, .status, .download]

/-- The name of a request. -/
def name : Endpoint → String
  | .handshake => "handshake"
  | .connected => "connected"
  | .failed => "failed"
  | .status => "status"
  | .download => "download"

/-- The request with a name. -/
def named? (s : String) : Option Endpoint := all.find? (fun e => e.name == s)

end Endpoint

/-- Random values drawn for a request, in case it opens a fragment or rotates the key. -/
structure Draw where
  tag : String
  key : String
  deriving DecidableEq, Repr

/-- A request as its handler sees it. A body that is too long is not there. -/
structure Call where
  params : Params
  client : Address
  body : Option Bytes
  now : UInt64
  draw : Draw
  deriving DecidableEq

/-- An answer. -/
structure Response where
  status : Nat
  contentType : Option String := none
  allow : Option String := none
  body : Bytes := []
  deriving DecidableEq, Repr

namespace Response

/-- The answer to a request that was carried out and has nothing to say. -/
def ok : Response := { status := 200 }

/-- The answer to a request that was refused. -/
def notFound : Response := { status := 404 }

end Response

/-- Why a request is refused. -/
inductive Rejection
  | fault (request : Endpoint) (f : Fault)
  | tracker (request : Endpoint) (e : Unavailable)
  | store (request : Endpoint) (e : Unavailable)
  | key (e : KeyFailure)
  | body
  | notFound
  deriving DecidableEq, Repr

namespace Site

/-- The service of some settings. -/
def ofSettings (s : Settings) : Site where
  address := s.server.address
  secret := s.server.secret
  catalog := Catalog.ofSettings s.sponsors s.upgrades
  regions := RegionTable.ofRules s.regions
  windows := ⟨s.sessions.fragmentWindow, s.sessions.disconnectWindow, s.sessions.regionWindow⟩
  downloads := s.downloads
  maxBody := s.server.maxBody

end Site

end Gatehouse
