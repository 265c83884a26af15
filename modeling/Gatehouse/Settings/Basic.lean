import Gatehouse.Dict.Basic
import Gatehouse.Request.Params

/-! # Settings

Everything an operator can choose. Times are in seconds unless the name says otherwise. -/

namespace Gatehouse

namespace Settings

/-- The client-facing server. -/
structure Server where
  listen : String := "0.0.0.0:8080"
  address : String := "127.0.0.1"
  secret : String := ""
  maxBody : Nat := 65536
  deriving DecidableEq, Repr

/-- Where session state is kept. -/
inductive StoreKind
  | memory
  | database
  deriving DecidableEq, Repr

/-- Session accounting. -/
structure Sessions where
  store : StoreKind := .memory
  databasePath : String
  fragmentWindow : UInt64 := 900
  disconnectWindow : UInt64 := 1
  sweepMillis : UInt64 := 500
  regionWindow : UInt64 := 300
  deriving DecidableEq, Repr

/-- The rotating tunnel key. -/
structure Keys where
  length : Nat := 16
  secretsPath : Option String := none
  deriving DecidableEq, Repr

/-- A server that clients may be sent to. -/
structure PeerEntry where
  address : String
  port : UInt16
  secret : String
  certificate : String
  deriving DecidableEq, Repr

/-- A page shown to the clients of a region. -/
structure HomePage where
  region : String
  url : String
  deriving DecidableEq, Repr

/-- A sponsor and its pages. -/
structure Sponsor where
  id : String
  pages : List HomePage := []
  deriving DecidableEq, Repr

/-- A client version published on a channel. -/
structure Upgrade where
  channel : String
  version : UInt32
  deriving DecidableEq, Repr

/-- Tunnel logins. -/
structure Login where
  userStem : String := "waypost"
  users : Dict String := Dict.empty
  sessionBytes : Nat := 16
  passwordBytes : Nat := 32
  deriving DecidableEq

end Settings

/-- The settings of the program. -/
structure Settings where
  server : Settings.Server := {}
  sessions : Settings.Sessions
  keys : Settings.Keys := {}
  statsPath : Option String := none
  peers : List Settings.PeerEntry := []
  sponsors : List Settings.Sponsor := []
  upgrades : List Settings.Upgrade := []
  regions : Dict String := Dict.empty
  login : Settings.Login := {}
  downloads : String
  deriving DecidableEq

/-! ## Checking settings

Settings that the program cannot run with are refused; the first fault is the one reported. -/

namespace Settings

/-- A setting that cannot be used, and why. -/
structure Flaw where
  setting : String
  reason : String
  deriving DecidableEq, Repr

/-- A flaw in words. -/
def Flaw.message (f : Flaw) : String := "invalid setting " ++ f.setting ++ ": " ++ f.reason

/-- The first peer server whose address is none. -/
def badPeer? (s : Settings) : Option PeerEntry :=
  s.peers.find? (fun p => !Field.isAddress p.address)

/-- The first fault of some settings. -/
def flaw? (s : Settings) : Option Flaw :=
  if !s.server.secret.isEmpty && !Hex.isNumeral s.server.secret then
    some ⟨"server.web_server_secret", "must be hex"⟩
  else if s.sessions.fragmentWindow ≤ s.sessions.disconnectWindow then
    some ⟨"sessions.fragment_ttl_secs", "must exceed disconnect_ttl_secs"⟩
  else if s.sessions.sweepMillis = 0 ∨ s.sessions.regionWindow = 0 then
    some ⟨"sessions", "sweep_interval_ms and geo_ttl_secs must be positive"⟩
  else if s.keys.length = 0 then some ⟨"psk.length_bytes", "must be positive"⟩
  else
    match s.badPeer? with
    | some p => some ⟨"discovery.servers.ip_address", p.address⟩
    | none => none

end Settings

end Gatehouse
