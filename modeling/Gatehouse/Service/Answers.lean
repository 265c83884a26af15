import Gatehouse.Service.State

/-! # Answers to requests

What each request does once its secret and the fields that all of them carry have been checked. -/

namespace Gatehouse

/-! ## Accepting requests

Every request must present the server's secret and say which client it comes from. -/

/-- A request whose secret and common fields have been checked. -/
structure Accepted where
  identity : Identity
  relay : Relay
  deriving DecidableEq, Repr

namespace Site

/-- Check the secret, and then the fields that every request carries. -/
def check (s : Site) (p : Params) : Except Fault Accepted :=
  match p.checkSecret s.secret with
  | .error e => .error e
  | .ok () =>
      match p.identity with
      | .error e => .error e
      | .ok identity =>
          match p.relay with
          | .error e => .error e
          | .ok relay => .ok ⟨identity, relay⟩

/-- Check a request, or refuse it. -/
def accept (s : Site) (request : Endpoint) (p : Params) : Except Rejection Accepted :=
  (s.check p).mapError (.fault request)

/-- What the events of a request say about it. -/
def summary (s : Site) (a : Accepted) (region : String) : RequestSummary :=
  ⟨s.address, region, a.identity, a.relay⟩

/-- The region of a client's address. -/
def clientRegion (s : Site) (c : Call) : String := s.regions.lookup c.client

end Site

namespace FrontEnd

/-- Emit an event. -/
def emit (fe : FrontEnd) (e : Event) : FrontEnd := { fe with desk := fe.desk.emit e }

end FrontEnd

/-! ## Handshakes

The answer lists home pages, a newer version if there is one, the peer servers, and a fresh
tunnel key. The key is rotated only once the rest of the answer is known. -/

namespace Site

/-- The lines of the answer before the key. -/
def greeting (s : Site) (peers : List Peer) (a : Accepted) (region : String) : List String :=
  (s.catalog.homePages a.identity.sponsor region).map ("Homepage: " ++ ·) ++
    (match s.catalog.upgrade? a.identity.channel a.identity.version with
      | some v => ["Upgrade: " ++ Decimal.text v.toNat]
      | none => []) ++
    peers.map (fun p => "Server: " ++ p.encoded)

/-- The events of a handshake: its own, and one for each peer. -/
def handshakeEvents (summary : RequestSummary) (sequence : UInt64) (found : List Discovery) :
    List Event :=
  .handshake summary sequence :: found.map (fun d => .discovery summary d.address d.isNew)

/-- The answer that hands out a key. -/
def handshakeReply (lines : List String) (key : String) : Response :=
  { status := 200
    contentType := some "text/plain"
    body := Utf8.encode (String.intercalate "\n" (lines ++ ["PSK: " ++ key])) }

/-- Carry out a handshake of an accepted client that knows some servers. -/
def greet (s : Site) (c : Call) (a : Accepted) (known : List Address.V4) (fe : FrontEnd) :
    Except Rejection Response × FrontEnd :=
  let region := s.clientRegion c
  match fe.rotator.rotate fe.outlet fe.files c.draw.key with
  | (.error e, rotator, outlet, files) =>
      (.error (.key e), { fe with rotator := rotator, outlet := outlet, files := files })
  | (.ok k, rotator, outlet, files) =>
      let found := fe.peers.discover known
      (.ok (handshakeReply (s.greeting fe.peers.servers a region) k.key),
        { rotator := rotator
          outlet := outlet
          files := files
          peers := fe.peers.record found
          desk := fe.desk.emitAll (handshakeEvents (s.summary a region) k.sequence found) })

/-- Answer a handshake. -/
def handshake (s : Site) (c : Call) (fe : FrontEnd) : Except Rejection Response × FrontEnd :=
  match s.accept .handshake c.params with
  | .error e => (.error e, fe)
  | .ok a =>
      match c.params.knownServers with
      | .error e => (.error (.fault .handshake e), fe)
      | .ok known => s.greet c a known fe

end Site

/-! ## Connect reports

The tunnel came up. A client that names its session gets a fragment; one that only knows its
tunnel address is counted and nothing more. -/

namespace RequestSummary

/-- The fields of a fragment that a connect opens. -/
def fields (r : RequestSummary) : Dict String :=
  Dict.ofList
    [("server", r.server),
      ("region", r.region),
      ("propagation_channel_id", r.identity.channel),
      ("sponsor_id", r.identity.sponsor),
      ("client_version", Decimal.text r.identity.version.toNat),
      ("relay_protocol", r.relay.text)]

end RequestSummary

namespace Desk

/-- The desk after a session's region was forgotten, or unchanged if the store failed; the entry
then goes stale on its own. -/
def tryForgetRegion (id : SessionId) (d : Desk) : Desk :=
  match d.forgetRegion id with
  | .ok d' => d'
  | .error _ => d

end Desk

namespace Site

/-- Open a fragment for an accepted client's session. The region noted at login is preferred to
that of the address inside the tunnel. -/
def openSession (s : Site) (c : Call) (a : Accepted) (id : SessionId) (fe : FrontEnd) :
    Except Rejection Response × FrontEnd :=
  match fe.desk.region? id c.now with
  | .error e => (.error (.store .connected e), fe)
  | .ok noted =>
      let summary := s.summary a (noted.getD (s.clientRegion c))
      match fe.desk.connect s.windows id c.draw.tag summary.fields c.now with
      | .error e => (.error (.tracker .connected e), fe)
      | .ok (_, desk) =>
          (.ok .ok,
            { fe with desk := (desk.tryForgetRegion id).emit (.connected summary id.text) })

/-- Answer a connect report. -/
def connected (s : Site) (c : Call) (fe : FrontEnd) : Except Rejection Response × FrontEnd :=
  match s.accept .connected c.params with
  | .error e => (.error e, fe)
  | .ok a =>
      match c.params.sessionRef with
      | .error e => (.error (.fault .connected e), fe)
      | .ok (.session id) => s.openSession c a id fe
      | .ok (.address x) =>
          (.ok .ok, fe.emit (.connected (s.summary a (s.clientRegion c)) x.text))

/-! ## Status reports

A client that is still connected keeps its session open; one that is not ends it. The counters
ride in the body, which may be empty. A body that cannot be read is accepted, so that the client
stops sending it, but nothing is recorded. -/

/-- The counters in a body. -/
def usage? (body : Bytes) : Option Usage := if body.isEmpty then some {} else Usage.decode? body

/-- Fold the counters of an accepted client into its session. -/
def reportUsage (s : Site) (c : Call) (a : Accepted) (id : SessionId) (up : Bool)
    (seq : Option UInt64) (usage : Usage) (fe : FrontEnd) : Except Rejection Response × FrontEnd :=
  let window := if up then s.windows.fragment else s.windows.disconnect
  match fe.desk.report id c.draw.tag ⟨c.now, usage.bytes, seq, window⟩ with
  | .error e => (.error (.tracker .status e), fe)
  | .ok (_, desk) =>
      (.ok .ok,
        { fe with desk := desk.emit (.status (s.summary a (s.clientRegion c)) id.text up usage) })

/-- The fields of a status report beyond those of every request. -/
def statusFields (p : Params) : Except Fault (SessionId × Bool × Option UInt64) :=
  match p.sessionId with
  | .error e => .error e
  | .ok id =>
      match p.connectedFlag with
      | .error e => .error e
      | .ok up =>
          match p.seq with
          | .error e => .error e
          | .ok seq => .ok (id, up, seq)

/-- Answer a status report. -/
def status (s : Site) (c : Call) (fe : FrontEnd) : Except Rejection Response × FrontEnd :=
  match s.accept .status c.params with
  | .error e => (.error e, fe)
  | .ok a =>
      match statusFields c.params with
      | .error e => (.error (.fault .status e), fe)
      | .ok (id, up, seq) =>
          match c.body with
          | none => (.error .body, fe)
          | some body =>
              match usage? body with
              | none => (.ok .ok, fe)
              | some usage => s.reportUsage c a id up seq usage fe

/-! ## Failure reports

The client gave up on this server and says with which code. -/

/-- Answer a failure report. -/
def failed (s : Site) (c : Call) (fe : FrontEnd) : Except Rejection Response × FrontEnd :=
  match s.accept .failed c.params with
  | .error e => (.error e, fe)
  | .ok a =>
      match c.params.errorCode with
      | .error e => (.error (.fault .failed e), fe)
      | .ok code => (.ok .ok, fe.emit (.failed (s.summary a (s.clientRegion c)) code))

/-! ## Downloads

The client build for a channel and a sponsor. Both are hexadecimal when the name is made of
them, so it cannot lead out of the directory. -/

/-- The name of a client build. -/
def buildName (i : Identity) : String := "client-" ++ i.channel ++ "-" ++ i.sponsor ++ ".bin"

/-- The place of a client build. -/
def buildPath (s : Site) (i : Identity) : String := Path.join s.downloads (buildName i)

/-- Answer a download. -/
def download (s : Site) (c : Call) (fe : FrontEnd) : Except Rejection Response × FrontEnd :=
  match s.accept .download c.params with
  | .error e => (.error e, fe)
  | .ok a =>
      match fe.files.read? (s.buildPath a.identity) with
      | none => (.error .notFound, fe)
      | some content =>
          (.ok { status := 200, contentType := some "application/octet-stream", body := content },
            fe)

end Site

end Gatehouse
