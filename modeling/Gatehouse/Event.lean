import Gatehouse.Address.Basic
import Gatehouse.Request.Typed
import Gatehouse.Session.Codec

/-! # Stats events

Every accepted request and every finished session produces one event, and a handshake one more
for each peer it hands out. An event is written as one line of JSON. -/

namespace Gatehouse

/-- What every event of a request says about it. -/
structure RequestSummary where
  server : String
  region : String
  identity : Identity
  relay : Relay
  deriving DecidableEq, Repr

/-- A stats event. -/
inductive Event
  | handshake (request : RequestSummary) (sequence : UInt64)
  | connected (request : RequestSummary) (session : String)
  | failed (request : RequestSummary) (code : UInt32)
  | status (request : RequestSummary) (session : String) (connected : Bool) (usage : Usage)
  | discovery (request : RequestSummary) (server : Address.V4) (isNew : Bool)
  | session (record : SessionRecord)
  deriving DecidableEq

namespace RequestSummary

/-- The members of a summary, in order. -/
def members (r : RequestSummary) : List (String × Json) :=
  [("server", Json.text r.server),
    ("region", Json.text r.region),
    ("propagation_channel_id", Json.text r.identity.channel),
    ("sponsor_id", Json.text r.identity.sponsor),
    ("client_version", Json.number r.identity.version.toUInt64),
    ("relay_protocol", Json.text r.relay.text)]

end RequestSummary

namespace Event

/-- The name of an event's kind. -/
def kind : Event → String
  | .handshake .. => "handshake"
  | .connected .. => "connected"
  | .failed .. => "failed"
  | .status .. => "status"
  | .discovery .. => "discovery"
  | .session .. => "session"

/-- The members of an event after its kind, in order. -/
def members : Event → List (String × Json)
  | .handshake r sequence => r.members ++ [("psk_sequence", Json.number sequence)]
  | .connected r name => r.members ++ [("session", Json.text name)]
  | .failed r code => r.members ++ [("error_code", Json.number code.toUInt64)]
  | .status r name up usage =>
      r.members ++
        [("session", Json.text name),
          ("connected", Json.bool up),
          ("bytes_transferred", Json.number usage.bytes),
          ("page_views", Json.number usage.pageViews),
          ("https_requests", Json.number usage.httpsRequests)]
  | .discovery r server isNew =>
      r.members ++ [("discovered_server", Json.text server.text), ("new", Json.bool isNew)]
  | .session record => record.members

/-- An event as JSON. -/
def toJson (e : Event) : Json := Json.record (("event", Json.text e.kind) :: e.members)

/-- The line that an event adds to a file. -/
def line (e : Event) : String := e.toJson.render ++ "\n"

/-- The record of a session event. -/
def record? : Event → Option SessionRecord
  | .session r => some r
  | _ => none

/-- The peer of a discovery event, and whether it was new. -/
def discovery? : Event → Option (Address.V4 × Bool)
  | .discovery _ server isNew => some (server, isNew)
  | _ => none

end Event

/-! ## Where events go

An event is sent to every sink of a list in turn: kept in memory, logged, or appended to a file
as one line. A sink never fails a request. -/

/-- A place that events are sent to. -/
inductive EventSink
  | memory (name : String)
  | log
  | lines
  deriving DecidableEq, Repr

/-- What the sinks have received: the events of each memory, and the bytes of the file. -/
structure Received where
  memories : Dict (List Event) := Dict.empty
  file : Bytes := []
  deriving DecidableEq

namespace Received

/-- The events in a memory, in the order in which they came. -/
def events (r : Received) (name : String) : List Event := (r.memories.get? name).getD []

/-- Send an event to one sink. -/
def send (e : Event) (r : Received) : EventSink → Received
  | .memory name => { r with memories := r.memories.alter name (fun es => es.getD [] ++ [e]) }
  | .log => r
  | .lines => { r with file := r.file ++ Utf8.encode e.line }

/-- Send an event to every sink. -/
def emit (sinks : List EventSink) (r : Received) (e : Event) : Received := sinks.foldl (send e) r

/-- Send events one after the other. -/
def emitAll (sinks : List EventSink) (r : Received) (es : List Event) : Received :=
  es.foldl (emit sinks) r

end Received

end Gatehouse
