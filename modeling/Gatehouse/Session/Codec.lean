import Gatehouse.Json.Basic
import Gatehouse.Json.Printer
import Gatehouse.Json.Reader
import Gatehouse.Session.Fragment

/-! # Stored fragments and usage reports

The form in which a fragment is kept in the store, the members that a session's record adds to a
stats event, and the counters that a client reports. -/

namespace Gatehouse

/-! ## Fragments -/

namespace Fragment

/-- The fields of a stored fragment, in order. -/
def fieldNames : List String :=
  ["session_id", "fragment_id", "start_time", "end_time", "bytes_transferred", "partial",
    "last_seq", "fields", "expires_at"]

/-- A fragment as JSON. -/
def toJson (f : Fragment) : Json :=
  Json.record [
    ("session_id", Json.text f.session),
    ("fragment_id", Json.text f.tag),
    ("start_time", Json.number f.start),
    ("end_time", Json.number f.last),
    ("bytes_transferred", Json.number f.bytes),
    ("partial", Json.bool f.isPartial),
    ("last_seq", match f.lastSeq with
      | some n => Json.number n
      | none => Json.null),
    ("fields", Json.ofTexts f.fields),
    ("expires_at", Json.number f.due)]

/-- Read a fragment. The last four fields may be left out. -/
def ofJson? (j : Json) : Option Fragment :=
  match Json.fields? fieldNames j with
  | some [session, tag, start, last, bytes, isPartial, lastSeq, fields, due] => do
      return {
        session := ← Json.required Json.text? session
        tag := ← Json.required Json.text? tag
        start := ← Json.required Json.number? start
        last := ← Json.required Json.number? last
        bytes := ← Json.required Json.number? bytes
        isPartial := ← Json.defaulted false Json.bool? isPartial
        lastSeq := ← Json.defaulted none Json.optionalNumber? lastSeq
        fields := ← Json.defaulted Dict.empty Json.texts? fields
        due := ← Json.defaulted 0 Json.number? due }
  | _ => none

/-- The stored form of a fragment. -/
def encode (f : Fragment) : Bytes := f.toJson.bytes

/-- Read a stored fragment. -/
def decode? (bytes : Bytes) : Option Fragment := (Json.parse? bytes).bind ofJson?

end Fragment

namespace SessionRecord

/-- The members of a record, in order. -/
def members (r : SessionRecord) : List (String × Json) :=
  [("session_id", Json.text r.session),
    ("fragment_id", Json.text r.tag),
    ("start_time", Json.number r.start),
    ("end_time", Json.number r.last),
    ("duration_secs", Json.number r.duration),
    ("bytes_transferred", Json.number r.bytes),
    ("partial", Json.bool r.isPartial),
    ("fields", Json.ofTexts r.fields)]

end SessionRecord

/-! ## Usage reports

Every counter may be left out. -/

/-- The counters of a usage report. -/
structure Usage where
  bytes : UInt64 := 0
  pageViews : UInt64 := 0
  httpsRequests : UInt64 := 0
  deriving DecidableEq, Repr

namespace Usage

/-- Read a usage report. -/
def ofJson? (j : Json) : Option Usage :=
  match Json.fields? ["bytes_transferred", "page_views", "https_requests"] j with
  | some [bytes, pageViews, httpsRequests] => do
      return {
        bytes := ← Json.defaulted 0 Json.number? bytes
        pageViews := ← Json.defaulted 0 Json.number? pageViews
        httpsRequests := ← Json.defaulted 0 Json.number? httpsRequests }
  | _ => none

/-- Read the body of a status request. -/
def decode? (bytes : Bytes) : Option Usage := (Json.parse? bytes).bind ofJson?

end Usage

end Gatehouse
