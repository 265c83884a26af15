import Gatehouse.Service.Answers
import Gatehouse.Service.Target
import Gatehouse.Text.Form

/-! # Routing

Each request has a path of its own, which is matched as it was written. All of them are made
with `GET`; `HEAD` is answered like `GET` but without the body, and status reports may also be
made with `POST`. -/

namespace Gatehouse

/-- A request as it arrives. -/
structure Request where
  method : String
  path : String
  query : String
  body : Bytes
  client : Address
  now : UInt64
  draw : Draw
  deriving DecidableEq

namespace Endpoint

/-- The path of a request. -/
def path (e : Endpoint) : String := "/" ++ e.name

/-- The request with a path. -/
def ofPath? (path : String) : Option Endpoint := all.find? (fun e => e.path == path)

/-- Whether a request may be made with a method. -/
def allows (e : Endpoint) (method : String) : Bool :=
  method == "GET" || method == "HEAD" || (e == .status && method == "POST")

/-- The methods of a request, as they are listed to a client. -/
def methods (e : Endpoint) : String := if e == .status then "GET,HEAD,POST" else "GET,HEAD"

end Endpoint

namespace Site

/-- Answer a request, or refuse it with a reason. -/
def handle (s : Site) (e : Endpoint) (c : Call) (fe : FrontEnd) :
    Except Rejection Response × FrontEnd :=
  match e with
  | .handshake => s.handshake c fe
  | .connected => s.connected c fe
  | .failed => s.failed c fe
  | .status => s.status c fe
  | .download => s.download c fe

/-- The answer that a client gets. No refusal says why. -/
def reply : Except Rejection Response → Response
  | .ok r => r
  | .error _ => .notFound

/-- The call that a request makes. A body that is too long is not read. -/
def call (s : Site) (r : Request) : Call where
  params := ⟨Form.pairs r.query⟩
  client := r.client
  body := if r.body.length ≤ s.maxBody then some r.body else none
  now := r.now
  draw := r.draw

/-- Answer a request from a client. -/
def route (s : Site) (r : Request) (fe : FrontEnd) : Response × FrontEnd :=
  match Endpoint.ofPath? r.path with
  | none => (.notFound, fe)
  | some e =>
      if e.allows r.method then
        let (result, fe') := s.handle e (s.call r) fe
        let response := reply result
        (if r.method == "HEAD" then { response with body := [] } else response, fe')
      else ({ status := 405, allow := some e.methods }, fe)

/-- Whether the answer to a request has to wait for a file. -/
def awaitsFile (s : Site) (e : Endpoint) (c : Call) : Bool :=
  e == .download && (s.accept .download c.params).toOption.isSome

/-- Whether the answer to a request that arrives has to wait for a file. -/
def awaits (s : Site) (r : Request) : Bool :=
  match Endpoint.ofPath? r.path with
  | some e => e.allows r.method && s.awaitsFile e (s.call r)
  | none => false

end Site

/-! ## Requests on lines

A listener in front of the daemon hands over each request on one line: its method, its target,
the client's socket address, and the body in hexadecimal digits, with spaces between them. The
answer is a line with the status, the content type or a dash, and the body. -/

namespace Gateway

/-- Split a line at its spaces. The end of the line is no part of it. -/
def words (line : String) : List String :=
  let inner := line.toList.filter (fun c => c != '\n' && c != '\r')
  let (last, before) := inner.foldr
    (fun c (acc : List Char × List (List Char)) =>
      if c = ' ' then ([], acc.1 :: acc.2) else (c :: acc.1, acc.2))
    ([], [])
  (last :: before).map String.ofList

/-- The request on a line, at a time and with the random values drawn for it. -/
def request? (line : String) (now : UInt64) (draw : Draw) : Option Request :=
  match words line with
  | method :: target :: client :: rest => do
      let socket ← Address.Socket.parse? client
      let body ← Hex.decode? (rest.headD "")
      let t ← Target.parse? target
      if isMethod method then return ⟨method, t.path, t.query, body, socket.address, now, draw⟩
      else none
  | _ => none

/-- The line of an answer. -/
def line (r : Response) : String :=
  Decimal.text r.status ++ " " ++ r.contentType.getD "-" ++ " " ++ Hex.encode r.body ++ "\n"

end Gateway

end Gatehouse
