import Gatehouse.Blake3
import Gatehouse.Desk
import Gatehouse.Settings.Basic

/-! # Tunnel logins

A client logs into the tunnel with its session id in front of its password. The id is cut off,
the password is compared with the user's digest, and the region of the client's address is noted
under the id. A token of any other length is a password alone. -/

namespace Gatehouse

/-- The digests of the users that can log in. -/
structure Verifier where
  digests : Dict Bytes
  deriving DecidableEq

namespace Verifier

/-- The digest that a hexadecimal text writes, if it has thirty-two bytes. -/
def digest? (s : String) : Option Bytes :=
  match Hex.decode? s with
  | some bytes => if bytes.length = 32 then some bytes else none
  | none => none

/-- The verifier of configured users. A user whose digest is malformed can never log in. -/
def ofUsers (users : Dict String) : Verifier :=
  ⟨Dict.ofList (users.toList.filterMap fun e => (digest? e.2).map (e.1, ·))⟩

/-- Whether a password is the user's. -/
def verify (v : Verifier) (user password : String) : Bool :=
  match v.digests.get? user with
  | some expected => Blake3.hash (Utf8.encode password) == expected
  | none => false

end Verifier

/-- What checks a tunnel login. Lengths count bytes of the token. -/
structure Gate where
  userStem : String
  verifier : Verifier
  regions : RegionTable
  sessionLength : Nat
  passwordLength : Nat
  window : UInt64
  deriving DecidableEq

/-- Why a login was refused. -/
inductive LoginFailure
  | notTunnelUser (user : String)
  | badSessionId
  | rejected
  | store (e : Unavailable)
  deriving DecidableEq, Repr

namespace LoginFailure

/-- The failure in words. -/
def message : LoginFailure → String
  | .notTunnelUser user => "user " ++ user ++ " is not a tunnel account"
  | .badSessionId => "malformed session id in authtok"
  | .rejected => "credentials rejected"
  | .store e => e.message

end LoginFailure

/-- The answer to a login. It is broken off where the cut behind the session id would fall inside
a character. -/
inductive LoginAnswer
  | session (id : SessionId) (region : String)
  | legacy
  | refused (f : LoginFailure)
  | brokenOff

namespace Gate

/-- The gate of some settings. -/
def ofSettings (s : Settings) : Gate where
  userStem := s.login.userStem
  verifier := Verifier.ofUsers s.login.users
  regions := RegionTable.ofRules s.regions
  sessionLength := s.login.sessionBytes * 2
  passwordLength := s.login.passwordBytes * 2
  window := s.sessions.regionWindow

/-- Whether a character may be left at the end of a token by whoever hands it over. -/
def isTrailing (c : Char) : Bool := c = '\x00' || c = '\n' || c = '\r'

/-- A token without what was left at its end. -/
def trimmed (token : String) : List Char :=
  (token.toList.reverse.dropWhile isTrailing).reverse

/-- How many bytes some characters take. -/
def byteCount (cs : List Char) : Nat := (cs.flatMap String.utf8EncodeChar).length

/-- Cut some characters after `n` bytes, unless that is inside a character. -/
def cut? : (n : Nat) → List Char → Option (List Char × List Char)
  | 0, cs => some ([], cs)
  | _ + 1, [] => none
  | n + 1, c :: cs =>
      if (String.utf8EncodeChar c).length ≤ n + 1 then
        (cut? (n + 1 - (String.utf8EncodeChar c).length) cs).map fun r => (c :: r.1, r.2)
      else none
  termination_by _ cs => cs.length

/-- What a token consists of. -/
inductive Parts
  | bare (password : String)
  | named (id password : String)
  | torn

/-- Take a token apart. -/
def parts (g : Gate) (token : String) : Parts :=
  let cs := trimmed token
  if byteCount cs = g.sessionLength + g.passwordLength then
    match cut? g.sessionLength cs with
    | some (id, password) => .named (String.ofList id) (String.ofList password)
    | none => .torn
  else .bare (String.ofList cs)

/-- The region of a client whose address may not be known. -/
def regionOf (g : Gate) (remote : Option Address) : String :=
  match remote with
  | some x => g.regions.lookup x
  | none => RegionTable.unknown

/-- Check a login and note the region of a session that it names. -/
def authenticate (g : Gate) (user token : String) (remote : Option Address) (now : UInt64)
    (d : Desk) : LoginAnswer × Desk :=
  if !RegionTable.starts g.userStem user then (.refused (.notTunnelUser user), d)
  else
    match g.parts token with
    | .torn => (.brokenOff, d)
    | .bare password =>
        if g.verifier.verify user password then (.legacy, d) else (.refused .rejected, d)
    | .named idText password =>
        match SessionId.parse? idText with
        | none => (.refused .badSessionId, d)
        | some id =>
            if g.verifier.verify user password then
              match d.noteRegion g.window id (g.regionOf remote) now with
              | .error e => (.refused (.store e), d)
              | .ok d' => (.session id (g.regionOf remote), d')
            else (.refused .rejected, d)

end Gate

end Gatehouse
