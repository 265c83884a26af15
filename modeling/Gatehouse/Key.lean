import Gatehouse.Files.Basic
import Gatehouse.Text.Numeral

/-! # Tunnel keys

A new tunnel key is delivered to the transport before it becomes the one that clients are given. -/

namespace Gatehouse

/-! ## Where new keys go

A new tunnel key reaches the transport before any client sees it. It is recorded, logged, or
written to the transport's secrets file, which is replaced as a whole. -/

/-- A published key. Sequence zero is the key at start, which no client is given. -/
structure KeyState where
  sequence : UInt64
  server : String
  key : String
  deriving DecidableEq, Repr

namespace KeyState

/-- The line of the secrets file for a key. -/
def line (k : KeyState) : String := k.server ++ " %any : PSK \"" ++ k.key ++ "\"\n"

end KeyState

/-- Why a key could not be delivered. -/
inductive KeyFailure
  | rejected (reason : String)
  | write (path : String)
  deriving DecidableEq, Repr

namespace KeyFailure

/-- The failure of a delivery that was refused, in words. -/
def message : KeyFailure → String
  | .rejected reason => "psk sink rejected key: " ++ reason
  | .write path => "failed to write secrets file " ++ path

end KeyFailure

/-- The way to the transport. -/
inductive KeyRoute
  | record
  | log
  | file (path : String)
  deriving DecidableEq, Repr

/-- The way to the transport, the keys that were recorded on it, and the reason for which a
recording transport refuses keys at present. -/
structure KeyOutlet where
  route : KeyRoute
  recorded : List KeyState := []
  refusal : Option String := none
  deriving DecidableEq, Repr

namespace KeyOutlet

/-- The place of the file that is written first and then takes the place of another. -/
def temporary (path : String) : String := Path.withExtension path "tmp"

/-- Replace a file as a whole. The second file is left behind where it cannot take the place. -/
def replace (files : Files) (path : String) (content : Bytes) : Bool × Files :=
  match files.write? (temporary path) content with
  | none => (false, files)
  | some written =>
      match written.rename? (temporary path) path with
      | none => (false, written)
      | some moved => (true, moved)

/-- Deliver a key. -/
def push (o : KeyOutlet) (files : Files) (k : KeyState) :
    Except KeyFailure Unit × KeyOutlet × Files :=
  match o.route with
  | .log => (.ok (), o, files)
  | .record =>
      match o.refusal with
      | some reason => (.error (.rejected reason), o, files)
      | none => (.ok (), { o with recorded := o.recorded ++ [k] }, files)
  | .file path =>
      match replace files path (Utf8.encode k.line) with
      | (true, files') => (.ok (), o, files')
      | (false, files') => (.error (.write path), o, files')

end KeyOutlet

/-! ## Key rotation

Each rotation draws a key, delivers it and only then makes it the current one. A key that could
not be delivered is dropped, and the one before it stays. -/

/-- The key that clients are given at present. -/
structure Rotator where
  current : KeyState
  deriving DecidableEq, Repr

namespace Rotator

/-- The rotator of a server at start, with a key drawn for it. -/
def start (server key : String) : Rotator := ⟨⟨0, server, key⟩⟩

/-- The key that follows the current one. -/
def next (r : Rotator) (key : String) : KeyState := ⟨r.current.sequence + 1, r.current.server, key⟩

/-- Deliver a drawn key and make it the current one. -/
def rotate (r : Rotator) (o : KeyOutlet) (files : Files) (key : String) :
    Except KeyFailure KeyState × Rotator × KeyOutlet × Files :=
  match o.push files (r.next key) with
  | (.error e, o', files') => (.error e, r, o', files')
  | (.ok (), o', files') => (.ok (r.next key), ⟨r.next key⟩, o', files')

end Rotator

end Gatehouse
