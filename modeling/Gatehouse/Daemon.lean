import Gatehouse.Address.Listen
import Gatehouse.Event
import Gatehouse.Files.Database
import Gatehouse.Fleet.Basic

/-! # The daemon

A front end on its own, whose store and statistics lie in files. It opens the files, wakes up for
what it finds in the store, starts its rhythms, and only then listens for clients. -/

namespace Gatehouse

namespace Settings

/-- Open the store that settings name. -/
def openStore (s : Settings) (files : Files) : Except Unavailable (Store × Files) :=
  match s.sessions.store with
  | .memory => .ok (Store.memory, files)
  | .database => Store.openAt files s.sessions.databasePath

/-- The way on which keys go to the transport. -/
def keyRoute (s : Settings) : KeyRoute :=
  match s.keys.secretsPath with
  | some path => .file path
  | none => .log

end Settings

/-- Why a daemon does not start. -/
inductive StartFailure
  | noSecret
  | store (e : Unavailable)
  | statistics (path : String)
  | scan (e : Unavailable)
  | noRhythm
  | listen (address : String) (f : Address.ListenFault)
  deriving DecidableEq, Repr

namespace StartFailure

/-- The failure in words, and then what caused it. -/
def causes : StartFailure → List String
  | .noSecret => ["server.web_server_secret is not set"]
  | .store e => ["failed to open fragment store", e.message]
  | .statistics path => ["failed to open stats file " ++ path]
  | .scan e => ["failed to scan fragment store", e.message]
  | .noRhythm => ["no time passes between two purges"]
  | .listen address f => ["failed to bind " ++ address, f.message]

/-- The exit code of a program that fails to start for this. -/
def code : StartFailure → Nat
  | .noRhythm => 101
  | _ => 1

end StartFailure

/-- A fleet of one front end, with the files that hold its store and statistics. `purgeSeconds` is
the time between two purges of stale regions, and `age` the seconds since the start. -/
structure Daemon where
  fleet : Fleet
  databasePath : String
  statsPath : Option String
  purgeSeconds : Nat
  age : Nat := 0

namespace Daemon

/-- The files of a daemon. -/
def files (d : Daemon) : Files := d.fleet.files

/-- Append the lines of some events to the file at a path. -/
def appendLines (path : String) (events : List Event) (files : Files) : Files :=
  let before : Received := { file := (files.read? path).getD [] }
  if events.isEmpty then files
  else (files.write? path (before.emitAll [.lines] events).file).getD files

/-- Write the store and the events back to their files. -/
def settle (d : Daemon) : Daemon :=
  let saved := d.fleet.store.save d.fleet.files d.databasePath
  let written := match d.statsPath with
    | some path => appendLines path d.fleet.events saved
    | none => saved
  { d with fleet := { d.fleet with files := written, events := [] } }

/-- Remove stale regions. -/
def purge (d : Daemon) : Daemon :=
  { d with fleet := (d.fleet.tryDesk 0 0 (Desk.purgeRegions d.fleet.clock)).2 }

/-- Start the rhythms: sweeps every `interval` milliseconds, and purges. -/
def startRhythms (interval : Nat) (d : Daemon) : Daemon :=
  ({ d with fleet := d.fleet.start 0 interval } : Daemon).purge.settle

/-- Open the files that settings name, as far as that goes, and give the store. -/
def openFiles (s : Settings) (files : Files) : Except StartFailure Store × Files :=
  if s.server.secret.isEmpty then (.error .noSecret, files)
  else
    match s.openStore files with
    | .error e => (.error (.store e), files)
    | .ok (store, opened) =>
        match s.statsPath with
        | none => (.ok store, opened)
        | some path =>
            match (opened.makeParents? path).bind (fun f => f.touch? path) with
            | none => (.error (.statistics path), opened)
            | some f => (.ok store, f)

/-- Listen for clients, if that is possible. -/
def listen (address : String) (d : Daemon) : Except StartFailure Daemon :=
  match Address.listenFault? address with
  | some f => .error (.listen address f)
  | none => .ok d

/-- Start a daemon with the key drawn for it. Where that fails, what was done before stays. -/
def start (s : Settings) (files : Files) (clock : UInt64) (key : String) :
    Except StartFailure Daemon × Files :=
  match openFiles s files with
  | (.error f, opened) => (.error f, opened)
  | (.ok store, opened) =>
      let fleet := Fleet.ofSettings s store { route := s.keyRoute } opened clock [key]
      match fleet.tryDesk 0 0 (Desk.recover clock) with
      | (.error e, _) => (.error (.scan e), opened)
      | (.ok _, recovered) =>
          if s.sessions.regionWindow = 0 then (.error .noRhythm, opened)
          else
            let d : Daemon := {
              fleet := recovered
              databasePath := s.sessions.databasePath
              statsPath := s.statsPath
              purgeSeconds := s.sessions.regionWindow.toNat }
            let running := d.startRhythms s.sessions.sweepMillis.toNat
            (running.listen s.server.listen, running.files)

/-- Whether a daemon goes on until it is stopped. It ends by itself, without failure and before it
hears a client, where no time passes between sweeps. -/
def lasts (d : Daemon) : Bool := d.fleet.members.all (·.rhythm.sweeps)

/-- Answer a request. -/
def answer (r : Request) (d : Daemon) : Response × Daemon :=
  let (a, fleet) := d.fleet.act 0 .notFound (d.fleet.site.route r)
  (a, ({ d with fleet := fleet } : Daemon).settle)

/-- Set the clock. Timers do not follow it. -/
def setClock (t : UInt64) (d : Daemon) : Daemon := { d with fleet := { d.fleet with clock := t } }

/-- Let seconds pass on the timers while the clock stands still, and do what has come due. -/
def pass (seconds : Nat) (d : Daemon) : Daemon :=
  let moved := (d.fleet.onTimer 0 (Timer.advance · (seconds * 1000))).summon.work
  let aged : Daemon := { d with fleet := moved, age := d.age + seconds }
  if d.age / d.purgeSeconds < aged.age / d.purgeSeconds then aged.purge.settle else aged.settle

/-- Let the clock and the timers go to a time. -/
def advance (t : UInt64) (d : Daemon) : Daemon :=
  (d.setClock t).pass (t.toNat - d.fleet.clock.toNat)

/-- Take notice of what others have done to the files, and to a store that lies in them. -/
def refresh (files : Files) (d : Daemon) : Daemon :=
  let store := match d.fleet.store.table, files.databaseRows? d.databasePath with
    | .database _, some rows => { d.fleet.store with table := .database rows }
    | _, _ => d.fleet.store
  { d with fleet := { d.fleet with files := files, store := store } }

end Daemon

end Gatehouse
