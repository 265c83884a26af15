import Gatehouse.Files.Basic
import Gatehouse.Settings.Basic
import Gatehouse.Settings.OfToml
import Gatehouse.Settings.ToToml

/-! # Settings from the environment

Variables of the environment say where the settings file and the data lie, and override some of
the file's settings. -/

namespace Gatehouse

/-- The variables of the environment. -/
abbrev Environment := Dict String

namespace Environment

/-- The variables that are looked at. -/
def names : List String :=
  ["HOME", "XDG_DATA_HOME", "XDG_CONFIG_HOME", "WAYPOST_CONFIG", "WAYPOST_SERVER__LISTEN_ADDR",
    "WAYPOST_SERVER__IP_ADDRESS", "WAYPOST_SERVER__WEB_SERVER_SECRET", "WAYPOST_SESSIONS__STORE",
    "WAYPOST_SESSIONS__SQLITE_PATH", "WAYPOST_SESSIONS__FRAGMENT_TTL_SECS",
    "WAYPOST_STATS__RECORDS_PATH"]

/-- The directory of the user. -/
def home (e : Environment) : String := (e.get? "HOME").getD "/tmp"

/-- The directory for data. -/
def dataDirectory (e : Environment) : String :=
  Path.join
    (match e.get? "XDG_DATA_HOME" with
      | some d => d
      | none => Path.join (Path.join e.home ".local") "share")
    "waypost"

/-- The directory of the settings file. -/
def settingsDirectory (e : Environment) : String :=
  Path.join
    (match e.get? "XDG_CONFIG_HOME" with
      | some d => d
      | none => Path.join e.home ".config")
    "waypost"

/-- The place of the settings file. -/
def settingsPath (e : Environment) : String :=
  match e.get? "WAYPOST_CONFIG" with
  | some path => path
  | none => Path.join e.settingsDirectory "config.toml"

/-- The settings that apply without a file. -/
def defaults (e : Environment) : Settings := Settings.defaults e.dataDirectory

/-- The kind of store that a variable names. -/
def storeKind (s : String) (otherwise : Settings.StoreKind) : Settings.StoreKind :=
  if s = "memory" then .memory else if s = "sqlite" then .database else otherwise

/-- Settings with those that the environment overrides. A value that does not fit is passed over. -/
def override (e : Environment) (s : Settings) : Settings :=
  { s with
    server := {
      s.server with
      listen := (e.get? "WAYPOST_SERVER__LISTEN_ADDR").getD s.server.listen
      address := (e.get? "WAYPOST_SERVER__IP_ADDRESS").getD s.server.address
      secret := (e.get? "WAYPOST_SERVER__WEB_SERVER_SECRET").getD s.server.secret }
    sessions := {
      s.sessions with
      store :=
        match e.get? "WAYPOST_SESSIONS__STORE" with
        | some v => storeKind v s.sessions.store
        | none => s.sessions.store
      databasePath := (e.get? "WAYPOST_SESSIONS__SQLITE_PATH").getD s.sessions.databasePath
      fragmentWindow :=
        match (e.get? "WAYPOST_SESSIONS__FRAGMENT_TTL_SECS").bind
            (Decimal.signedBelow? Settings.wordBound) with
        | some n => UInt64.ofNat n
        | none => s.sessions.fragmentWindow }
    statsPath :=
      match e.get? "WAYPOST_STATS__RECORDS_PATH" with
      | some path => some path
      | none => s.statsPath }

end Environment

namespace Settings

/-- Why no settings could be had. -/
inductive Failure
  | unreadable (path : String)
  | unparsable (path : String)
  | unwritable (path : String)
  | flawed (f : Flaw)
  deriving DecidableEq, Repr

/-- The settings in the file, or the defaults if there is no file. -/
def ofFile (e : Environment) (files : Files) : Except Failure Settings :=
  let path := e.settingsPath
  if files.present path then
    match (files.read? path).bind Utf8.decode? with
    | none => .error (.unreadable path)
    | some text =>
        match e.defaults.parse? text with
        | none => .error (.unparsable path)
        | some s => .ok s
  else .ok e.defaults

/-- The settings that apply: those of the file, with those that the environment overrides, if they
can be used. -/
def load (e : Environment) (files : Files) : Except Failure Settings :=
  match ofFile e files with
  | .error f => .error f
  | .ok s =>
      match (e.override s).flaw? with
      | some f => .error (.flawed f)
      | none => .ok (e.override s)

/-- Write a settings file with the defaults, unless there is one. -/
def writeDefaults (e : Environment) (files : Files) : Except Failure Files :=
  let path := e.settingsPath
  if files.present path then .ok files
  else
    match (files.makeParents? path).bind
        (fun f => f.write? path (Utf8.encode e.defaults.render)) with
    | none => .error (.unwritable path)
    | some f => .ok f

end Settings

end Gatehouse
