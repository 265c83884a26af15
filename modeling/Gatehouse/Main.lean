import Gatehouse.Command
import Gatehouse.Service.Router
import Gatehouse.Store.Table
import Std.Time.DateTime.Timestamp

/-! # The program

Before a run the files that it may need are taken up, and afterwards those that it changed are
written. A daemon gets its requests from the standard input, one a line, and ends with it. -/

namespace Gatehouse

namespace Main

/-- The time in seconds. -/
def clock : IO UInt64 := do
  let now ← Std.Time.Timestamp.now
  return UInt64.ofNat now.toSecondsSinceUnixEpoch.val.toNat

/-- Random bytes as hexadecimal digits. -/
def draw (length : Nat) : IO String := do
  return Hex.encode (← IO.getRandomBytes (USize.ofNat length)).toList

/-- What lies at a place. -/
def look (path : String) : IO (Option Node) := do
  try
    return some (.file (← IO.FS.readBinFile path).toList)
  catch e =>
    match e with
    | .noFileOrDirectory .. => return none
    | _ => return some .directory

/-- The places through which a path leads, from the outermost to its own. -/
def through (path : String) : List String :=
  let parts := Path.parts path
  (List.range parts.length).map fun n =>
    Path.ofParts (Path.isAbsolute path) (Files.descend [] (parts.take (n + 1)))

/-- Take up what lies at a path and the directories above it. -/
def takeUp (files : Files) (path : String) : IO Files := do
  let mut nodes := files.nodes
  for place in through path do
    match ← look place with
    | some node => nodes := nodes.insert place node
    | none => nodes := nodes.erase place
  return ⟨nodes⟩

/-- Take up a database. A file that holds no rows stays a plain file. -/
def takeUpDatabase (files : Files) (name : String) : IO Files := do
  match Locator.parse? name with
  | some (.path path _) =>
      let found ← takeUp files (Files.place path)
      match (found.read? (Files.place path)).bind Rows.ofDump? with
      | some rows => return found.saveDatabase name rows
      | none => return found
  | _ => return files

/-- Take up the files that some settings name. -/
def takeUpAll (s : Settings) (files : Files) : IO Files := do
  let mut found := files
  for path in s.statsPath.toList ++ s.keys.secretsPath.toList do
    found ← takeUp found path
  match s.sessions.store with
  | .memory => return found
  | .database => takeUpDatabase found s.sessions.databasePath

/-- Write what has changed. -/
def writeBack (before after : Files) : IO Unit := do
  for (place, node) in after.nodes.toList do
    if before.nodes.get? place != some node then
      match node with
      | .directory => IO.FS.createDirAll place
      | .file content => IO.FS.writeBinFile place ⟨content.toArray⟩
      | .database rows => IO.FS.writeBinFile place ⟨rows.dump.toArray⟩

/-- The variables that are set. -/
def environment : IO Environment := do
  let mut e : Environment := Dict.empty
  for name in Environment.names ++ Invocation.names do
    if let some value ← IO.getEnv name then
      e := e.insert name value
  return e

/-- Read the whole input. -/
partial def readAll (input : IO.FS.Stream) : IO Bytes := do
  let chunk ← input.read 65536
  if chunk.isEmpty then return []
  return chunk.toList ++ (← readAll input)

/-- The client build that a request may ask for is taken up with it. -/
def takeUpBuild (d : Daemon) (files : Files) (r : Request) : IO Files :=
  match Params.identity ⟨Form.pairs r.query⟩ with
  | .ok i => takeUp files (d.fleet.site.buildPath i)
  | .error _ => return files

/-- Answer requests until there are no more. -/
partial def serve (s : Settings) (input output : IO.FS.Stream) (d : Daemon) : IO Unit := do
  let text ← input.getLine
  if text.isEmpty then return
  let now ← clock
  let drawn : Draw := ⟨← draw 8, ← draw s.keys.length⟩
  match Gateway.request? text now drawn with
  | none =>
      output.putStr (Gateway.line { status := 400 })
      output.flush
      serve s input output d
  | some r =>
      let files ← takeUpBuild d (← takeUpAll s d.files) r
      let (a, d') := ((d.refresh files).advance now).answer r
      writeBack files d'.files
      output.putStr (Gateway.line a)
      output.flush
      serve s input output d'

/-- Carry out a run with some arguments, giving its exit code. -/
def run (arguments : List String) : IO UInt32 := do
  let e ← environment
  let files ← takeUp {} e.settingsPath
  let s := (Settings.obtain e files).1
  let found ← takeUpAll s files
  let input ← match Mode.ofArguments arguments with
    | .ok .login => readAll (← IO.getStdin)
    | _ => pure []
  let (outcome, left) := Invocation.run ⟨arguments, e, input, found, ← clock, ← draw s.keys.length⟩
  writeBack found left
  match outcome with
  | .ended code report =>
      (← IO.getStderr).putStr report
      return UInt32.ofNat code
  | .serving d =>
      serve s (← IO.getStdin) (← IO.getStdout) d
      return 0

end Main

end Gatehouse

/-- The program. -/
def main (arguments : List String) : IO UInt32 := Gatehouse.Main.run arguments
