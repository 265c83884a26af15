import Gatehouse.Files.Basic
import Gatehouse.Store.Basic
import Gatehouse.Text.Form

/-! # Database files

The file of a database is found through its locator. Opening it makes the directories above it and
an empty database where there is no file. -/

namespace Gatehouse

/-! ## Locators of databases

A database is named by its path, or by a locator: `file:`, a host that is left out or `localhost`
between slashes, the path, and parameters after a question mark. Two hexadecimal digits after a
percent sign stand for a byte, and what follows a byte of zero counts for nothing. -/

/-- What a database is named: one that no other process finds, or the one at a path, which is made
where there is none if it `creates`. -/
inductive Locator
  | hidden
  | path (path : String) (creates : Bool)
  deriving DecidableEq, Repr

namespace Locator

/-- Undo the escapes of a piece of a locator. -/
def unescape : Bytes → Bytes
  | 0x25 :: high :: low :: rest =>
      match Form.hexValue? high, Form.hexValue? low with
      | some x, some y => UInt8.ofNat (x * 16 + y) :: unescape rest
      | _, _ => 0x25 :: unescape (high :: low :: rest)
  | b :: rest => b :: unescape rest
  | [] => []

/-- The text of a piece of a locator. -/
def text (piece : Bytes) : String :=
  Utf8.decodeLossy ((unescape piece).takeWhile (fun b => b != 0))

/-- What follows the host of a locator, if it names no other one. -/
def afterHost? : Bytes → Option Bytes
  | 0x2F :: 0x2F :: rest =>
      let host := rest.takeWhile (fun b => b != 0x2F)
      if host.isEmpty || host == Utf8.encode "localhost" then some (rest.drop host.length) else none
  | rest => some rest

/-- The locator of a database by its path. -/
def ofPath (path : String) : Locator :=
  if path.isEmpty || path = ":memory:" then .hidden else .path path true

/-- A locator with one more parameter. Those that are not known change nothing. -/
def withParameter? (l : Locator) (parameter : String × String) : Option Locator :=
  match parameter, l with
  | ("mode", "memory"), _ => some .hidden
  | ("mode", "rwc"), .path p _ => some (.path p true)
  | ("mode", "rw"), .path p _ => some (.path p false)
  | ("mode", "ro"), .path p _ => some (.path p false)
  | ("mode", value), l => if value = "rwc" || value = "rw" || value = "ro" then some l else none
  | ("cache", value), l => if value = "shared" || value = "private" then some l else none
  | _, l => some l

/-- The parameters in the query of a locator. -/
def parameters (query : Bytes) : List (String × String) :=
  (Form.splitAll 0x26 query).map fun piece =>
    let (name, value) := Form.splitFirst 0x3D piece
    (text name, text value)

/-- What the name of a database stands for. -/
def parse? (name : String) : Option Locator :=
  match Utf8.encode name with
  | 0x66 :: 0x69 :: 0x6C :: 0x65 :: 0x3A :: rest =>
      (afterHost? (rest.takeWhile (fun b => b != 0x23))).bind fun inside =>
        let (place, query) := Form.splitFirst 0x3F inside
        (parameters query).foldlM withParameter? (ofPath (text place))
  | _ => some (ofPath name)

end Locator

/-! ## Opening a database

An empty file counts as an empty database; any other plain file is none. The parts of a path that
lead upwards take back the part before them, whatever that part is, and a journal must find room
beside the database. -/

namespace Files

/-- Take back a part of a place for every part of a path that leads upwards. -/
def descend (place : List String) : List String → List String
  | [] => place
  | part :: rest => if part = ".." then descend (place.drop 1) rest else descend (part :: place) rest

/-- The place that a path names, whatever is there. -/
def place (path : String) : String :=
  Path.ofParts (Path.isAbsolute path) (descend [] (Path.parts path))

/-- The name of the journal of a database. -/
def journal (place : String) : String := place ++ "-journal"

/-- Put a database at the place that its name stands for, if it has one. -/
def saveDatabase (f : Files) (name : String) (rows : Rows) : Files :=
  match Locator.parse? name with
  | some (.path path _) => { nodes := f.nodes.insert (place path) (.database rows) }
  | _ => f

/-- Open the database at a place. -/
def openPlace? (f : Files) (place : String) (creates : Bool) : Option (Rows × Files) :=
  match f.fileGoal? place, f.fileGoal? (journal place) with
  | some place, some _ =>
      match f.nodes.get? place with
      | none =>
          if creates then some ([], { nodes := f.nodes.insert place (.database []) }) else none
      | some (.database rows) => some (rows, f)
      | some (.file []) => some ([], { nodes := f.nodes.insert place (.database []) })
      | some _ => none
  | _, _ => none

/-- Open a database by its name, giving its rows. -/
def openDatabase? (f : Files) (name : String) : Option (Rows × Files) :=
  match f.makeParents? name, Locator.parse? name with
  | some made, some .hidden => some ([], made)
  | some made, some (.path path creates) =>
      if path.toList.contains '\x00' then none else made.openPlace? (place path) creates
  | _, _ => none

/-- The rows of the database that a name stands for, if there is one. -/
def databaseRows? (f : Files) (name : String) : Option Rows :=
  match Locator.parse? name with
  | some (.path path _) =>
      match f.nodes.get? (place path) with
      | some (.database rows) => some rows
      | _ => none
  | _ => none

end Files

namespace Store

/-- The failure to open a database. -/
def cannotOpen (path : String) : Unavailable := ⟨path ++ ": cannot be opened"⟩

/-- Open the store that lies in the database at a path. -/
def openAt (files : Files) (path : String) : Except Unavailable (Store × Files) :=
  match files.openDatabase? path with
  | none => .error (cannotOpen path)
  | some (rows, files') => .ok ({ table := .database rows }, files')

/-- Write the rows of a store back to the database at a path. A store in memory has none. -/
def save (s : Store) (files : Files) (path : String) : Files :=
  match s.table with
  | .memory _ => files
  | .database rows => files.saveDatabase path rows

end Store

end Gatehouse
