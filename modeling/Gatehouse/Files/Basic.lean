import Gatehouse.Dict.Basic
import Gatehouse.Files.Path
import Gatehouse.Store.Table

/-! # A tree of files

What the program can see and change of a file system: plain files with their bytes, database
files with their rows, and directories. A path is followed part by part; every part but the last
must lead to a directory that exists, also where the next part leads upwards again. -/

namespace Gatehouse

/-- What a path leads to. -/
inductive Node
  | file (content : Bytes)
  | database (rows : Rows)
  | directory
  deriving DecidableEq, Repr

/-- Why a path cannot be followed. -/
inductive PathFault
  | missing
  | obstructed
  | tooLong
  | malformed
  deriving DecidableEq, Repr

/-- Where a path ends: at a directory that exists, or at a place in one that may be vacant. A path
with a slash at its end leads to no plain file. -/
inductive Goal
  | directory
  | entry (place : String) (slashed : Bool)
  deriving DecidableEq, Repr

/-- The files and directories that exist, by place. The root and the present directory always do. -/
structure Files where
  nodes : Dict Node := Dict.empty
  deriving DecidableEq

namespace Files

/-- The bytes that the name of a file may have at most. -/
def nameLimit : Nat := 255

/-- The bytes that a path must stay below. -/
def pathLimit : Nat := 4096

/-- Go from a directory through one part of a path. -/
def enter (f : Files) (absolute : Bool) (here : List String) (part : String) :
    Except PathFault (List String) :=
  if part = "." then .ok here
  else if part = ".." then .ok (here.drop 1)
  else if nameLimit < Utf8.size part then .error .tooLong
  else
    match f.nodes.get? (Path.ofParts absolute (part :: here)) with
    | none => .error .missing
    | some .directory => .ok (part :: here)
    | some _ => .error .obstructed

/-- Go from a directory through some parts of a path. -/
def walk (f : Files) (absolute : Bool) : List String → List String → Except PathFault (List String)
  | here, [] => .ok here
  | here, part :: rest =>
      match f.enter absolute here part with
      | .error e => .error e
      | .ok there => walk f absolute there rest

/-- Where a path ends. -/
def goal (f : Files) (path : String) : Except PathFault Goal :=
  if path.toList.contains '\x00' then .error .malformed
  else if pathLimit ≤ Utf8.size path then .error .tooLong
  else if path.isEmpty then .error .missing
  else
    let absolute := Path.isAbsolute path
    match (Path.steps path).reverse with
    | [] => .ok .directory
    | last :: before =>
        match f.walk absolute [] before.reverse with
        | .error e => .error e
        | .ok here =>
            if last = "." || last = ".." then .ok .directory
            else if nameLimit < Utf8.size last then .error .tooLong
            else .ok (.entry (Path.ofParts absolute (last :: here)) (Path.endsInSlash path))

/-- What a path leads to. -/
def node? (f : Files) (path : String) : Option Node :=
  match f.goal path with
  | .error _ => none
  | .ok .directory => some .directory
  | .ok (.entry place slashed) =>
      match f.nodes.get? place with
      | some .directory => some .directory
      | found => if slashed then none else found

/-- Whether a path leads anywhere. -/
def present (f : Files) (path : String) : Bool := (f.node? path).isSome

/-- Whether a path leads to a directory. -/
def isDirectory (f : Files) (path : String) : Bool := f.node? path == some .directory

/-- The bytes of the plain file at a path. -/
def read? (f : Files) (path : String) : Option Bytes :=
  match f.node? path with
  | some (.file content) => some content
  | _ => none

/-- Make a directory in one that exists. -/
def makeDirectory (f : Files) (path : String) : Except PathFault Files :=
  match f.goal path with
  | .error e => .error e
  | .ok .directory => .error .obstructed
  | .ok (.entry place _) =>
      if f.nodes.contains place then .error .obstructed
      else .ok { nodes := f.nodes.insert place .directory }

/-- Make the directory with some parts, the last one first, and those above it. A directory is
made only after the path to it could not be followed because something was missing. -/
def makeParts (absolute : Bool) : List String → Files → Option Files
  | [], f => some f
  | part :: above, f =>
      let path := Path.ofParts absolute (part :: above)
      match f.makeDirectory path with
      | .ok made => some made
      | .error .missing =>
          match makeParts absolute above f with
          | none => none
          | some made =>
              match made.makeDirectory path with
              | .ok whole => some whole
              | .error _ => if made.isDirectory path then some made else none
      | .error _ => if f.isDirectory path then some f else none

/-- Make a directory and all those above it that are missing. -/
def makeDirectories? (f : Files) (path : String) : Option Files :=
  makeParts (Path.isAbsolute path) (Path.parts path).reverse f

/-- Make the directories above a path. -/
def makeParents? (f : Files) (path : String) : Option Files :=
  makeParts (Path.isAbsolute path) ((Path.parts path).reverse.drop 1) f

/-- The place where a plain file may be written. -/
def fileGoal? (f : Files) (path : String) : Option String :=
  match f.goal path with
  | .ok (.entry place false) =>
      if f.nodes.get? place == some .directory then none else some place
  | _ => none

/-- Write a plain file into an existing directory. -/
def write? (f : Files) (path : String) (content : Bytes) : Option Files :=
  (f.fileGoal? path).map fun place => { nodes := f.nodes.insert place (.file content) }

/-- Make an empty file at a path, unless there is one. -/
def touch? (f : Files) (path : String) : Option Files :=
  (f.fileGoal? path).map fun place =>
    if f.nodes.contains place then f else { nodes := f.nodes.insert place (.file []) }

/-- Move a file to another place, where it takes the place of a file. -/
def rename? (f : Files) (source target : String) : Option Files :=
  match f.fileGoal? source, f.fileGoal? target with
  | some here, some there =>
      match f.nodes.get? here with
      | none => none
      | some node => some { nodes := (f.nodes.erase here).insert there node }
  | _, _ => none

/-- Remove what is at a path and below it. -/
def remove (f : Files) (path : String) : Files :=
  match f.goal path with
  | .ok (.entry place _) =>
      { nodes := f.nodes.filter fun k _ =>
          k != place && !((place ++ "/").toList.isPrefixOf k.toList) }
  | _ => f

/-- The names in the directory at a place. -/
def names (f : Files) (place : String) : List String :=
  let above := (place ++ "/").toList
  (f.nodes.keys.filter (fun k => above.isPrefixOf k.toList)).map
      (fun k => String.ofList (k.toList.drop above.length))
    |>.filter (fun k => !k.toList.contains '/')

end Files

end Gatehouse
