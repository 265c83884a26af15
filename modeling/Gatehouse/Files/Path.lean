/-! # Paths

A path is a text whose parts are separated by slashes. Everything here works on the text alone and
looks at no file. -/

namespace Gatehouse

namespace Path

/-- Split a text at every slash. -/
def split : List Char → List (List Char)
  | [] => [[]]
  | c :: rest =>
      if c = '/' then [] :: split rest
      else
        match split rest with
        | [] => [[c]]
        | part :: parts => (c :: part) :: parts

/-- Whether a path starts at the root. -/
def isAbsolute (path : String) : Bool := path.toList.head? = some '/'

/-- Whether a path ends in a slash. -/
def endsInSlash (path : String) : Bool := path.toList.getLast? = some '/'

/-- The parts of a path between its slashes. Empty ones count for nothing. -/
def steps (path : String) : List String :=
  ((split path.toList).map String.ofList).filter (fun p => p != "")

/-- The parts of a path that name something or lead upwards; single dots stay where they are. -/
def parts (path : String) : List String := (steps path).filter (fun p => p != ".")

/-- The path with some parts, the last one first. -/
def ofParts (absolute : Bool) (parts : List String) : String :=
  (if absolute then "/" else "") ++ String.intercalate "/" parts.reverse

/-- Go one part down from a directory. -/
def join (base name : String) : String :=
  if isAbsolute name || base.isEmpty then name
  else if endsInSlash base then base ++ name
  else base ++ "/" ++ name

/-- The last part of a path, unless it leads upwards. -/
def name? (path : String) : Option String :=
  match (parts path).getLast? with
  | some ".." => none
  | last => last

/-- A name up to its last dot, and what follows that dot. A dot in front separates nothing. -/
def divide (name : String) : String × Option String :=
  let after := (name.toList.reverse.takeWhile (fun c => c != '.')).reverse
  let before := name.toList.take (name.length - after.length - 1)
  if before.isEmpty then (name, none) else (String.ofList before, some (String.ofList after))

/-- Drop the slashes and single dots that follow the last name of a path, given backwards. -/
def dropTail : List Char → List Char
  | '/' :: rest => dropTail rest
  | '.' :: '/' :: rest => dropTail rest
  | cs => cs

/-- Put an extension after the stem of the last name. What follows that name is dropped. -/
def putExtension (path extension : String) : String :=
  match name? path with
  | none => path
  | some name =>
      let whole := (dropTail path.toList.reverse).reverse
      String.ofList (whole.take (whole.length - name.length)) ++ (divide name).1 ++ "." ++ extension

/-- Another extension in place of the last name's own. As many characters as that one has are cut
off the end of the path before its name is looked at again. -/
def withExtension (path extension : String) : String :=
  match (name? path).bind (fun name => (divide name).2) with
  | none => putExtension path extension
  | some old =>
      putExtension (String.ofList (path.toList.take (path.length - old.length))) extension

end Path

end Gatehouse
