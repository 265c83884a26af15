import Gatehouse.Dict.Basic
import Gatehouse.Text.Utf8

/-! # JSON values

Only what can be used of a value is kept: a number is known if it is whole and below `2 ^ 64`,
and a string if it spells a text. The members of an object stay in order and may repeat. -/

namespace Gatehouse

namespace Json

/-- A value without parts. -/
inductive Atom
  | null
  | bool (b : Bool)
  | number (n : Option UInt64)
  | text (s : Option String)
  deriving DecidableEq, Repr

/-- A piece of written JSON. -/
inductive Token
  | openArray
  | closeArray
  | openObject
  | closeObject
  | comma
  | colon
  | atom (a : Atom)
  deriving DecidableEq, Repr

end Json

/-- A JSON value. -/
inductive Json
  | atom (a : Json.Atom)
  | array (items : List Json)
  | object (members : List (Option String × Json))

namespace Json

instance : Inhabited Json := ⟨.atom .null⟩

/-- The value that stands for nothing. -/
def null : Json := .atom .null

/-- A truth value. -/
def bool (b : Bool) : Json := .atom (.bool b)

/-- A whole number. -/
def number (n : UInt64) : Json := .atom (.number (some n))

/-- A text. -/
def text (s : String) : Json := .atom (.text (some s))

/-- An object with named members. -/
def record (members : List (String × Json)) : Json :=
  .object (members.map fun e => (some e.1, e.2))

mutual

/-- The tokens of a value. -/
def tokens : Json → List Token
  | .atom a => [.atom a]
  | .array items => .openArray :: itemTokens items
  | .object members => .openObject :: memberTokens members

/-- The tokens of the items of an array, up to its end. -/
def itemTokens : List Json → List Token
  | [] => [.closeArray]
  | [v] => tokens v ++ [.closeArray]
  | v :: w :: rest => tokens v ++ .comma :: itemTokens (w :: rest)

/-- The tokens of the members of an object, up to its end. -/
def memberTokens : List (Option String × Json) → List Token
  | [] => [.closeObject]
  | [(k, v)] => .atom (.text k) :: .colon :: (tokens v ++ [.closeObject])
  | (k, v) :: m :: rest =>
      .atom (.text k) :: .colon :: (tokens v ++ .comma :: memberTokens (m :: rest))

end

/-! ## Records

A record has named fields in a fixed order. It is read from an object, whose members may come in
any order and include unknown names, or from an array that lists the fields in order and may
stop early. -/

/-- The names of the members of an object, if every name spells a text. -/
def names? : List (Option String × Json) → Option (List (String × Json))
  | [] => some []
  | (none, _) :: _ => none
  | (some k, v) :: rest => (names? rest).map ((k, v) :: ·)

/-- The values of the fields called `names`, in that order; a field that is given twice spoils
the record. -/
def select? (members : List (String × Json)) : List String → Option (List (Option Json))
  | [] => some []
  | name :: rest =>
      match (members.filter (fun m => m.1 == name)).map (·.2) with
      | [] => (select? members rest).map (none :: ·)
      | [v] => (select? members rest).map (some v :: ·)
      | _ => none

/-- Pair the fields of a record with listed values; more values than fields spoil it. -/
def align? : List String → List Json → Option (List (Option Json))
  | [], [] => some []
  | [], _ :: _ => none
  | _ :: names, [] => (align? names []).map (none :: ·)
  | _ :: names, v :: vs => (align? names vs).map (some v :: ·)

/-- The values of the fields called `names`, in that order. -/
def fields? (names : List String) : Json → Option (List (Option Json))
  | .object members =>
      match names? members with
      | none => none
      | some members => select? members names
  | .array items => align? names items
  | .atom _ => none

/-- Read a field that must be there. -/
def required {α : Type} (read : Json → Option α) : Option Json → Option α
  | none => none
  | some v => read v

/-- Read a field that has a default. -/
def defaulted {α : Type} (fallback : α) (read : Json → Option α) : Option Json → Option α
  | none => some fallback
  | some v => read v

/-- Read a text. -/
def text? : Json → Option String
  | .atom (.text s) => s
  | _ => none

/-- Read a whole number. -/
def number? : Json → Option UInt64
  | .atom (.number n) => n
  | _ => none

/-- Read a truth value. -/
def bool? : Json → Option Bool
  | .atom (.bool b) => some b
  | _ => none

/-- Read a whole number or nothing. -/
def optionalNumber? : Json → Option (Option UInt64)
  | .atom .null => some none
  | .atom (.number (some n)) => some (some n)
  | _ => none

/-- Read members whose values are texts. -/
def textMembers? : List (Option String × Json) → Option (List (String × String))
  | [] => some []
  | (some k, .atom (.text (some v))) :: rest => (textMembers? rest).map ((k, v) :: ·)
  | _ => none

/-- Read an object of texts; a name given twice keeps its last value. -/
def texts? : Json → Option (Dict String)
  | .object members => (textMembers? members).map Dict.ofList
  | _ => none

/-- Write a table of texts as an object. -/
def ofTexts (d : Dict String) : Json := record (d.toList.map fun e => (e.1, text e.2))

end Json

end Gatehouse
