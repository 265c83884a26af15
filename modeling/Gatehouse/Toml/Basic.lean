import Gatehouse.Dict.Basic

/-! # TOML values

A table remembers how it came about, because that decides what may still be added to it. A float
is only known to be there: no setting holds one. Of a date or a time the text is kept. -/

namespace Gatehouse

namespace Toml

/-- How a table came about: by its own header, by a header below it, by a dotted key, or written
out as a value. -/
inductive Origin
  | header
  | implied
  | dotted
  | inline
  deriving DecidableEq, Repr

end Toml

/-- A TOML value. `tables` is an array whose elements have headers of their own. -/
inductive Toml
  | string (s : String)
  | integer (n : Int)
  | float
  | boolean (b : Bool)
  | datetime (text : String)
  | array (items : List Toml)
  | tables (items : List Toml)
  | table (origin : Toml.Origin) (entries : List (String × Toml))

namespace Toml

instance : Inhabited Toml := ⟨.boolean false⟩

/-- The entries of a table, in order. -/
abbrev Entries := List (String × Toml)

/-- One statement of a document: a header, the header of an array's next element, or a key with
its value. A dotted key is split before its last part. -/
inductive Statement
  | header (above : List String) (key : String)
  | element (above : List String) (key : String)
  | pair (above : List String) (key : String) (value : Toml)

/-! ## Records

A record is read from a table, where unknown keys do not matter, or from an array that lists its
fields in order; what follows the last field in an array does not matter either. A date counts as
a table whose only key names no field. -/

/-- The values of the fields called `names`, in that order. -/
def fields? (names : List String) : Toml → Option (List (Option Toml))
  | .table _ entries => some (names.map fun n => entries.lookup n)
  | .array items => some (names.mapIdx fun i _ => items[i]?)
  | .tables items => some (names.mapIdx fun i _ => items[i]?)
  | .datetime _ => some (names.map fun _ => none)
  | _ => none

/-- Read a field that must be there. -/
def required {α : Type} (read : Toml → Option α) : Option Toml → Option α
  | none => none
  | some v => read v

/-- Read a field that has a default. -/
def defaulted {α : Type} (fallback : α) (read : Toml → Option α) : Option Toml → Option α
  | none => some fallback
  | some v => read v

/-- Read a string. -/
def string? : Toml → Option String
  | .string s => some s
  | _ => none

/-- Read a whole number from zero up to below `bound`. -/
def below? (bound : Nat) : Toml → Option Nat
  | .integer (.ofNat n) => if n < bound then some n else none
  | _ => none

/-- Read every value of a list. -/
def each? {α : Type} (read : Toml → Option α) : List Toml → Option (List α)
  | [] => some []
  | v :: rest =>
      match read v with
      | none => none
      | some a => (each? read rest).map (a :: ·)

/-- Read a list. -/
def list? {α : Type} (read : Toml → Option α) : Toml → Option (List α)
  | .array items => each? read items
  | .tables items => each? read items
  | _ => none

/-- Read entries whose values are strings. -/
def stringEntries? : Entries → Option (List (String × String))
  | [] => some []
  | (k, .string s) :: rest => (stringEntries? rest).map ((k, s) :: ·)
  | _ => none

/-- The key under which a date stands when it counts as a table. -/
def datetimeKey : String := "$__toml_private_datetime"

/-- Read a table of strings. -/
def strings? : Toml → Option (Dict String)
  | .table _ entries => (stringEntries? entries).map Dict.ofList
  | .datetime text => some (Dict.ofList [(datetimeKey, text)])
  | _ => none

/-- Whether a value is an array or a table without anything in it. -/
def isVoid : Toml → Bool
  | .array items => items.isEmpty
  | .tables items => items.isEmpty
  | .table _ entries => entries.isEmpty
  | _ => false

/-- Read a choice: a string, or a table with the choice as its only key and nothing under it. -/
def choice? : Toml → Option String
  | .string s => some s
  | .table _ [(k, v)] => if isVoid v then some k else none
  | _ => none

end Toml

end Gatehouse
