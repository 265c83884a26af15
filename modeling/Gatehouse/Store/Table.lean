import Gatehouse.Dict.Basic
import Gatehouse.Text.Form
import Gatehouse.Text.Utf8

/-! # Tables of stored values

A table keeps byte strings under text keys. The memory table is a map. The row table is a list
of rows on which the statements of a relational database act: look up the first row with a key,
update the row with a key or else append one, delete the rows with a key, and list the keys
whose leading part equals a text. -/

namespace Gatehouse

/-- One row of a table. -/
structure Row where
  key : String
  value : Bytes
  deriving DecidableEq, Repr

/-- Rows in the order in which they were appended. -/
abbrev Rows := List Row

namespace Rows

/-- The value in the first row with a key. -/
def select (rows : Rows) (key : String) : Option Bytes :=
  (rows.find? (fun r => r.key == key)).map Row.value

/-- Set the value in the row with a key, or append a row if there is none. -/
def upsert (rows : Rows) (key : String) (value : Bytes) : Rows :=
  if rows.any (fun r => r.key == key) then
    rows.map (fun r => if r.key == key then { r with value := value } else r)
  else rows ++ [⟨key, value⟩]

/-- Delete the rows with a key. -/
def delete (rows : Rows) (key : String) : Rows := rows.filter (fun r => r.key != key)

/-- The characters of a text up to the first NUL, which are the ones that a length counts. -/
def counted (s : String) : List Char := s.toList.takeWhile (fun c => c != '\x00')

/-- Whether the leading part of a key, as long as `stem`, equals `stem`. -/
def leads (stem key : String) : Bool :=
  (counted key).take (counted stem).length == stem.toList

/-- The keys that start with a text. -/
def keys (rows : Rows) (stem : String) : List String :=
  (rows.filter (fun r => leads stem r.key)).map Row.key

end Rows

/-- A table of stored values. -/
inductive Table
  | memory (values : Dict Bytes)
  | database (rows : Rows)
  deriving DecidableEq

namespace Table

/-- The value under a key. -/
def get? : Table → String → Option Bytes
  | .memory values, key => values.get? key
  | .database rows, key => rows.select key

/-- Put a value under a key. -/
def put : Table → String → Bytes → Table
  | .memory values, key, value => .memory (values.insert key value)
  | .database rows, key, value => .database (rows.upsert key value)

/-- Take a key out. -/
def remove : Table → String → Table
  | .memory values, key => .memory (values.erase key)
  | .database rows, key => .database (rows.delete key)

/-- The keys that start with a text. -/
def keys : Table → String → List String
  | .memory values, stem => values.keys.filter (fun k => stem.toList.isPrefixOf k.toList)
  | .database rows, stem => rows.keys stem

/-- What a table holds. -/
def contents : Table → Dict Bytes
  | .memory values => values
  | .database rows => Dict.ofList (rows.map fun r => (r.key, r.value))

end Table

/-! ## Rows as text

A database file holds one line a row: the key and the value in hexadecimal digits, with a space
between them. No rows make an empty file. -/

namespace Rows

/-- The line of a row. -/
def line (r : Row) : String := Hex.encode (Utf8.encode r.key) ++ " " ++ Hex.encode r.value ++ "\n"

/-- The text of some rows. -/
def dump (rows : Rows) : Bytes := Utf8.encode (String.join (rows.map line))

/-- The row that a line holds. -/
def ofLine? (bytes : Bytes) : Option Row := do
  let (key, value) := Form.splitFirst 0x20 bytes
  let key ← (← Utf8.decode? key) |> Hex.decode?
  let value ← (← Utf8.decode? value) |> Hex.decode?
  return ⟨← Utf8.decode? key, value⟩

/-- The rows that a text holds. -/
def ofDump? (bytes : Bytes) : Option Rows :=
  ((Form.splitAll 0x0A bytes).filter (!·.isEmpty)).mapM ofLine?

end Rows

end Gatehouse
