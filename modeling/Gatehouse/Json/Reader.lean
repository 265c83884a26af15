import Gatehouse.Json.Lexer

/-! # Reading JSON values

A machine takes the tokens one at a time and keeps the containers that are still open on a
stack, so that nesting may be of any depth. -/

namespace Gatehouse

namespace Json

/-- A container that is open: the values before the one being read, the last of them first. -/
inductive Frame
  | array (before : List Json)
  | object (before : List (Option String × Json)) (key : Option String)

/-- What may come next. -/
inductive Mode
  | value
  | firstItem
  | firstKey
  | key (before : List (Option String × Json))
  | colon (before : List (Option String × Json)) (key : Option String)
  | finished (v : Json)

/-- The open containers, the innermost first, and what may come next. -/
structure Machine where
  stack : List Frame
  mode : Mode

namespace Machine

/-- Start a value. -/
def begin (stack : List Frame) : Token → Option Machine
  | .atom a => some ⟨stack, .finished (.atom a)⟩
  | .openArray => some ⟨.array [] :: stack, .firstItem⟩
  | .openObject => some ⟨stack, .firstKey⟩
  | _ => none

/-- Take one token. -/
def step (m : Machine) (t : Token) : Option Machine :=
  match m.mode, m.stack, t with
  | .value, stack, t => begin stack t
  | .firstItem, .array _ :: stack, .closeArray => some ⟨stack, .finished (.array [])⟩
  | .firstItem, stack, t => begin stack t
  | .firstKey, stack, .closeObject => some ⟨stack, .finished (.object [])⟩
  | .firstKey, stack, .atom (.text k) => some ⟨stack, .colon [] k⟩
  | .key before, stack, .atom (.text k) => some ⟨stack, .colon before k⟩
  | .colon before k, stack, .colon => some ⟨.object before k :: stack, .value⟩
  | .finished v, .array before :: stack, .comma => some ⟨.array (v :: before) :: stack, .value⟩
  | .finished v, .array before :: stack, .closeArray =>
      some ⟨stack, .finished (.array (v :: before).reverse)⟩
  | .finished v, .object before k :: stack, .comma => some ⟨stack, .key ((k, v) :: before)⟩
  | .finished v, .object before k :: stack, .closeObject =>
      some ⟨stack, .finished (.object ((k, v) :: before).reverse)⟩
  | _, _, _ => none

/-- Take tokens to the end; the value is read if no container is left open. -/
def run : Machine → List Token → Option Json
  | ⟨[], .finished v⟩, [] => some v
  | _, [] => none
  | m, t :: rest =>
      match m.step t with
      | none => none
      | some m' => m'.run rest

end Machine

/-- The value that some tokens write. -/
def ofTokens? (ts : List Token) : Option Json := Machine.run ⟨[], .value⟩ ts

/-- The value that some bytes write. -/
def parse? (bytes : Bytes) : Option Json :=
  match lex? (Utf8.scan none bytes) with
  | none => none
  | some ts => ofTokens? ts

end Json

end Gatehouse
