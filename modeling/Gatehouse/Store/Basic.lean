import Gatehouse.Store.Table

/-! # The store

All that is known about sessions lies in the store. It offers six calls; a change of one key
reads the value and writes its successor in one step. During an outage some of the calls fail,
and a call that fails leaves the store as it was. -/

namespace Gatehouse

/-- The calls a store offers. -/
inductive StoreCall
  | get
  | set
  | delete
  | update
  | removeIf
  | keys
  deriving DecidableEq, Repr

/-- Why a store did not answer. -/
structure Unavailable where
  reason : String
  deriving DecidableEq, Repr

namespace Unavailable

/-- The failure in words. -/
def message (e : Unavailable) : String := "fragment store unavailable: " ++ e.reason

end Unavailable

/-- A table and the calls that fail at present, with the reason they give. -/
structure Store where
  table : Table
  down : List StoreCall := []
  reason : String := ""
  deriving DecidableEq

namespace Store

/-- An empty store in memory. -/
def memory : Store := { table := .memory Dict.empty }

/-- An empty store in a database. -/
def database : Store := { table := .database [] }

/-- The failure of a call, if the call fails at present. -/
def failure? (s : Store) (c : StoreCall) : Option Unavailable :=
  if c ∈ s.down then some ⟨s.reason⟩ else none

/-- Answer a call unless it fails. -/
def answer {α : Type} (s : Store) (c : StoreCall) (a : α) : Except Unavailable α :=
  match s.failure? c with
  | some e => .error e
  | none => .ok a

/-- What the store holds. -/
def contents (s : Store) : Dict Bytes := s.table.contents

/-- The value under a key. -/
def get (s : Store) (key : String) : Except Unavailable (Option Bytes) :=
  s.answer .get (s.table.get? key)

/-- Put a value under a key. -/
def set (s : Store) (key : String) (value : Bytes) : Except Unavailable Store :=
  s.answer .set { s with table := s.table.put key value }

/-- Take a key out, giving back what it held. -/
def delete (s : Store) (key : String) : Except Unavailable (Option Bytes × Store) :=
  s.answer .delete (s.table.get? key, { s with table := s.table.remove key })

/-- Replace the value under a key by its successor, giving back what was found. Where `next`
gives none, the key is left as it was. -/
def update (s : Store) (key : String) (next : Option Bytes → Option Bytes) :
    Except Unavailable (Option Bytes × Store) :=
  let found := s.table.get? key
  match next found with
  | some value => s.answer .update (found, { s with table := s.table.put key value })
  | none => s.answer .update (found, s)

/-- Take a key out if its value passes a test, giving back what was found. -/
def removeIf (s : Store) (key : String) (test : Bytes → Bool) :
    Except Unavailable (Option Bytes × Store) :=
  let found := s.table.get? key
  if found.any test then s.answer .removeIf (found, { s with table := s.table.remove key })
  else s.answer .removeIf (found, s)

/-- The keys that start with a text. -/
def keys (s : Store) (stem : String) : Except Unavailable (List String) :=
  s.answer .keys (s.table.keys stem)

end Store

end Gatehouse
