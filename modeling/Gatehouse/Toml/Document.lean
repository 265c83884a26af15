import Gatehouse.Toml.Reader

/-! # TOML documents

A document is the table that its statements build up. No table is opened twice, and none that a
header opened is added to by a dotted key. -/

namespace Gatehouse

namespace Toml

/-- Change the table that a header names, making the tables above it that are missing. -/
def within (change : Origin → Entries → Option Entries) :
    List String → Origin → Entries → Option Entries
  | [], origin, entries => change origin entries
  | part :: above, _, entries =>
      match entries.lookup part with
      | none =>
          (within change above .implied []).map fun es => entries ++ [(part, .table .implied es)]
      | some (.table .inline _) => none
      | some (.table origin es) =>
          (within change above origin es).map fun es =>
            replaceEntry part (.table origin es) entries
      | some (.tables items) =>
          (mapLast? (within change above) items).map fun items =>
            replaceEntry part (.tables items) entries
      | some _ => none

/-- Open a table by its header. One that other headers have implied is opened where it would stand
if it were new. -/
def openTable (key : String) (entries : Entries) : Option Entries :=
  match entries.lookup key with
  | none => some (entries ++ [(key, .table .header [])])
  | some (.table .implied es) =>
      some (entries.filter (fun e => e.1 != key) ++ [(key, .table .header es)])
  | some _ => none

/-- Add an element to an array of tables. -/
def openElement (key : String) (entries : Entries) : Option Entries :=
  match entries.lookup key with
  | none => some (entries ++ [(key, .tables [.table .header []])])
  | some (.tables items) =>
      some (replaceEntry key (.tables (items ++ [.table .header []])) entries)
  | some _ => none

/-- A document that is being built: its entries, and the table that pairs go into. -/
structure Builder where
  entries : Entries
  here : List String

/-- Carry out one statement. -/
def Builder.step (b : Builder) : Statement → Option Builder
  | .header above key =>
      (within (fun _ es => openTable key es) above .header b.entries).map fun es =>
        ⟨es, above ++ [key]⟩
  | .element above key =>
      (within (fun _ es => openElement key es) above .header b.entries).map fun es =>
        ⟨es, above ++ [key]⟩
  | .pair above key value =>
      (within (insertPair (!above.isEmpty) key value above) b.here .header b.entries).map fun es =>
        { b with entries := es }

/-- Carry out statements one after the other. -/
def Builder.run : Builder → List Statement → Option Builder
  | b, [] => some b
  | b, s :: rest =>
      match b.step s with
      | none => none
      | some b' => b'.run rest

/-- The entries that some statements build up. -/
def ofStatements? (l : List Statement) : Option Entries :=
  (Builder.run ⟨[], []⟩ l).map Builder.entries

/-- A text without the mark that may stand in front of it. -/
def dropMark : List Char → List Char
  | '\uFEFF' :: rest => rest
  | cs => cs

/-- Read a document. -/
def parse? (s : String) : Option Entries := (statements? (dropMark s.toList)).bind ofStatements?

end Toml

end Gatehouse
