import Gatehouse.Toml.Number

/-! # Reading TOML statements

A document is a sequence of headers and pairs, one a line. -/

namespace Gatehouse

namespace Toml

/-- How deep values may be nested, and how many parts a key may have. -/
def nesting : Nat := 79

/-- Step over the rest of a comment, which ends before a line break or at the end. -/
def dropComment : List Char → Option (List Char)
  | [] => some []
  | '\n' :: rest => some ('\n' :: rest)
  | '\r' :: '\n' :: rest => some ('\r' :: '\n' :: rest)
  | c :: rest => if isPrintable c then dropComment rest else none

/-- Step over blanks, line breaks and comments; `inside` says that a comment is being read. -/
def dropFiller (inside : Bool) : List Char → Option (List Char)
  | [] => some []
  | '\n' :: rest => dropFiller false rest
  | '\r' :: '\n' :: rest => dropFiller false rest
  | c :: rest =>
      if inside then if isPrintable c then dropFiller true rest else none
      else if isBlank c then dropFiller false rest
      else if c = '#' then dropFiller true rest
      else some (c :: rest)

/-- Step over what may follow on a line: blanks and a comment, and then the line break or the end
of the document. -/
def dropLineEnd (cs : List Char) : Option (List Char) :=
  match cs.dropWhile isBlank with
  | [] => some []
  | '\n' :: rest => some rest
  | '\r' :: '\n' :: rest => some rest
  | '#' :: rest => (dropComment rest).map dropBreak
  | _ => none

/-- Whether a character may stand in a key without quotes. -/
def isBare (c : Char) : Bool := c.isAlphanum || c = '_' || c = '-'

/-- Read one part of a key. -/
def takeKeyPart (cs : List Char) : Option (String × List Char) :=
  match cs with
  | '"' :: rest => (takeBasic rest).map fun r => (String.ofList r.1, r.2)
  | '\'' :: rest => (takeLiteral rest).map fun r => (String.ofList r.1, r.2)
  | _ =>
      match cs.takeWhile isBare with
      | [] => none
      | part => some (String.ofList part, cs.dropWhile isBare)

/-- Read a key of at most `n` parts joined by dots, split before its last part. -/
def takeKey : (n : Nat) → List Char → Option (List String × String × List Char)
  | 0, _ => none
  | n + 1, cs =>
      match takeKeyPart (cs.dropWhile isBlank) with
      | none => none
      | some (part, rest) =>
          match rest.dropWhile isBlank with
          | '.' :: rest' =>
              match takeKey n rest' with
              | none => none
              | some (above, key, rest'') => some (part :: above, key, rest'')
          | rest' => some ([], part, rest')

/-- The entries of a table, at the end of a dotted key, with a new one added. The table must have
been made by a dotted key exactly if the key has dots. -/
def addPair (origin : Origin) (dotted : Bool) (key : String) (value : Toml) (entries : Entries) :
    Option Entries :=
  if (origin == .dotted) == dotted && (entries.lookup key).isNone then some (entries ++ [(key, value)])
  else none

/-- Change the value of a key that is there. -/
def replaceEntry (key : String) (value : Toml) (entries : Entries) : Entries :=
  entries.map fun e => if e.1 == key then (key, value) else e

/-- Change the last of some tables. -/
def mapLast? (f : Origin → Entries → Option Entries) : List Toml → Option (List Toml)
  | [] => none
  | [.table origin entries] => (f origin entries).map fun es => [.table origin es]
  | [_] => none
  | t :: u :: rest => (mapLast? f (u :: rest)).map (t :: ·)

/-- Add a pair below the tables that a dotted key names, making those that are missing. A table
with a header of its own is not reached this way. -/
def insertPair (dotted : Bool) (key : String) (value : Toml) :
    List String → Origin → Entries → Option Entries
  | [], origin, entries => addPair origin dotted key value entries
  | part :: above, _, entries =>
      match entries.lookup part with
      | none =>
          (insertPair true key value above .dotted []).map fun es =>
            entries ++ [(part, .table .dotted es)]
      | some (.table .dotted es) =>
          (insertPair true key value above .dotted es).map fun es =>
            replaceEntry part (.table .dotted es) entries
      | some (.table .implied es) =>
          (insertPair true key value above .implied es).map fun es =>
            replaceEntry part (.table .implied es) entries
      | some (.tables items) =>
          (mapLast? (insertPair true key value above) items).map fun items =>
            replaceEntry part (.tables items) entries
      | some _ => none

/-- Step over a character after blanks. -/
def expect (c : Char) (cs : List Char) : Option (List Char) := drop? c (cs.dropWhile isBlank)

/-- Read the items of an array after its opening bracket. `after` says that an item has been read
and a comma must come before the next. -/
def takeItems (item : List Char → Option (Toml × List Char)) (after : Bool) (cs : List Char) :
    Option (List Toml × List Char) :=
  match dropFiller false cs with
  | none => none
  | some (']' :: rest) => some ([], rest)
  | some (',' :: rest) =>
      if after ∧ rest.length < cs.length then takeItems item false rest else none
  | some rest =>
      if after then none
      else
        match item rest with
        | none => none
        | some (v, rest') =>
            if rest'.length < cs.length then
              (takeItems item true rest').map fun r => (v :: r.1, r.2)
            else none
  termination_by cs.length

/-- Read the pairs of an inline table after its opening brace or a comma. -/
def takePairs (item : List Char → Option (Toml × List Char)) (cs : List Char) (entries : Entries) :
    Option (Entries × List Char) :=
  match takeKey nesting cs with
  | none => none
  | some (above, key, rest) =>
      match expect '=' rest with
      | none => none
      | some rest =>
          match item (rest.dropWhile isBlank) with
          | none => none
          | some (v, rest) =>
              match insertPair (!above.isEmpty) key v above .inline entries with
              | none => none
              | some entries =>
                  match rest.dropWhile isBlank with
                  | '\x7d' :: rest => some (entries, rest)
                  | ',' :: rest =>
                      if rest.length < cs.length then takePairs item rest entries else none
                  | _ => none
  termination_by cs.length

mutual

/-- A table that dotted keys made inside an inline table is an inline table, once that is
complete. -/
def close : Toml → Toml
  | .table .dotted entries => .table .inline (closeEntries entries)
  | v => v

/-- The entries of a complete inline table. -/
def closeEntries : List (String × Toml) → List (String × Toml)
  | [] => []
  | (k, v) :: rest => (k, close v) :: closeEntries rest

end

/-- Read a value in which others may be nested `depth` deep. -/
def takeValue : (depth : Nat) → List Char → Option (Toml × List Char)
  | depth, cs =>
      match cs with
      | '[' :: rest =>
          match depth with
          | 0 => none
          | depth + 1 => (takeItems (takeValue depth) false rest).map fun r => (.array r.1, r.2)
      | '\x7b' :: rest =>
          match depth with
          | 0 => none
          | depth + 1 =>
              match rest.dropWhile isBlank with
              | '\x7d' :: rest => some (.table .inline [], rest)
              | _ => (takePairs (takeValue depth) rest []).map fun r =>
                  (.table .inline (closeEntries r.1), r.2)
      | '"' :: _ => (takeString cs).map fun r => (.string (String.ofList r.1), r.2)
      | '\'' :: _ => (takeString cs).map fun r => (.string (String.ofList r.1), r.2)
      | 't' :: 'r' :: 'u' :: 'e' :: rest => some (.boolean true, rest)
      | 'f' :: 'a' :: 'l' :: 's' :: 'e' :: rest => some (.boolean false, rest)
      | _ =>
          match takeDatetime cs with
          | some (text, rest) => some (.datetime (String.ofList text), rest)
          | none => takeNumber cs

/-- Read a header after its opening bracket. -/
def takeHeader (cs : List Char) : Option (Statement × List Char) :=
  match cs with
  | '[' :: rest =>
      match takeKey nesting rest with
      | some (above, key, ']' :: ']' :: rest) => some (.element above key, rest)
      | _ => none
  | _ =>
      match takeKey nesting cs with
      | some (above, key, ']' :: rest) => some (.header above key, rest)
      | _ => none

/-- Read a key with its value. -/
def takePair (cs : List Char) : Option (Statement × List Char) :=
  match takeKey nesting cs with
  | none => none
  | some (above, key, rest) =>
      match expect '=' rest with
      | none => none
      | some rest =>
          (takeValue nesting (rest.dropWhile isBlank)).map fun r => (.pair above key r.1, r.2)

/-- Read one statement. -/
def takeStatement (cs : List Char) : Option (Statement × List Char) :=
  match cs with
  | '[' :: rest => takeHeader rest
  | _ => takePair cs

/-- Read the statements of a document. -/
def statements? (cs : List Char) : Option (List Statement) :=
  match dropFiller false cs with
  | none => none
  | some [] => some []
  | some (c :: rest) =>
      match takeStatement (c :: rest) with
      | none => none
      | some (s, rest') =>
          match dropLineEnd rest' with
          | none => none
          | some rest'' =>
              if rest''.length < cs.length then (statements? rest'').map (s :: ·) else none
  termination_by cs.length

end Toml

end Gatehouse
