import Gatehouse.Text.Numeral
import Gatehouse.Toml.Basic

/-! # Writing TOML

A table is written as the lines of its plain entries, and then one section for each table in it.
A string is written in the form that needs the fewest escapes, the plain quotes being preferred. -/

namespace Gatehouse

namespace Toml

/-- The ways to write a string. -/
inductive Style
  | basic
  | literal
  | basicLines
  | literalLines
  deriving DecidableEq, Repr

/-- Whether a character cannot stand in a string as it is. -/
def isControl (c : Char) : Bool := c != '\t' && c != '\n' && (c.toNat < 0x20 || c = '\x7f')

/-- The length of the longest run of a character; `run` is the length of the run just before. -/
def longestRun (c : Char) (run : Nat) : List Char → Nat
  | [] => run
  | d :: rest => if d = c then longestRun c (run + 1) rest else max run (longestRun c 0 rest)

/-- The way in which a string is written. -/
def style (cs : List Char) : Style :=
  let control := cs.any isControl
  let newline := cs.contains '\n'
  if !control && !newline && !cs.contains '\\' && !cs.contains '"' then .basic
  else if !control && !newline && !cs.contains '\'' then .literal
  else if !control && !cs.contains '\\' && longestRun '"' 0 cs ≤ 2 then .basicLines
  else if !control && longestRun '\'' 0 cs ≤ 2 then .literalLines
  else if newline then .basicLines
  else .basic

/-- A character of a string where escapes are understood. Quotes and line breaks are left alone. -/
def escape (c : Char) : List Char :=
  match c with
  | '\x08' => ['\\', 'b']
  | '\t' => ['\\', 't']
  | '\x0c' => ['\\', 'f']
  | '\r' => ['\\', 'r']
  | '\\' => ['\\', '\\']
  | c =>
      if isControl c then
        ['\\', 'u', '0', '0', (Hex.digit (c.toNat / 16)).toUpper, (Hex.digit (c.toNat % 16)).toUpper]
      else [c]

/-- A character of a string on one line. -/
def escapeInLine (c : Char) : List Char :=
  if c = '"' then ['\\', '"'] else if c = '\n' then ['\\', 'n'] else escape c

/-- The characters of a string on several lines. `run` counts the quotes just before; a third one in
a row is escaped, because it would close the string. -/
def linesChars (run : Nat) : List Char → List Char
  | [] => []
  | c :: rest =>
      if c = '"' then
        if run = 2 then '\\' :: '"' :: linesChars 0 rest else '"' :: linesChars (run + 1) rest
      else escape c ++ linesChars 0 rest

/-- The line break after the opening quotes of a string that has line breaks. -/
def opening (cs : List Char) : List Char := if cs.contains '\n' then ['\n'] else []

/-- A string as it is written. -/
def stringChars (cs : List Char) : List Char :=
  match style cs with
  | .basic => '"' :: (cs.flatMap escapeInLine ++ ['"'])
  | .literal => '\'' :: (cs ++ ['\''])
  | .basicLines => '"' :: '"' :: '"' :: (opening cs ++ linesChars 0 cs ++ ['"', '"', '"'])
  | .literalLines => '\'' :: '\'' :: '\'' :: (opening cs ++ cs ++ ['\'', '\'', '\''])

/-- A key as it is written. -/
def keyChars (k : String) : List Char :=
  if !k.toList.isEmpty && k.toList.all (fun c => c.isAlphanum || c = '_' || c = '-') then k.toList
  else '"' :: (k.toList.flatMap escapeInLine ++ ['"'])

/-- A whole number as it is written. -/
def integerChars : Int → List Char
  | .ofNat n => Nat.toDigits 10 n
  | .negSucc n => '-' :: Nat.toDigits 10 (n + 1)

mutual

/-- A value as it is written behind a key. Of floats only a sample can be written. -/
def valueChars : Toml → List Char
  | .string s => stringChars s.toList
  | .integer n => integerChars n
  | .float => ['n', 'a', 'n']
  | .boolean true => ['t', 'r', 'u', 'e']
  | .boolean false => ['f', 'a', 'l', 's', 'e']
  | .datetime text => text.toList
  | .array items => '[' :: (itemChars items ++ [']'])
  | .tables items => '[' :: (itemChars items ++ [']'])
  | .table _ entries => '\x7b' :: (pairChars entries ++ ['\x7d'])

/-- The items of an array as they are written. -/
def itemChars : List Toml → List Char
  | [] => []
  | [v] => valueChars v
  | v :: w :: rest => valueChars v ++ ',' :: ' ' :: itemChars (w :: rest)

/-- The entries of an inline table as they are written. -/
def pairChars : List (String × Toml) → List Char
  | [] => []
  | [(k, v)] => keyChars k ++ ' ' :: '=' :: ' ' :: valueChars v
  | (k, v) :: e :: rest =>
      keyChars k ++ ' ' :: '=' :: ' ' :: (valueChars v ++ ',' :: ' ' :: pairChars (e :: rest))

end

/-- The line of one entry. -/
def lineChars (e : String × Toml) : List Char :=
  keyChars e.1 ++ ' ' :: '=' :: ' ' :: (valueChars e.2 ++ ['\n'])

/-- Whether a value gets a section of its own. -/
def isSection : Toml → Bool
  | .table .header _ => true
  | _ => false

/-- The header of a section. -/
def headerChars (path : List String) : List Char :=
  '[' :: ((path.map keyChars).intersperse ['.']).flatten ++ [']', '\n']

mutual

/-- The sections of a table, each after an empty line. A table that only holds other sections
needs none of its own. -/
def sectionChars (path : List String) : Toml → List Char
  | .table .header entries =>
      let lines := entries.filter (fun e => !isSection e.2)
      let own :=
        if lines.isEmpty && !entries.isEmpty then []
        else '\n' :: (headerChars path ++ lines.flatMap lineChars)
      own ++ entrySections path entries
  | _ => []

/-- The sections among some entries. -/
def entrySections (path : List String) : List (String × Toml) → List Char
  | [] => []
  | (k, v) :: rest => sectionChars (path ++ [k]) v ++ entrySections path rest

end

/-- The text of a document. -/
def render (entries : Entries) : String :=
  String.ofList ((entries.filter (fun e => !isSection e.2)).flatMap lineChars ++
    entrySections [] entries)

end Toml

end Gatehouse
