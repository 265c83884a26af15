import Gatehouse.Text.Numeral

/-! # Characters and strings of TOML

Four kinds of strings: with escapes or without, on one line or on several. A line break in a
string is read as a line feed. -/

namespace Gatehouse

namespace Toml

/-- Whether a character is a space or a tab. -/
def isBlank (c : Char) : Bool := c = ' ' || c = '\t'

/-- Whether a character may stand in a comment or unescaped in a string: no control character but
the tab. -/
def isPrintable (c : Char) : Bool := c = '\t' || (0x20 ≤ c.toNat && c.toNat != 0x7F)

/-- The character that a one-letter escape stands for. -/
def escaped? (c : Char) : Option Char :=
  match c with
  | 'b' => some '\x08'
  | 't' => some '\t'
  | 'n' => some '\n'
  | 'f' => some '\x0c'
  | 'r' => some '\r'
  | '"' => some '"'
  | '\\' => some '\\'
  | _ => none

/-- The character with the number that some hexadecimal digits write. -/
def scalar? (digits : List Char) : Option Char :=
  let n := Hex.value digits
  if digits.all Hex.isDigit && (n < 0xD800 || (0xDFFF < n && n < 0x110000)) then some (Char.ofNat n)
  else none

/-- Put a character in front of what was read. -/
def cons (c : Option Char) (r : Option (List Char × List Char)) :
    Option (List Char × List Char) :=
  match c, r with
  | some c, some (cs, rest) => some (c :: cs, rest)
  | _, _ => none

/-- Read a string with escapes, on one line, after its opening quote. -/
def takeBasic : List Char → Option (List Char × List Char)
  | [] => none
  | '"' :: rest => some ([], rest)
  | '\\' :: 'u' :: a :: b :: c :: d :: rest => cons (scalar? [a, b, c, d]) (takeBasic rest)
  | '\\' :: 'U' :: a :: b :: c :: d :: e :: f :: g :: h :: rest =>
      cons (scalar? [a, b, c, d, e, f, g, h]) (takeBasic rest)
  | '\\' :: e :: rest => cons (escaped? e) (takeBasic rest)
  | c :: rest => if isPrintable c && c != '\\' then cons (some c) (takeBasic rest) else none

/-- Read a string without escapes, on one line, after its opening quote. -/
def takeLiteral : List Char → Option (List Char × List Char)
  | [] => none
  | '\'' :: rest => some ([], rest)
  | c :: rest => if isPrintable c then cons (some c) (takeLiteral rest) else none

/-- What is left after the three quotes that may close a string on several lines. One or two
quotes more belong to the string. -/
def closing (quote : Char) (rest : List Char) : List Char × List Char :=
  match rest with
  | a :: b :: rest' =>
      if a = quote then
        if b = quote then ([quote, quote], rest') else ([quote], b :: rest')
      else ([], rest)
  | [a] => if a = quote then ([quote], []) else ([], rest)
  | [] => ([], [])

/-- Whether a text starts with blanks and then a line break. -/
def breaksLine (cs : List Char) : Bool :=
  match cs.dropWhile isBlank with
  | '\n' :: _ => true
  | '\r' :: '\n' :: _ => true
  | _ => false

/-- Read a string with escapes, on several lines, after its opening quotes. A backslash at the end
of a line takes away the line break and all blanks and line breaks after it; `skipping` says
that this is going on. -/
def takeBasicLines (skipping : Bool) : List Char → Option (List Char × List Char)
  | [] => none
  | '"' :: '"' :: '"' :: rest => some (closing '"' rest)
  | '\\' :: 'u' :: a :: b :: c :: d :: rest =>
      cons (scalar? [a, b, c, d]) (takeBasicLines false rest)
  | '\\' :: 'U' :: a :: b :: c :: d :: e :: f :: g :: h :: rest =>
      cons (scalar? [a, b, c, d, e, f, g, h]) (takeBasicLines false rest)
  | '\\' :: e :: rest =>
      if breaksLine (e :: rest) then takeBasicLines true (e :: rest)
      else cons (escaped? e) (takeBasicLines false rest)
  | '\r' :: '\n' :: rest =>
      if skipping then takeBasicLines true rest else cons (some '\n') (takeBasicLines false rest)
  | c :: rest =>
      if skipping && (isBlank c || c = '\n') then takeBasicLines true rest
      else if c = '\n' || (isPrintable c && c != '\\') then cons (some c) (takeBasicLines false rest)
      else none

/-- Read a string without escapes, on several lines, after its opening quotes. -/
def takeLiteralLines : List Char → Option (List Char × List Char)
  | [] => none
  | '\'' :: '\'' :: '\'' :: rest => some (closing '\'' rest)
  | '\r' :: '\n' :: rest => cons (some '\n') (takeLiteralLines rest)
  | c :: rest =>
      if c = '\n' || isPrintable c then cons (some c) (takeLiteralLines rest) else none

/-- Step over one line break. -/
def dropBreak : List Char → List Char
  | '\n' :: rest => rest
  | '\r' :: '\n' :: rest => rest
  | cs => cs

/-- Read a string of any kind. -/
def takeString : List Char → Option (List Char × List Char)
  | '"' :: '"' :: '"' :: rest => takeBasicLines false (dropBreak rest)
  | '"' :: rest => takeBasic rest
  | '\'' :: '\'' :: '\'' :: rest => takeLiteralLines (dropBreak rest)
  | '\'' :: rest => takeLiteral rest
  | _ => none

end Toml

end Gatehouse
