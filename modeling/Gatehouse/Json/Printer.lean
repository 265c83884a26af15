import Gatehouse.Json.Basic
import Gatehouse.Text.Numeral

/-! # Writing JSON

Values are written without blanks. In a string only the quote, the backslash and the control
characters are escaped, so a written value has no line break in it. -/

namespace Gatehouse

namespace Json

/-- A character as it is written in a string. -/
def escape (c : Char) : List Char :=
  match c with
  | '"' => ['\\', '"']
  | '\\' => ['\\', '\\']
  | '\x08' => ['\\', 'b']
  | '\x0c' => ['\\', 'f']
  | '\n' => ['\\', 'n']
  | '\r' => ['\\', 'r']
  | '\t' => ['\\', 't']
  | c =>
      if c.toNat < 0x20 then
        ['\\', 'u', '0', '0', Hex.digit (c.toNat / 16), Hex.digit (c.toNat % 16)]
      else [c]

/-- A value without parts as it is written. A string that spells no text is written as half a
character, and a number that is not known as minus zero. -/
def Atom.chars : Atom → List Char
  | .null => ['n', 'u', 'l', 'l']
  | .bool true => ['t', 'r', 'u', 'e']
  | .bool false => ['f', 'a', 'l', 's', 'e']
  | .number (some n) => Nat.toDigits 10 n.toNat
  | .number none => ['-', '0']
  | .text (some s) => '"' :: (s.toList.flatMap escape ++ ['"'])
  | .text none => ['"', '\\', 'u', 'd', '8', '0', '0', '"']

/-- A token as it is written. -/
def Token.chars : Token → List Char
  | .openArray => ['[']
  | .closeArray => [']']
  | .openObject => ['\x7b']
  | .closeObject => ['\x7d']
  | .comma => [',']
  | .colon => [':']
  | .atom a => a.chars

/-- The characters of a written value. -/
def chars (j : Json) : List Char := j.tokens.flatMap Token.chars

/-- The text of a value. -/
def render (j : Json) : String := String.ofList j.chars

/-- The bytes of a written value. -/
def bytes (j : Json) : Bytes := Utf8.encode j.render

end Json

end Gatehouse
