import Gatehouse.Json.Lexer
import Gatehouse.Json.Printer
import Gatehouse.Proofs.Text.Decimal
import Gatehouse.Proofs.Text.Hex

/-!
# How a value may be laid out

A value is written as its tokens, with any blanks before, between and after them. A token may have
several spellings: a character of a string may be escaped, and a number may have a sign, a fraction
and an exponent. The form without blanks that the printer chooses is one of the layouts.
-/

namespace Gatehouse

namespace Json

/-! ## Strings -/

/-- The letters that stand for a character behind a backslash, and the character. -/
def shortEscapes : List (Char × Char) :=
  [('"', '"'), ('\\', '\\'), ('/', '/'), ('b', '\x08'), ('f', '\x0c'), ('n', '\n'), ('r', '\r'),
    ('t', '\t')]

/-- How a piece of a string is written: a character as it is or behind a backslash, and a sixteen-bit
unit in four hexadecimal digits. -/
inductive Piece.Written : Piece → List Char → Prop
  | plain {c : Char} (hquote : c ≠ '"') (hslash : c ≠ '\\') (hvisible : ¬ c.toNat < 0x20) :
      Written (.char c) [c]
  | short {e c : Char} (h : (e, c) ∈ shortEscapes) : Written (.char c) ['\\', e]
  | unit {a b c d : Char} (h : ∀ x ∈ [a, b, c, d], Hex.isDigit x = true) :
      Written (.unit (Hex.value [a, b, c, d])) ['\\', 'u', a, b, c, d]

/-- How the pieces of a string are written between its quotes. -/
inductive Body : List Piece → List Char → Prop
  | nil : Body [] []
  | cons {p : Piece} {ps : List Piece} {cs rest : List Char} (hp : p.Written cs) (hps : Body ps rest) :
      Body (p :: ps) (cs ++ rest)

/-- What the pieces of a string spell. A unit is a character, unless it is one half of a character;
then the other half comes next. -/
inductive Piece.Spells : List Piece → List Char → Prop
  | nil : Spells [] []
  | char {c : Char} {ps : List Piece} {cs : List Char} (h : Spells ps cs) :
      Spells (.char c :: ps) (c :: cs)
  | unit {n : Nat} {ps : List Piece} {cs : List Char} (hwhole : ¬ (0xD800 ≤ n ∧ n < 0xE000))
      (h : Spells ps cs) : Spells (.unit n :: ps) (Char.ofNat n :: cs)
  | halves {m n : Nat} {ps : List Piece} {cs : List Char} (hhigh : 0xD800 ≤ m ∧ m < 0xDC00)
      (hlow : 0xDC00 ≤ n ∧ n < 0xE000) (h : Spells ps cs) :
      Spells (.unit m :: .unit n :: ps)
        (Char.ofNat (0x10000 + (m - 0xD800) * 0x400 + (n - 0xDC00)) :: cs)

/-! ## Numbers -/

/-- An exponent as it is written. -/
structure Exponent where
  mark : Char
  sign : Option Char
  digits : List Char
  mark_eq : mark = 'e' ∨ mark = 'E'
  sign_eq : ∀ c ∈ sign, c = '+' ∨ c = '-'
  isNumeral : Decimal.isNumeral digits = true

/-- The characters of an exponent. -/
def Exponent.chars (x : Exponent) : List Char := x.mark :: (x.sign.toList ++ x.digits)

/-- A number as it is written. Its digits start with a zero only if they are a zero. -/
structure Numeral where
  negative : Bool
  whole : List Char
  fraction : Option (List Char)
  exponent : Option Exponent
  isNumeral_whole : Decimal.isNumeral whole = true
  whole_of_zero : whole.head? = some '0' → whole = ['0']
  isNumeral_fraction : ∀ ds ∈ fraction, Decimal.isNumeral ds = true

namespace Numeral

/-- The characters of a number behind its sign. -/
def unsigned (x : Numeral) : List Char :=
  x.whole ++ ((x.fraction.elim [] ('.' :: ·)) ++ x.exponent.elim [] Exponent.chars)

/-- The characters of a number. -/
def chars (x : Numeral) : List Char := if x.negative then '-' :: x.unsigned else x.unsigned

/-- What is known of a number: its value, if it is made of digits alone and a word can hold it. -/
def value? (x : Numeral) : Option UInt64 :=
  if x.negative || x.fraction.isSome || x.exponent.isSome then none
  else if Decimal.value x.whole < UInt64.size then some (UInt64.ofNat (Decimal.value x.whole))
  else none

end Numeral

/-! ## Tokens -/

/-- The tokens of one character. -/
def marks : List (Char × Token) :=
  [('[', .openArray), (']', .closeArray), ('\x7b', .openObject), ('\x7d', .closeObject),
    (',', .comma), (':', .colon)]

/-- How a token is spelled. A string whose pieces spell nothing is a string all the same. -/
inductive Token.Spelled : Token → List Char → Prop
  | mark {c : Char} {t : Token} (h : (c, t) ∈ marks) : Spelled t [c]
  | null : Spelled (.atom .null) ['n', 'u', 'l', 'l']
  | bool (b : Bool) :
      Spelled (.atom (.bool b)) (if b then ['t', 'r', 'u', 'e'] else ['f', 'a', 'l', 's', 'e'])
  | number (x : Numeral) : Spelled (.atom (.number x.value?)) x.chars
  | text {ps : List Piece} {body cs : List Char} (hbody : Body ps body) (hspells : Piece.Spells ps cs) :
      Spelled (.atom (.text (some (String.ofList cs)))) ('"' :: (body ++ ['"']))
  | noText {ps : List Piece} {body : List Char} (hbody : Body ps body)
      (hspells : ∀ cs, ¬ Piece.Spells ps cs) :
      Spelled (.atom (.text none)) ('"' :: (body ++ ['"']))

/-- Characters that may stand between tokens. -/
def Blanks (cs : List Char) : Prop := ∀ c ∈ cs, c = ' ' ∨ c = '\n' ∨ c = '\r' ∨ c = '\t'

/-- How tokens are laid out, with blanks around each of them. -/
inductive Laid : List Token → List Char → Prop
  | nil {blanks : List Char} (hblanks : Blanks blanks) : Laid [] blanks
  | cons {blanks cs rest : List Char} {t : Token} {ts : List Token}
      (hblanks : Blanks blanks) (ht : t.Spelled cs) (hts : Laid ts rest) :
      Laid (t :: ts) (blanks ++ (cs ++ rest))

/-- A text writes a value if it is a layout of the value's tokens. -/
def Writes (text : String) (j : Json) : Prop := Laid j.tokens text.toList

/-! ## The printed layout -/

/-- The piece that a printed character is. -/
def pieceOf (c : Char) : Piece :=
  if c.toNat < 0x20 ∧ c ≠ '\x08' ∧ c ≠ '\x0c' ∧ c ≠ '\n' ∧ c ≠ '\r' ∧ c ≠ '\t' then .unit c.toNat
  else .char c

/-- Two zeros and two digits write a number below 256. -/
theorem value_digits {n : Nat} (h : n < 256) :
    Hex.value ['0', '0', Hex.digit (n / 16), Hex.digit (n % 16)] = n := by
  have hzero : Hex.digitValue '0' = 0 := by decide
  simp only [Hex.value, Hex.valueIn, List.foldl_cons, List.foldl_nil, hzero]
  rw [Hex.digitValue_digit (by omega), Hex.digitValue_digit (by omega)]
  omega

theorem written_escape (c : Char) : (pieceOf c).Written (escape c) := by
  unfold escape
  split
  case h_8 _ hquote hslash hb hf hn hr ht =>
    split
    case isTrue hlow =>
      have hpiece : pieceOf c = .unit c.toNat := if_pos ⟨hlow, hb, hf, hn, hr, ht⟩
      have hbound : c.toNat < 256 := Nat.lt_trans hlow (by decide)
      have hdigits : ∀ x ∈ ['0', '0', Hex.digit (c.toNat / 16), Hex.digit (c.toNat % 16)],
          Hex.isDigit x = true := by
        simp only [List.mem_cons, List.not_mem_nil, or_false, forall_eq_or_imp, forall_eq]
        exact ⟨by decide, by decide, Hex.isDigit_digit (by omega), Hex.isDigit_digit (by omega)⟩
      have hunit := Piece.Written.unit hdigits
      rw [value_digits hbound] at hunit
      rw [hpiece]
      exact hunit
    case isFalse hhigh =>
      have hpiece : pieceOf c = .char c := if_neg fun h => hhigh h.1
      rw [hpiece]
      exact .plain hquote hslash hhigh
  all_goals exact .short (by decide)

theorem body_flatMap (cs : List Char) : Body (cs.map pieceOf) (cs.flatMap escape) := by
  induction cs with
  | nil => exact .nil
  | cons c cs ih => exact .cons (written_escape c) ih

theorem spells_pieces (cs : List Char) : Piece.Spells (cs.map pieceOf) cs := by
  induction cs with
  | nil => exact .nil
  | cons c cs ih =>
      rw [List.map_cons]
      unfold pieceOf
      split
      · rename_i hlow
        have hwhole : ¬ (0xD800 ≤ c.toNat ∧ c.toNat < 0xE000) := fun h => by
          have hsmall := hlow.1
          omega
        have hunit := Piece.Spells.unit hwhole ih
        rw [Char.ofNat_toNat] at hunit
        exact hunit
      · exact .char ih

/-- A word as it is printed. -/
def Numeral.ofWord (n : UInt64) : Numeral where
  negative := false
  whole := Nat.toDigits 10 n.toNat
  fraction := none
  exponent := none
  isNumeral_whole := Decimal.isNumeral_toDigits n.toNat
  whole_of_zero h := by
    have hn : n.toNat = 0 := Nat.eq_zero_of_not_pos fun hpos => Decimal.head?_toDigits hpos h
    rw [hn]
    rfl
  isNumeral_fraction := nofun

theorem Numeral.value?_ofWord (n : UInt64) : (Numeral.ofWord n).value? = some n := by
  have hlt : n.toNat < UInt64.size := n.toNat_lt_size
  simp only [value?, ofWord, Decimal.value_toDigits, hlt, Option.isSome_none, Bool.or_self,
    Bool.false_eq_true, ↓reduceIte, UInt64.ofNat_toNat]

/-- Minus zero, which stands for every number that is not known. -/
def Numeral.minusZero : Numeral where
  negative := true
  whole := ['0']
  fraction := none
  exponent := none
  isNumeral_whole := rfl
  whole_of_zero _ := rfl
  isNumeral_fraction := nofun

/-- A token is spelled as it is printed. -/
theorem spelled_chars (t : Token) : t.Spelled t.chars := by
  cases t with
  | atom a =>
      cases a with
      | null => exact .null
      | bool b =>
          cases b with
          | false => exact .bool false
          | true => exact .bool true
      | number n =>
          cases n with
          | none => exact .number Numeral.minusZero
          | some n =>
              have hspelled := Token.Spelled.number (Numeral.ofWord n)
              rw [Numeral.value?_ofWord] at hspelled
              have hchars : (Numeral.ofWord n).chars = (Token.atom (.number (some n))).chars :=
                List.append_nil _
              rw [hchars] at hspelled
              exact hspelled
      | text s =>
          cases s with
          | none =>
              have hunit : Piece.Written (.unit (Hex.value ['d', '8', '0', '0']))
                  ['\\', 'u', 'd', '8', '0', '0'] := .unit (List.all_eq_true.1 (by decide))
              refine .noText (.cons hunit .nil) ?_
              intro cs hspells
              cases hspells with
              | unit hwhole _ => exact hwhole (by decide)
          | some s =>
              have hspelled := Token.Spelled.text (body_flatMap s.toList) (spells_pieces s.toList)
              rw [String.ofList_toList] at hspelled
              exact hspelled
  | _ => exact .mark (by decide)

/-- The printer writes the tokens one after the other. -/
theorem laid_chars (ts : List Token) : Laid ts (ts.flatMap Token.chars) := by
  induction ts with
  | nil => exact .nil nofun
  | cons t ts ih => exact @Laid.cons [] _ _ _ _ nofun (spelled_chars t) ih

theorem writes_render (j : Json) : Writes j.render j := by
  unfold Writes render
  rw [String.toList_ofList]
  exact laid_chars j.tokens

end Json

end Gatehouse
