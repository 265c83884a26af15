import Gatehouse.Text.Numeral
import Gatehouse.Toml.Basic
import Gatehouse.Toml.Text

/-! # Numbers and dates of TOML

Whole numbers have sixty-four bits with a sign. Of a float only its form is checked, and that a
positive one is not too great. A date or a time is checked for being one, and its text is brought
into one form. -/

namespace Gatehouse

namespace Toml

/-- Read digits, with single underscores allowed between them. -/
def takeDigits (isDigit : Char → Bool) : List Char → List Char × List Char
  | c :: '_' :: d :: rest =>
      if isDigit c then
        if isDigit d then
          let (ds, rest') := takeDigits isDigit (d :: rest)
          (c :: ds, rest')
        else ([c], '_' :: d :: rest)
      else ([], c :: '_' :: d :: rest)
  | c :: rest =>
      if isDigit c then
        let (ds, rest') := takeDigits isDigit rest
        (c :: ds, rest')
      else ([], c :: rest)
  | [] => ([], [])

/-- A whole number, if it fits into sixty-four bits with a sign. -/
def integer? (n : Int) : Option Toml :=
  if Int64.minValue.toInt ≤ n ∧ n ≤ Int64.maxValue.toInt then some (.integer n) else none

/-- Read the digits of a whole number in another base, after its mark. -/
def takeBased (base : Nat) (isDigit : Char → Bool) (cs : List Char) :
    Option (Toml × List Char) :=
  match takeDigits isDigit cs with
  | ([], _) => none
  | (ds, rest) => (integer? (Hex.valueIn base ds)).map (·, rest)

/-- Read the whole part of a number: no zero stands in front of other digits. -/
def takeWhole (cs : List Char) : List Char × List Char :=
  match cs with
  | '0' :: rest => (['0'], rest)
  | _ => takeDigits Char.isDigit cs

/-- Read a sign; `true` is minus. -/
def takeSign : List Char → Bool × List Char
  | '-' :: rest => (true, rest)
  | '+' :: rest => (false, rest)
  | cs => (false, cs)

/-- The least number that rounds to none of the finite floats of sixty-four bits. -/
def beyondFloats : Nat := Nat.pow 2 1024 - Nat.pow 2 970

/-- Whether `digits * 10 ^ exponent` is too great for a float of sixty-four bits. -/
def tooGreat (digits : Nat) (exponent : Int) : Bool :=
  if digits = 0 then false
  else if (400 : Int) < (Nat.toDigits 10 digits).length + exponent then true
  else if (Nat.toDigits 10 digits).length + exponent < (300 : Int) then false
  else if 0 ≤ exponent then beyondFloats ≤ digits * Nat.pow 10 exponent.toNat
  else beyondFloats * Nat.pow 10 (-exponent).toNat ≤ digits

/-- The exponent of a float: none, the digits after a mark, or a mark without digits. -/
inductive Exponent
  | absent
  | power (n : Int) (rest : List Char)
  | broken

/-- Read the exponent of a float. -/
def takeExponent : List Char → Exponent
  | c :: rest =>
      if c = 'e' ∨ c = 'E' then
        let (negative, rest) := takeSign rest
        match takeDigits Char.isDigit rest with
        | ([], _) => .broken
        | (ds, rest) =>
            .power (if negative then -(Decimal.value ds : Int) else Decimal.value ds) rest
      else .absent
  | [] => .absent

/-- A float with its sign, digits and exponent, unless it is positive and too great. -/
def float? (negative : Bool) (digits : List Char) (exponent : Int) (rest : List Char) :
    Option (Toml × List Char) :=
  if !negative && tooGreat (Decimal.value digits) exponent then none else some (.float, rest)

/-- Read on after the whole part of a number. -/
def takeAfterWhole (negative : Bool) (whole : List Char) (cs : List Char) :
    Option (Toml × List Char) :=
  match cs with
  | '.' :: rest =>
      match takeDigits Char.isDigit rest with
      | ([], _) => none
      | (fraction, rest) =>
          match takeExponent rest with
          | .broken => none
          | .absent => float? negative (whole ++ fraction) (-fraction.length) rest
          | .power n rest => float? negative (whole ++ fraction) (n - fraction.length) rest
  | _ =>
      match takeExponent cs with
      | .broken => none
      | .power n rest => float? negative whole n rest
      | .absent =>
          (integer? (if negative then -(Decimal.value whole : Int) else Decimal.value whole)).map
            (·, cs)

/-- Read a whole number or a float. -/
def takeNumber (cs : List Char) : Option (Toml × List Char) :=
  match cs with
  | '0' :: 'x' :: rest => takeBased 16 Hex.isDigit rest
  | '0' :: 'o' :: rest => takeBased 8 (fun c => '0' ≤ c && c ≤ '7') rest
  | '0' :: 'b' :: rest => takeBased 2 (fun c => c = '0' || c = '1') rest
  | _ =>
      match takeSign cs with
      | (_, 'i' :: 'n' :: 'f' :: rest) => some (.float, rest)
      | (_, 'n' :: 'a' :: 'n' :: rest) => some (.float, rest)
      | (negative, cs) =>
          match takeWhole cs with
          | ([], _) => none
          | (whole, rest) => takeAfterWhole negative whole rest

/-- Read exactly two digits. -/
def takeTwo : List Char → Option (Nat × List Char)
  | a :: b :: rest =>
      if a.isDigit && b.isDigit then some (Decimal.value [a, b], rest) else none
  | _ => none

/-- Step over one character. -/
def drop? (c : Char) : List Char → Option (List Char)
  | d :: rest => if c = d then some rest else none
  | [] => none

/-- How many days a month has. -/
def daysIn (year month : Nat) : Nat :=
  if month = 2 then
    if year % 4 = 0 ∧ (year % 100 ≠ 0 ∨ year % 400 = 0) then 29 else 28
  else if month = 4 ∨ month = 6 ∨ month = 9 ∨ month = 11 then 30
  else 31

/-- Read a date, giving its text. -/
def takeDate (cs : List Char) : Option (List Char × List Char) := do
  let (century, rest) ← takeTwo cs
  let (year, rest) ← takeTwo rest
  let (month, rest) ← takeTwo (← drop? '-' rest)
  let (day, rest) ← takeTwo (← drop? '-' rest)
  if 1 ≤ month ∧ month ≤ 12 ∧ 1 ≤ day ∧ day ≤ daysIn (century * 100 + year) month then
    some (cs.take 10, rest)
  else none

/-- The text of a fraction of a second: a point and up to nine digits without the zeros at their
end, or nothing if none are left. -/
def fractionText (digits : List Char) : List Char :=
  match ((digits.take 9).reverse.dropWhile (fun c => c = '0')).reverse with
  | [] => []
  | kept => '.' :: kept

/-- Read a fraction of a second, if there is one. -/
def takeSplit (cs : List Char) : List Char × List Char :=
  match cs with
  | '.' :: c :: rest =>
      if c.isDigit then
        (fractionText ((c :: rest).takeWhile Char.isDigit), rest.dropWhile Char.isDigit)
      else ([], cs)
  | _ => ([], cs)

/-- Read a time, giving its text. A minute may have a sixty-first second. -/
def takeTime (cs : List Char) : Option (List Char × List Char) := do
  let (hour, rest) ← takeTwo cs
  let (minute, rest) ← takeTwo (← drop? ':' rest)
  let (second, rest) ← takeTwo (← drop? ':' rest)
  if hour ≤ 23 ∧ minute ≤ 59 ∧ second ≤ 60 then
    some (cs.take 8 ++ (takeSplit rest).1, (takeSplit rest).2)
  else none

/-- Read the distance from universal time in hours and minutes, after its sign. There is only one
way to write none. -/
def takeDistance (sign : Char) (cs : List Char) : Option (List Char × List Char) := do
  let (hour, rest) ← takeTwo cs
  let (minute, rest) ← takeTwo (← drop? ':' rest)
  if hour ≤ 23 ∧ minute ≤ 59 then
    some ((if hour = 0 ∧ minute = 0 then '+' else sign) :: cs.take 5, rest)
  else none

/-- Read an offset from universal time, if there is one. -/
def takeOffset (cs : List Char) : List Char × List Char :=
  match cs with
  | c :: rest =>
      if c = 'Z' ∨ c = 'z' then (['Z'], rest)
      else if c = '+' ∨ c = '-' then (takeDistance c rest).getD ([], cs)
      else ([], cs)
  | [] => ([], cs)

/-- Read the time that follows a date, if there is one. -/
def takeDayTime (cs : List Char) : List Char × List Char :=
  match cs with
  | c :: rest =>
      if c = 'T' ∨ c = 't' ∨ c = ' ' then
        match takeTime rest with
        | some (time, rest') => ('T' :: time ++ (takeOffset rest').1, (takeOffset rest').2)
        | none => ([], cs)
      else ([], cs)
  | [] => ([], cs)

/-- Read a date, a time or both, giving the text. -/
def takeDatetime (cs : List Char) : Option (List Char × List Char) :=
  match takeDate cs with
  | some (date, rest) => some (date ++ (takeDayTime rest).1, (takeDayTime rest).2)
  | none => takeTime cs

end Toml

end Gatehouse
