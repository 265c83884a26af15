import Gatehouse.Json.Basic
import Gatehouse.Text.Numeral

/-! # Reading JSON tokens

The lexer works on scanned text, in which a malformed byte sequence is marked. Such a mark is
allowed inside a string, which then spells no text, and nowhere else. -/

namespace Gatehouse

namespace Json

/-- A scanned text. -/
abbrev Scanned := List (Option Char)

/-- What stands in a string between its quotes: a character, a sixteen-bit unit written as an
escape, or a malformed piece. -/
inductive Piece
  | char (c : Char)
  | unit (n : Nat)
  | malformed
  deriving DecidableEq, Repr

namespace Piece

/-- The characters that some pieces spell. Two units that are halves of one character join; a
half without its partner spells nothing. -/
def spell? : List Piece → Option (List Char)
  | [] => some []
  | .char c :: rest => (spell? rest).map (c :: ·)
  | .malformed :: _ => none
  | [.unit n] => if 0xD800 ≤ n ∧ n < 0xE000 then none else some [Char.ofNat n]
  | .unit n :: p :: rest =>
      if 0xD800 ≤ n ∧ n < 0xDC00 then
        match p with
        | .unit m =>
            if 0xDC00 ≤ m ∧ m < 0xE000 then
              (spell? rest).map
                (Char.ofNat (0x10000 + (n - 0xD800) * 0x400 + (m - 0xDC00)) :: ·)
            else none
        | _ => none
      else if 0xDC00 ≤ n ∧ n < 0xE000 then none
      else (spell? (p :: rest)).map (Char.ofNat n :: ·)

end Piece

/-- The character that a one-letter escape stands for. -/
def escaped? (c : Char) : Option Char :=
  match c with
  | '"' => some '"'
  | '\\' => some '\\'
  | '/' => some '/'
  | 'b' => some '\x08'
  | 'f' => some '\x0c'
  | 'n' => some '\n'
  | 'r' => some '\r'
  | 't' => some '\t'
  | _ => none

/-- The number that four hexadecimal digits write. -/
def unit? (a b c d : Option Char) : Option Nat :=
  match a, b, c, d with
  | some a, some b, some c, some d =>
      if Hex.isDigit a && Hex.isDigit b && Hex.isDigit c && Hex.isDigit d then
        some (Hex.value [a, b, c, d])
      else none
  | _, _, _, _ => none

/-- Read a string after its opening quote. -/
def takeString : Scanned → Option (List Piece × Scanned)
  | [] => none
  | none :: rest => (takeString rest).map fun r => (.malformed :: r.1, r.2)
  | some '"' :: rest => some ([], rest)
  | some '\\' :: some 'u' :: a :: b :: c :: d :: rest =>
      match unit? a b c d with
      | none => none
      | some n => (takeString rest).map fun r => (.unit n :: r.1, r.2)
  | some '\\' :: some e :: rest =>
      match escaped? e with
      | none => none
      | some c => (takeString rest).map fun r => (.char c :: r.1, r.2)
  | some c :: rest =>
      if c.toNat < 0x20 ∨ c = '\\' then none
      else (takeString rest).map fun r => (.char c :: r.1, r.2)

/-- The digits at the start of a text. -/
def takeDigits : Scanned → List Char × Scanned
  | some c :: rest =>
      if c.isDigit then
        let (ds, rest') := takeDigits rest
        (c :: ds, rest')
      else ([], some c :: rest)
  | cs => ([], cs)

/-- Read the fraction of a number, if there is one; the flag says so. -/
def takeFraction (cs : Scanned) : Option (Bool × Scanned) :=
  match cs with
  | some '.' :: rest =>
      match takeDigits rest with
      | ([], _) => none
      | (_, rest') => some (true, rest')
  | _ => some (false, cs)

/-- Step over the sign of an exponent. -/
def dropSign : Scanned → Scanned
  | some '+' :: rest => rest
  | some '-' :: rest => rest
  | cs => cs

/-- Read the exponent of a number, if there is one; the flag says so. -/
def takeExponent (cs : Scanned) : Option (Bool × Scanned) :=
  match cs with
  | some c :: rest =>
      if c = 'e' ∨ c = 'E' then
        match takeDigits (dropSign rest) with
        | ([], _) => none
        | (_, rest') => some (true, rest')
      else some (false, cs)
  | _ => some (false, cs)

/-- The value of an unsigned whole numeral, if a word can hold it. -/
def whole? (ds : List Char) : Option UInt64 :=
  let n := ds.foldl (fun n c => n * 10 + (c.toNat - '0'.toNat)) 0
  if n < UInt64.size then some (UInt64.ofNat n) else none

/-- Read a number without its sign. -/
def takeUnsigned (cs : Scanned) : Option (Option UInt64 × Scanned) :=
  match takeDigits cs with
  | (ds, rest) =>
      if ds.isEmpty ∨ (ds.head? = some '0' ∧ 1 < ds.length) then none
      else
        match takeFraction rest with
        | none => none
        | some (fraction, rest) =>
            match takeExponent rest with
            | none => none
            | some (exponent, rest) =>
                some (if fraction || exponent then none else whole? ds, rest)

/-- Read a number. One with a sign is not known. -/
def takeNumber : Scanned → Option (Option UInt64 × Scanned)
  | some '-' :: rest => (takeUnsigned rest).map fun r => (none, r.2)
  | cs => takeUnsigned cs

/-- The token that one character makes. -/
def punctuation? (c : Char) : Option Token :=
  match c with
  | '[' => some .openArray
  | ']' => some .closeArray
  | '\x7b' => some .openObject
  | '\x7d' => some .closeObject
  | ',' => some .comma
  | ':' => some .colon
  | _ => none

/-- Whether a character may stand between tokens. -/
def isBlank (c : Char) : Bool := c = ' ' || c = '\n' || c = '\r' || c = '\t'

/-- Read the token at the start of a text that starts with no blank. -/
def takeToken (cs : Scanned) : Option (Token × Scanned) :=
  match cs with
  | some 't' :: some 'r' :: some 'u' :: some 'e' :: rest => some (.atom (.bool true), rest)
  | some 'f' :: some 'a' :: some 'l' :: some 's' :: some 'e' :: rest =>
      some (.atom (.bool false), rest)
  | some 'n' :: some 'u' :: some 'l' :: some 'l' :: rest => some (.atom .null, rest)
  | some '"' :: rest =>
      (takeString rest).map fun r => (.atom (.text ((Piece.spell? r.1).map String.ofList)), r.2)
  | some c :: rest =>
      match punctuation? c with
      | some t => some (t, rest)
      | none => (takeNumber cs).map fun r => (.atom (.number r.1), r.2)
  | _ => none

theorem length_takeString {cs : Scanned} {r : List Piece × Scanned} (h : takeString cs = some r) :
    r.2.length < cs.length := by
  fun_induction takeString cs generalizing r <;>
    simp only [Option.map_eq_some_iff, reduceCtorEq, Option.some.injEq] at h
  all_goals
    obtain ⟨a, ha, rfl⟩ := h
    simp only [List.length_cons]
    grind

theorem length_takeDigits (cs : Scanned) :
    (takeDigits cs).2.length + (takeDigits cs).1.length = cs.length := by
  fun_induction takeDigits cs <;> simp_all
  omega

theorem length_takeFraction {cs : Scanned} {r : Bool × Scanned} (h : takeFraction cs = some r) :
    r.2.length ≤ cs.length := by
  unfold takeFraction at h
  split at h
  · rename_i rest
    have := length_takeDigits rest
    split at h
    · simp at h
    · simp only [Option.some.injEq] at h
      subst h
      simp_all
      omega
  · simp only [Option.some.injEq] at h
    subst h
    simp

theorem length_dropSign (cs : Scanned) : (dropSign cs).length ≤ cs.length := by
  unfold dropSign
  split <;> simp

theorem length_takeExponent {cs : Scanned} {r : Bool × Scanned} (h : takeExponent cs = some r) :
    r.2.length ≤ cs.length := by
  unfold takeExponent at h
  split at h
  · rename_i c rest
    have h1 := length_takeDigits (dropSign rest)
    have h2 := length_dropSign rest
    split at h
    · split at h
      · simp at h
      · simp only [Option.some.injEq] at h
        subst h
        simp_all
        omega
    · simp only [Option.some.injEq] at h
      subst h
      simp
  · simp only [Option.some.injEq] at h
    subst h
    simp

theorem length_takeUnsigned {cs : Scanned} {r : Option UInt64 × Scanned}
    (h : takeUnsigned cs = some r) : r.2.length < cs.length := by
  unfold takeUnsigned at h
  have hd := length_takeDigits cs
  split at h
  rename_i ds rest heq
  rw [heq] at hd
  split at h
  · simp at h
  · rename_i hne
    split at h
    · simp at h
    · rename_i hf
      have hf' := length_takeFraction hf
      split at h
      · simp at h
      · rename_i he
        have he' := length_takeExponent he
        simp only [Option.some.injEq] at h
        subst h
        have : ds ≠ [] := by
          rintro rfl
          simp at hne
        have := List.length_pos_iff.2 this
        simp only at *
        omega

theorem length_takeNumber {cs : Scanned} {r : Option UInt64 × Scanned}
    (h : takeNumber cs = some r) : r.2.length < cs.length := by
  unfold takeNumber at h
  split at h
  · obtain ⟨a, ha, rfl⟩ := Option.map_eq_some_iff.1 h
    have := length_takeUnsigned ha
    simp only [List.length_cons]
    omega
  · exact length_takeUnsigned h

theorem length_takeToken {cs : Scanned} {r : Token × Scanned} (h : takeToken cs = some r) :
    r.2.length < cs.length := by
  unfold takeToken at h
  split at h
  · simp only [Option.some.injEq] at h; subst h; simp; omega
  · simp only [Option.some.injEq] at h; subst h; simp; omega
  · simp only [Option.some.injEq] at h; subst h; simp; omega
  · obtain ⟨a, ha, rfl⟩ := Option.map_eq_some_iff.1 h
    have := length_takeString ha
    simp only [List.length_cons]
    omega
  · split at h
    · simp only [Option.some.injEq] at h; subst h; simp
    · obtain ⟨a, ha, rfl⟩ := Option.map_eq_some_iff.1 h
      exact length_takeNumber ha
  · simp at h

/-- The tokens of a text, if it is made of tokens and blanks. -/
def lex? (cs : Scanned) : Option (List Token) :=
  match cs with
  | [] => some []
  | c :: rest =>
      if c.any isBlank then lex? rest
      else
        match _h : takeToken (c :: rest) with
        | none => none
        | some (t, rest') => (lex? rest').map (t :: ·)
  termination_by cs.length
  decreasing_by
    · exact Nat.lt_succ_self _
    · exact length_takeToken ‹_›

end Json

end Gatehouse
