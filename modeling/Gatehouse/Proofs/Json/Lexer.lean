import Gatehouse.Proofs.Json.Layout
import Mathlib.Data.List.Chain

/-!
# Tokens are read back from every layout

The lexer finds each token of a layout again, provided that what follows a number cannot extend it.
The tokens of a value keep to this: a mark stands behind every atom.
-/

namespace Gatehouse

namespace Json

/-! ## Strings -/

theorem takeString_char {c : Char} (hquote : c ≠ '"') (hslash : c ≠ '\\') (hlow : ¬ c.toNat < 0x20)
    (rest : Scanned) :
    takeString (some c :: rest) = (takeString rest).map fun r => (.char c :: r.1, r.2) := by
  have hkeep : ¬ (c.toNat < 0x20 ∨ c = '\\') := not_or.2 ⟨hlow, hslash⟩
  rw [takeString, if_neg hkeep]
  · exact hquote
  · exact fun _ _ _ _ _ _ hc => hslash hc
  · exact fun _ _ _ hc => hslash hc

/-- A written piece is read as that piece. -/
theorem takeString_written {p : Piece} {cs : List Char} (hp : p.Written cs) (rest : Scanned) :
    takeString (cs.map some ++ rest) = (takeString rest).map fun r => (p :: r.1, r.2) := by
  cases hp with
  | plain hquote hslash hvisible => exact takeString_char hquote hslash hvisible rest
  | @short e c h =>
      simp only [shortEscapes, List.mem_cons, Prod.mk.injEq, List.not_mem_nil, or_false] at h
      rcases h with ⟨rfl, rfl⟩ | ⟨rfl, rfl⟩ | ⟨rfl, rfl⟩ | ⟨rfl, rfl⟩ | ⟨rfl, rfl⟩ | ⟨rfl, rfl⟩ |
        ⟨rfl, rfl⟩ | ⟨rfl, rfl⟩
      all_goals rfl
  | @unit a b c d h =>
      simp only [List.mem_cons, List.not_mem_nil, or_false, forall_eq_or_imp, forall_eq] at h
      obtain ⟨ha, hb, hc, hd⟩ := h
      simp only [List.map_cons, List.map_nil, List.cons_append, List.nil_append, takeString, unit?,
        ha, hb, hc, hd, Bool.and_self, ↓reduceIte]

/-- The pieces of a string are read up to its closing quote. -/
theorem takeString_body {ps : List Piece} {cs : List Char} (h : Body ps cs) (rest : Scanned) :
    takeString (cs.map some ++ some '"' :: rest) = some (ps, rest) := by
  induction h with
  | nil => simp [takeString]
  | cons hp _ ih =>
      rw [List.map_append, List.append_assoc, takeString_written hp, ih]
      rfl

namespace Piece

theorem spell?_unit {n : Nat} (h : ¬ (0xD800 ≤ n ∧ n < 0xE000)) (ps : List Piece) :
    spell? (.unit n :: ps) = (spell? ps).map (Char.ofNat n :: ·) := by
  have hhigh : ¬ (0xD800 ≤ n ∧ n < 0xDC00) := by omega
  have hlow : ¬ (0xDC00 ≤ n ∧ n < 0xE000) := by omega
  cases ps with
  | nil => simp only [spell?, h, ↓reduceIte, Option.map_some]
  | cons p ps => simp only [spell?, hhigh, hlow, ↓reduceIte]

/-- What pieces are found to spell is what they spell. -/
theorem spell?_eq_some {ps : List Piece} {cs : List Char} : spell? ps = some cs ↔ Spells ps cs := by
  constructor
  · intro h
    induction ps using spell?.induct generalizing cs with
    | case1 =>
        cases h
        exact .nil
    | case2 c rest ih =>
        obtain ⟨cs', hcs', rfl⟩ := Option.map_eq_some_iff.1 h
        exact .char (ih hcs')
    | case3 rest => cases h
    | case4 n hhalf =>
        simp only [spell?, hhalf, and_self, ↓reduceIte] at h
        cases h
    | case5 n hwhole =>
        rw [spell?, if_neg hwhole] at h
        cases h
        exact .unit hwhole .nil
    | case6 n rest hhigh m hlow ih =>
        simp only [spell?, hhigh, hlow, and_self, ↓reduceIte] at h
        obtain ⟨cs', hcs', rfl⟩ := Option.map_eq_some_iff.1 h
        exact .halves hhigh hlow (ih hcs')
    | case7 n rest hhigh m hlow =>
        simp only [spell?, hhigh, hlow, and_self, ↓reduceIte] at h
        cases h
    | case8 n p rest hhigh hother =>
        rw [spell?, if_pos hhigh] at h
        · cases h
        · exact hother
    | case9 n p rest hhigh hlow =>
        have hnone : spell? (.unit n :: p :: rest) = none := by
          cases p with
          | _ => simp only [spell?, hhigh, hlow, and_self, ↓reduceIte]
        cases hnone.symm.trans h
    | case10 n p rest hhigh hlow ih =>
        have hwhole : ¬ (0xD800 ≤ n ∧ n < 0xE000) := by omega
        rw [spell?_unit hwhole] at h
        obtain ⟨cs', hcs', rfl⟩ := Option.map_eq_some_iff.1 h
        exact .unit hwhole (ih hcs')
  · intro h
    induction h with
    | nil => rfl
    | char _ ih => rw [spell?, ih, Option.map_some]
    | unit hwhole _ ih => rw [spell?_unit hwhole, ih, Option.map_some]
    | halves hhigh hlow _ ih =>
        simp only [spell?, hhigh, hlow, and_self, ↓reduceIte, ih, Option.map_some]

end Piece

/-! ## Numbers -/

/-- Scanned text does not go on with some character. -/
def Avoids (P : Char → Prop) (cs : Scanned) : Prop := ∀ c rest, cs = some c :: rest → ¬ P c

variable {P : Char → Prop} {rest : Scanned}

theorem Avoids.mono {Q : Char → Prop} (h : Avoids P rest) (hQ : ∀ c, Q c → P c) : Avoids Q rest :=
  fun c rest' heq hc => h c rest' heq (hQ c hc)

theorem avoids_nil : Avoids P [] := nofun

theorem avoids_cons {c : Char} (h : ¬ P c) (rest : Scanned) : Avoids P (some c :: rest) := by
  rintro c' rest' heq
  cases heq
  exact h

/-- A character can extend a number. -/
def Extends (c : Char) : Prop := c.isDigit = true ∨ c = '.' ∨ c = 'e' ∨ c = 'E'

theorem takeDigits_of_avoids (h : Avoids (·.isDigit = true) rest) : takeDigits rest = ([], rest) := by
  unfold takeDigits
  split
  · rename_i c rest'
    rw [if_neg (h c rest' rfl)]
  · rfl

/-- Digits are read up to something that is no digit. -/
theorem takeDigits_append {ds : List Char} (hds : Decimal.isNumeral ds = true)
    (h : Avoids (·.isDigit = true) rest) : takeDigits (ds.map some ++ rest) = (ds, rest) := by
  have hall : ∀ c ∈ ds, c.isDigit = true := List.all_eq_true.1 (Bool.and_eq_true_iff.1 hds).2
  clear hds
  induction ds with
  | nil => exact takeDigits_of_avoids h
  | cons d ds ih =>
      have hd : d.isDigit = true := hall d List.mem_cons_self
      have hrest := ih fun c hc => hall c (List.mem_cons_of_mem d hc)
      simp only [List.map_cons, List.cons_append, takeDigits, hd, hrest, ↓reduceIte]

theorem exists_cons_of_isNumeral {ds : List Char} (h : Decimal.isNumeral ds = true) :
    ∃ d ds', ds = d :: ds' ∧ d.isDigit = true := by
  obtain ⟨hne, hall⟩ := Bool.and_eq_true_iff.1 h
  cases ds with
  | nil => cases hne
  | cons d ds => exact ⟨d, ds, rfl, List.all_eq_true.1 hall d List.mem_cons_self⟩

theorem takeFraction_of_avoids (h : Avoids (· = '.') rest) : takeFraction rest = some (false, rest) := by
  unfold takeFraction
  split
  · rename_i rest'
    exact absurd rfl (h '.' rest' rfl)
  · rfl

/-- A fraction is read where there is one. -/
theorem takeFraction_append {fraction : Option (List Char)}
    (hfraction : ∀ ds ∈ fraction, Decimal.isNumeral ds = true)
    (h : Avoids (fun c => c.isDigit = true ∨ c = '.') rest) :
    takeFraction ((fraction.elim [] ('.' :: ·)).map some ++ rest) = some (fraction.isSome, rest) := by
  cases fraction with
  | none => exact takeFraction_of_avoids (h.mono fun _ => .inr)
  | some ds =>
      have hds := hfraction ds rfl
      obtain ⟨d, ds', rfl, -⟩ := exists_cons_of_isNumeral hds
      have hdigits := takeDigits_append hds (h.mono fun _ => .inl)
      simp only [Option.elim_some, List.map_cons, List.cons_append, takeFraction, Option.isSome_some]
      rw [List.map_cons, List.cons_append] at hdigits
      rw [hdigits]

theorem takeExponent_of_avoids (h : Avoids (fun c => c = 'e' ∨ c = 'E') rest) :
    takeExponent rest = some (false, rest) := by
  unfold takeExponent
  split
  · rename_i c rest'
    rw [if_neg (h c rest' rfl)]
  · rfl

theorem dropSign_append {sign : Option Char} (hsign : ∀ c ∈ sign, c = '+' ∨ c = '-') {ds : List Char}
    (hds : Decimal.isNumeral ds = true) :
    dropSign ((sign.toList ++ ds).map some ++ rest) = ds.map some ++ rest := by
  cases sign with
  | none =>
      obtain ⟨d, ds', rfl, hd⟩ := exists_cons_of_isNumeral hds
      simp only [Option.toList_none, List.nil_append, List.map_cons, List.cons_append]
      unfold dropSign
      split
      · rename_i heq
        cases heq
        cases hd
      · rename_i heq
        cases heq
        cases hd
      · rfl
  | some c =>
      rcases hsign c rfl with rfl | rfl
      · rfl
      · rfl

/-- An exponent is read where there is one. -/
theorem takeExponent_append (exponent : Option Exponent) (h : Avoids Extends rest) :
    takeExponent ((exponent.elim [] Exponent.chars).map some ++ rest) =
      some (exponent.isSome, rest) := by
  cases exponent with
  | none => exact takeExponent_of_avoids (h.mono fun _ hc => .inr (.inr hc))
  | some x =>
      have hdigits := takeDigits_append x.isNumeral (h.mono fun _ => .inl)
      obtain ⟨d, ds', hcons, -⟩ := exists_cons_of_isNumeral x.isNumeral
      simp only [Option.elim_some, Exponent.chars, List.map_cons, List.cons_append, takeExponent,
        x.mark_eq, ↓reduceIte, Option.isSome_some, dropSign_append x.sign_eq x.isNumeral, hdigits]
      rw [hcons]

theorem avoids_exponent (exponent : Option Exponent) (h : Avoids Extends rest) :
    Avoids (fun c => c.isDigit = true ∨ c = '.')
      ((exponent.elim [] Exponent.chars).map some ++ rest) := by
  cases exponent with
  | none => exact h.mono fun c hc => hc.imp_right .inl
  | some x =>
      refine avoids_cons ?_ _
      rcases x.mark_eq with hmark | hmark
      · rw [hmark]
        decide
      · rw [hmark]
        decide

theorem avoids_fraction (fraction : Option (List Char))
    (h : Avoids (fun c => c.isDigit = true ∨ c = '.') rest) :
    Avoids (·.isDigit = true) ((fraction.elim [] ('.' :: ·)).map some ++ rest) := by
  cases fraction with
  | none => exact h.mono fun _ => .inl
  | some ds => exact avoids_cons (by decide) _

/-- A number is read, behind its sign, up to something that cannot extend it. -/
theorem takeUnsigned_append (x : Numeral) (h : Avoids Extends rest) :
    takeUnsigned (x.unsigned.map some ++ rest) =
      some (if x.fraction.isSome || x.exponent.isSome then none else whole? x.whole, rest) := by
  have hexponent := avoids_exponent x.exponent h
  have hdigits := takeDigits_append x.isNumeral_whole (avoids_fraction x.fraction hexponent)
  have hfraction := takeFraction_append x.isNumeral_fraction hexponent
  have hzero : ¬ (x.whole.isEmpty = true ∨ (x.whole.head? = some '0' ∧ 1 < x.whole.length)) := by
    rintro (hempty | ⟨hhead, hlong⟩)
    · obtain ⟨d, ds, hcons, -⟩ := exists_cons_of_isNumeral x.isNumeral_whole
      rw [hcons] at hempty
      cases hempty
    · rw [x.whole_of_zero hhead] at hlong
      exact absurd hlong (by decide)
  simp only [Numeral.unsigned, List.map_append, List.append_assoc, takeUnsigned, hdigits, hzero,
    ↓reduceIte, hfraction, takeExponent_append x.exponent h]

theorem takeNumber_digit {d : Char} (hd : d.isDigit = true) (rest : Scanned) :
    takeNumber (some d :: rest) = takeUnsigned (some d :: rest) := by
  unfold takeNumber
  split
  · rename_i heq
    cases heq
    cases hd
  · rfl

theorem exists_unsigned_eq_cons (x : Numeral) :
    ∃ d cs, x.unsigned = d :: cs ∧ d.isDigit = true := by
  obtain ⟨d, ds, hcons, hd⟩ := exists_cons_of_isNumeral x.isNumeral_whole
  rw [Numeral.unsigned, hcons, List.cons_append]
  exact ⟨d, _, rfl, hd⟩

theorem takeNumber_append (x : Numeral) (h : Avoids Extends rest) :
    takeNumber (x.chars.map some ++ rest) = some (x.value?, rest) := by
  have hunsigned := takeUnsigned_append x h
  unfold Numeral.chars
  cases hsign : x.negative with
  | true =>
      rw [if_pos rfl, List.map_cons, List.cons_append, takeNumber, hunsigned, Option.map_some,
        Numeral.value?, hsign]
      rfl
  | false =>
      obtain ⟨d, cs, hcons, hd⟩ := exists_unsigned_eq_cons x
      rw [if_neg Bool.false_ne_true, Numeral.value?, hsign, Bool.false_or]
      rw [hcons, List.map_cons, List.cons_append] at hunsigned ⊢
      rw [takeNumber_digit hd, hunsigned]
      rfl

/-! ## Tokens -/

theorem punctuation?_digit {d : Char} (hd : d.isDigit = true) : punctuation? d = none := by
  unfold punctuation?
  split
  case h_7 => rfl
  all_goals cases hd

/-- A text that starts with a digit or a sign starts with a number. -/
theorem takeToken_of_number {c : Char} (hc : c.isDigit = true ∨ c = '-') (rest : Scanned) :
    takeToken (some c :: rest) =
      (takeNumber (some c :: rest)).map fun r => (.atom (.number r.1), r.2) := by
  rcases hc with hd | rfl
  · have hne : ∀ c' : Char, c'.isDigit = false → c ≠ c' := by
      rintro c' hc' rfl
      rw [hc'] at hd
      cases hd
    rw [takeToken, punctuation?_digit hd]
    · exact fun _ _ => hne 't' (by decide)
    · exact fun _ _ => hne 'f' (by decide)
    · exact fun _ _ => hne 'n' (by decide)
    · exact hne '"' (by decide)
  · rfl

theorem exists_chars_eq_cons (x : Numeral) :
    ∃ c cs, x.chars = c :: cs ∧ (c.isDigit = true ∨ c = '-') := by
  unfold Numeral.chars
  split
  · exact ⟨'-', _, rfl, .inr rfl⟩
  · obtain ⟨d, cs, hcons, hd⟩ := exists_unsigned_eq_cons x
    exact ⟨d, cs, hcons, .inl hd⟩

/-- What may follow a token: anything after a mark, and nothing that can extend a number after an
atom. -/
def Follows (t : Token) (rest : Scanned) : Prop :=
  match t with
  | .atom _ => Avoids Extends rest
  | _ => True

theorem takeToken_text {ps : List Piece} {body : List Char} (hbody : Body ps body) (rest : Scanned) :
    takeToken (('"' :: (body ++ ['"'])).map some ++ rest) =
      some (.atom (.text ((Piece.spell? ps).map String.ofList)), rest) := by
  have hstring : takeToken (some '"' :: (body.map some ++ some '"' :: rest)) =
      some (.atom (.text ((Piece.spell? ps).map String.ofList)), rest) := by
    rw [takeToken, takeString_body hbody, Option.map_some]
  simpa only [List.map_cons, List.map_append, List.map_nil, List.cons_append, List.append_assoc,
    List.nil_append] using hstring

/-- A spelled token is read up to what may follow it. -/
theorem takeToken_spelled {t : Token} {cs : List Char} (ht : t.Spelled cs) (h : Follows t rest) :
    takeToken (cs.map some ++ rest) = some (t, rest) := by
  cases ht with
  | @mark c t hmark =>
      simp only [marks, List.mem_cons, Prod.mk.injEq, List.not_mem_nil, or_false] at hmark
      rcases hmark with ⟨rfl, rfl⟩ | ⟨rfl, rfl⟩ | ⟨rfl, rfl⟩ | ⟨rfl, rfl⟩ | ⟨rfl, rfl⟩ | ⟨rfl, rfl⟩
      all_goals rfl
  | null => rfl
  | bool b =>
      cases b with
      | false => rfl
      | true => rfl
  | number x =>
      have hnumber := takeNumber_append x h
      obtain ⟨c, cs, hcons, hc⟩ := exists_chars_eq_cons x
      rw [hcons, List.map_cons, List.cons_append] at hnumber ⊢
      rw [takeToken_of_number hc, hnumber, Option.map_some]
  | text hbody hspells => rw [takeToken_text hbody, Piece.spell?_eq_some.2 hspells, Option.map_some]
  | @noText ps body hbody hspells =>
      have hnone : Piece.spell? ps = none := by
        cases hspell : Piece.spell? ps with
        | none => rfl
        | some cs => exact absurd (Piece.spell?_eq_some.1 hspell) (hspells cs)
      rw [takeToken_text hbody, hnone, Option.map_none]

theorem isBlank_iff {c : Char} : isBlank c = true ↔ c = ' ' ∨ c = '\n' ∨ c = '\r' ∨ c = '\t' := by
  simp only [isBlank, Bool.or_eq_true, decide_eq_true_eq, or_assoc]

/-- A spelled token starts with no blank. -/
theorem exists_eq_cons_of_spelled {t : Token} {cs : List Char} (ht : t.Spelled cs) :
    ∃ c cs', cs = c :: cs' ∧ isBlank c = false := by
  cases ht with
  | @mark c t hmark =>
      refine ⟨c, [], rfl, ?_⟩
      simp only [marks, List.mem_cons, Prod.mk.injEq, List.not_mem_nil, or_false] at hmark
      rcases hmark with ⟨rfl, -⟩ | ⟨rfl, -⟩ | ⟨rfl, -⟩ | ⟨rfl, -⟩ | ⟨rfl, -⟩ | ⟨rfl, -⟩
      all_goals rfl
  | null => exact ⟨_, _, rfl, rfl⟩
  | bool b =>
      cases b with
      | false => exact ⟨_, _, rfl, rfl⟩
      | true => exact ⟨_, _, rfl, rfl⟩
  | number x =>
      obtain ⟨c, cs, hcons, hc⟩ := exists_chars_eq_cons x
      refine ⟨c, cs, hcons, Bool.eq_false_iff.2 fun hblank => ?_⟩
      rcases isBlank_iff.1 hblank with rfl | rfl | rfl | rfl
      all_goals exact absurd hc (by decide)
  | text hbody hspells => exact ⟨_, _, rfl, rfl⟩
  | noText hbody hspells => exact ⟨_, _, rfl, rfl⟩

/-! ## Layouts -/

/-- Blanks are passed over. -/
theorem lex?_blanks {blanks : List Char} (h : Blanks blanks) (rest : Scanned) :
    lex? (blanks.map some ++ rest) = lex? rest := by
  induction blanks with
  | nil => rfl
  | cons c cs ih =>
      have hc : isBlank c = true := isBlank_iff.2 (h c List.mem_cons_self)
      rw [List.map_cons, List.cons_append, lex?.eq_def]
      simp only [Option.any_some, hc, ↓reduceIte]
      exact ih fun c' hc' => h c' (List.mem_cons_of_mem c hc')

/-- A spelled token is lexed up to what may follow it. -/
theorem lex?_spelled {t : Token} {cs : List Char} (ht : t.Spelled cs) (h : Follows t rest) :
    lex? (cs.map some ++ rest) = (lex? rest).map (t :: ·) := by
  have htoken := takeToken_spelled ht h
  obtain ⟨c, cs', rfl, hblank⟩ := exists_eq_cons_of_spelled ht
  rw [List.map_cons, List.cons_append] at htoken ⊢
  rw [lex?.eq_def]
  simp only [Option.any_some, hblank, Bool.false_eq_true, ↓reduceIte]
  split
  case h_1 hnone => cases hnone.symm.trans htoken
  case h_2 t' rest' hsome =>
    rw [htoken] at hsome
    cases hsome
    rfl

/-- A token is a mark. -/
def Token.IsMark (t : Token) : Prop := ∀ a, t ≠ .atom a

theorem not_extends_of_blank {c : Char} (h : c = ' ' ∨ c = '\n' ∨ c = '\r' ∨ c = '\t') :
    ¬ Extends c := by
  unfold Extends
  rcases h with rfl | rfl | rfl | rfl
  all_goals decide

theorem not_extends_of_mark {c : Char} {t : Token} (h : (c, t) ∈ marks) : ¬ Extends c := by
  unfold Extends
  simp only [marks, List.mem_cons, Prod.mk.injEq, List.not_mem_nil, or_false] at h
  rcases h with ⟨rfl, -⟩ | ⟨rfl, -⟩ | ⟨rfl, -⟩ | ⟨rfl, -⟩ | ⟨rfl, -⟩ | ⟨rfl, -⟩
  all_goals decide

theorem avoids_blanks {blanks : List Char} (hblanks : Blanks blanks) (h : Avoids Extends rest) :
    Avoids Extends (blanks.map some ++ rest) := by
  cases blanks with
  | nil => exact h
  | cons c cs => exact avoids_cons (not_extends_of_blank (hblanks c List.mem_cons_self)) _

/-- A layout whose first token is a mark does not start with anything that extends a number. -/
theorem avoids_laid {ts : List Token} {cs : List Char} (h : Laid ts cs)
    (hmark : ∀ t ∈ ts.head?, t.IsMark) : Avoids Extends (cs.map some) := by
  cases h with
  | nil hblanks =>
      have hnil := avoids_blanks hblanks (avoids_nil (P := Extends))
      rw [List.append_nil] at hnil
      exact hnil
  | @cons blanks cs rest t ts hblanks ht hts =>
      rw [List.map_append]
      refine avoids_blanks hblanks ?_
      cases ht with
      | mark hc => exact avoids_cons (not_extends_of_mark hc) _
      | _ => exact absurd rfl (hmark _ rfl _)

/-- No two atoms stand side by side. -/
def Apart (ts : List Token) : Prop := ts.IsChain fun t u => t.IsMark ∨ u.IsMark

/-- What follows a token in a layout may follow it. -/
theorem follows_laid {t : Token} {ts : List Token} {cs : List Char} (h : Laid ts cs)
    (hapart : Apart (t :: ts)) : Follows t (cs.map some) := by
  cases t with
  | atom a =>
      refine avoids_laid h fun u hu => ?_
      cases ts with
      | nil => cases hu
      | cons u' us =>
          cases hu
          rcases (List.isChain_cons_cons.1 hapart).1 with hmark | hmark
          · exact absurd rfl (hmark a)
          · exact hmark
  | _ => trivial

/-- The tokens of a layout are found. -/
theorem lex?_laid {ts : List Token} {cs : List Char} (h : Laid ts cs) (hapart : Apart ts) :
    lex? (cs.map some) = some ts := by
  induction h with
  | nil hblanks =>
      have hnil := lex?_blanks hblanks []
      rw [List.append_nil] at hnil
      rw [hnil, lex?]
  | cons hblanks ht hts ih =>
      rw [List.map_append, lex?_blanks hblanks, List.map_append,
        lex?_spelled ht (follows_laid hts hapart), ih (List.IsChain.of_cons hapart)]
      rfl

/-! ## The tokens of a value -/

theorem apart_cons {t : Token} {ts : List Token} (ht : t.IsMark) (h : Apart ts) :
    Apart (t :: ts) :=
  List.isChain_cons.2 ⟨fun _ _ => .inl ht, h⟩

theorem apart_append {ts us : List Token} {u : Token} (hts : Apart ts) (hu : u.IsMark)
    (hus : Apart (u :: us)) : Apart (ts ++ u :: us) := by
  refine List.isChain_append.2 ⟨hts, hus, ?_⟩
  rintro t - u' ⟨⟩
  exact .inr hu

/-- A name and a colon stand before what is apart. -/
theorem apart_name (k : Option String) {ts : List Token} (h : Apart ts) :
    Apart (.atom (.text k) :: .colon :: ts) :=
  List.isChain_cons_cons.2 ⟨.inr nofun, apart_cons nofun h⟩

mutual

/-- No two atoms stand side by side in the tokens of a value. -/
theorem apart_tokens : ∀ j : Json, Apart j.tokens
  | .atom _ => .singleton _
  | .array items => apart_cons nofun (apart_itemTokens items)
  | .object members => apart_cons nofun (apart_memberTokens members)

theorem apart_itemTokens : ∀ items : List Json, Apart (itemTokens items)
  | [] => .singleton _
  | [v] => apart_append (apart_tokens v) nofun (.singleton _)
  | v :: w :: rest =>
      apart_append (apart_tokens v) nofun (apart_cons nofun (apart_itemTokens (w :: rest)))

theorem apart_memberTokens : ∀ members : List (Option String × Json), Apart (memberTokens members)
  | [] => .singleton _
  | [(k, v)] => apart_name k (apart_append (apart_tokens v) nofun (.singleton _))
  | (k, v) :: m :: rest =>
      apart_name k (apart_append (apart_tokens v) nofun
        (apart_cons nofun (apart_memberTokens (m :: rest))))

end

/-- The lexer finds the tokens of a value in each of its layouts. -/
theorem lex?_writes {text : String} {j : Json} (h : Writes text j) :
    lex? (text.toList.map some) = some j.tokens :=
  lex?_laid h (apart_tokens j)

end Json

end Gatehouse
