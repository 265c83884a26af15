import Gatehouse.Proofs.Text.Decimal
import Gatehouse.Proofs.Toml.Text
import Gatehouse.Toml.Reader
import Mathlib.Algebra.Group.Nat.Defs

/-!
# Lines are read back

A document is written line by line: a header for each table, and the plain entries of the table below
it. Each line is read back as the statement that it makes.
-/

namespace Gatehouse

namespace Toml

variable {c : Char} {k : String} {cs rest tail : List Char}

/-! ## Keys -/

theorem exists_keyChars_eq_cons (k : String) :
    ∃ c cs, keyChars k = c :: cs ∧ (c = '"' ∨ isBare c = true) := by
  unfold keyChars
  split
  · rename_i hbare
    obtain ⟨hne, hall⟩ := Bool.and_eq_true_iff.1 hbare
    cases hk : k.toList with
    | nil => simp [hk] at hne
    | cons c cs =>
        rw [hk, List.all_cons, Bool.and_eq_true] at hall
        exact ⟨c, cs, rfl, .inr hall.1⟩
  · exact ⟨'"', _, rfl, .inl rfl⟩

/-- What a key starts with is no mark of another kind. -/
theorem ne_of_keyStart {d : Char} (hc : c = '"' ∨ isBare c = true) (hd : isBare d = false)
    (hquote : d ≠ '"') : c ≠ d := by
  rintro rfl
  rcases hc with rfl | hbare
  · exact hquote rfl
  · rw [hd] at hbare
    cases hbare

theorem dropWhile_keyChars (k : String) (rest : List Char) :
    (keyChars k ++ rest).dropWhile isBlank = keyChars k ++ rest := by
  obtain ⟨c, cs, hk, hc⟩ := exists_keyChars_eq_cons k
  have hspace : c ≠ ' ' := ne_of_keyStart hc (by decide) (by decide)
  have htab : c ≠ '\t' := ne_of_keyStart hc (by decide) (by decide)
  rw [hk, List.cons_append, List.dropWhile_cons_of_neg (by simp [isBlank, hspace, htab])]

theorem takeKeyPart_bare (hne : cs ≠ []) (hbare : ∀ c ∈ cs, isBare c = true)
    (hrest : ∀ c ∈ rest.head?, isBare c = false) :
    takeKeyPart (cs ++ rest) = some (String.ofList cs, rest) := by
  have hend : rest.takeWhile isBare = [] ∧ rest.dropWhile isBare = rest := by
    cases rest with
    | nil => simp
    | cons c rest => simp [hrest c rfl]
  have htake : (cs ++ rest).takeWhile isBare = cs := by
    rw [List.takeWhile_append_of_pos hbare, hend.1, List.append_nil]
  have hdrop : (cs ++ rest).dropWhile isBare = rest := by
    rw [List.dropWhile_append_of_pos hbare, hend.2]
  obtain ⟨c, cs, rfl⟩ := List.exists_cons_of_ne_nil hne
  have hc : isBare c = true := hbare c List.mem_cons_self
  rw [takeKeyPart, htake, hdrop]
  · rintro tail htail
    injection htail with hquote
    rw [hquote] at hc
    exact absurd hc (by decide)
  · rintro tail htail
    injection htail with hquote
    rw [hquote] at hc
    exact absurd hc (by decide)

/-- A key is read up to something that cannot extend it. -/
theorem takeKeyPart_keyChars (hrest : ∀ c ∈ rest.head?, isBare c = false) :
    takeKeyPart (keyChars k ++ rest) = some (k, rest) := by
  unfold keyChars
  split
  · rename_i hbare
    simp only [Bool.and_eq_true, Bool.not_eq_true', List.isEmpty_eq_false_iff] at hbare
    rw [takeKeyPart_bare hbare.1 (List.all_eq_true.1 hbare.2) hrest, String.ofList_toList]
  · simp only [List.cons_append, List.append_assoc, List.nil_append]
    rw [takeKeyPart, takeBasic_flatMap]
    simp

/-- A key without dots is read with the blanks behind it. -/
theorem takeKey_keyChars {n : Nat} (h : ∀ c ∈ rest.head?, isBare c = false)
    (hdot : (rest.dropWhile isBlank).head? ≠ some '.') :
    takeKey (n + 1) (keyChars k ++ rest) = some ([], k, rest.dropWhile isBlank) := by
  rw [takeKey, dropWhile_keyChars, takeKeyPart_keyChars h]
  dsimp only
  split
  · rename_i hrest
    simp [hrest] at hdot
  · rfl

/-- A path as it is written in a header. -/
def pathChars (path : List String) : List Char := ((path.map keyChars).intersperse ['.']).flatten

theorem pathChars_singleton (key : String) : pathChars [key] = keyChars key := by simp [pathChars]

theorem pathChars_cons (part : String) (above : List String) (key : String) :
    pathChars (part :: above ++ [key]) = keyChars part ++ '.' :: pathChars (above ++ [key]) := by
  cases above <;> simp [pathChars, List.intersperse]

theorem exists_pathChars_eq_cons (above : List String) (key : String) :
    ∃ c cs, pathChars (above ++ [key]) = c :: cs ∧ (c = '"' ∨ isBare c = true) := by
  cases above with
  | nil =>
      rw [List.nil_append, pathChars_singleton]
      exact exists_keyChars_eq_cons key
  | cons part above =>
      obtain ⟨c, cs, hcons, hc⟩ := exists_keyChars_eq_cons part
      exact ⟨c, _, by rw [pathChars_cons, hcons, List.cons_append], hc⟩

/-- A path is read up to the bracket behind it. -/
theorem takeKey_pathChars {n : Nat} {above : List String} (hn : above.length < n) (key : String)
    (rest : List Char) :
    takeKey n (pathChars (above ++ [key]) ++ ']' :: rest) = some (above, key, ']' :: rest) := by
  induction above generalizing n with
  | nil =>
      obtain ⟨n, rfl⟩ := Nat.exists_eq_succ_of_ne_zero (Nat.ne_of_gt hn)
      rw [List.nil_append, pathChars_singleton]
      exact takeKey_keyChars (by simp; decide) (by simp [isBlank])
  | cons part above ih =>
      obtain ⟨n, rfl⟩ := Nat.exists_eq_succ_of_ne_zero (Nat.ne_of_gt (Nat.zero_lt_of_lt hn))
      have hpart : takeKeyPart (keyChars part ++ '.' :: (pathChars (above ++ [key]) ++ ']' :: rest)) =
          some (part, '.' :: (pathChars (above ++ [key]) ++ ']' :: rest)) :=
        takeKeyPart_keyChars (by simp; decide)
      have hrest := ih (n := n) (by simpa using hn)
      rw [pathChars_cons, List.append_assoc, List.cons_append, takeKey, dropWhile_keyChars, hpart]
      simp [isBlank, hrest]

/-! ## Numbers -/

/-- Digits are followed by a digit or by the end of the line. -/
theorem drop?_digits {d : Char} (hcs : ∀ c ∈ cs, c.isDigit = true) (hd : d.isDigit = false)
    (hbreak : d ≠ '\n') (rest : List Char) : drop? d (cs ++ '\n' :: rest) = none := by
  cases cs with
  | nil => simp [drop?, hbreak]
  | cons c cs =>
      have hne : c ≠ d := Decimal.ne_of_isDigit (hcs c List.mem_cons_self) hd
      simp [drop?, hne.symm]

theorem takeTwo_digits {r : Nat × List Char} (hcs : ∀ c ∈ cs, c.isDigit = true)
    (h : takeTwo (cs ++ '\n' :: rest) = some r) :
    ∃ ds, (∀ c ∈ ds, c.isDigit = true) ∧ r.2 = ds ++ '\n' :: rest := by
  have hbreak : ('\n').isDigit = false := by decide
  match cs with
  | [] => cases rest <;> simp [takeTwo, hbreak] at h
  | [a] => simp [takeTwo, hbreak] at h
  | a :: b :: ds =>
      refine ⟨ds, fun c hc => hcs c (List.mem_cons_of_mem a (List.mem_cons_of_mem b hc)), ?_⟩
      simp only [List.cons_append, takeTwo] at h
      split at h
      · cases h
        rfl
      · cases h

/-- Digits alone are no date and no time. -/
theorem takeDatetime_digits (hcs : ∀ c ∈ cs, c.isDigit = true) (rest : List Char) :
    takeDatetime (cs ++ '\n' :: rest) = none := by
  have hdate : takeDate (cs ++ '\n' :: rest) = none := by
    rw [takeDate]
    cases hcentury : takeTwo (cs ++ '\n' :: rest) with
    | none => rfl
    | some century =>
        obtain ⟨ds, hds, hcentury'⟩ := takeTwo_digits hcs hcentury
        cases hyear : takeTwo (ds ++ '\n' :: rest) with
        | none => simp [hcentury', hyear]
        | some year =>
            obtain ⟨es, hes, hyear'⟩ := takeTwo_digits hds hyear
            simp [hcentury', hyear, hyear', drop?_digits hes (d := '-') (by decide) (by decide)]
  have htime : takeTime (cs ++ '\n' :: rest) = none := by
    rw [takeTime]
    cases hhour : takeTwo (cs ++ '\n' :: rest) with
    | none => rfl
    | some hour =>
        obtain ⟨ds, hds, hhour'⟩ := takeTwo_digits hcs hhour
        simp [hhour', drop?_digits hds (d := ':') (by decide) (by decide)]
  rw [takeDatetime, hdate, htime]

theorem takeDigits_of_not_isDigit {isDigit : Char → Bool} (hc : isDigit c = false)
    (rest : List Char) : takeDigits isDigit (c :: rest) = ([], c :: rest) := by
  unfold takeDigits
  split
  · rename_i heq
    cases heq
    simp [hc]
  · rename_i heq
    cases heq
    simp [hc]
  · rename_i heq
    cases heq

theorem takeDigits_digits (hcs : ∀ c ∈ cs, c.isDigit = true) (rest : List Char) :
    takeDigits Char.isDigit (cs ++ '\n' :: rest) = (cs, '\n' :: rest) := by
  induction cs with
  | nil => exact takeDigits_of_not_isDigit (by decide) rest
  | cons c cs ih =>
      have hc : c.isDigit = true := hcs c List.mem_cons_self
      have hdigits : ∀ d ∈ cs, d.isDigit = true := fun d hd => hcs d (List.mem_cons_of_mem c hd)
      rw [List.cons_append, takeDigits]
      · simp [hc, ih hdigits]
      · intro d tail htail
        have hunder := drop?_digits hdigits (d := '_') (by decide) (by decide) rest
        simp [htail, drop?] at hunder

/-- The digits of a number are read as its whole part. -/
theorem takeWhole_toDigits (n : Nat) (rest : List Char) :
    takeWhole (Nat.toDigits 10 n ++ '\n' :: rest) = (Nat.toDigits 10 n, '\n' :: rest) := by
  by_cases hn : n = 0
  · subst hn
    rfl
  · rw [takeWhole]
    · exact takeDigits_digits (Decimal.isDigit_of_mem_toDigits n) rest
    · intro tail htail
      obtain ⟨d, ds, hd, -⟩ := Decimal.exists_toDigits_eq_cons n
      have hhead := Decimal.head?_toDigits (Nat.pos_of_ne_zero hn)
      rw [hd] at htail hhead
      injection htail with hzero
      exact hhead (congrArg some hzero)

theorem integer?_natural {n : Nat} (hn : n < 2 ^ 63) : integer? (n : Int) = some (.integer n) := by
  have hmin : Int64.minValue.toInt = -2 ^ 63 := by decide
  have hmax : Int64.maxValue.toInt = 2 ^ 63 - 1 := by decide
  rw [integer?, hmin, hmax, if_pos (by omega)]

/-- A text that starts with a digit, and has no mark of a base behind it, starts with a decimal
number. -/
theorem takeNumber_of_isDigit (hc : c.isDigit = true)
    (hrest : ∀ d ∈ rest.head?, d ≠ 'x' ∧ d ≠ 'o' ∧ d ≠ 'b') :
    takeNumber (c :: rest) =
      match takeWhole (c :: rest) with
      | ([], _) => none
      | (whole, rest) => takeAfterWhole false whole rest := by
  have hne : ∀ d : Char, d.isDigit = false → c ≠ d := fun _ => Decimal.ne_of_isDigit hc
  have hsign : takeSign (c :: rest) = (false, c :: rest) := by
    rw [takeSign]
    · rintro tail htail
      injection htail with hminus
      exact hne '-' (by decide) hminus
    · rintro tail htail
      injection htail with hplus
      exact hne '+' (by decide) hplus
  rw [takeNumber, hsign]
  · split
    · rename_i heq
      injection heq with _ heq
      injection heq with hi
      exact absurd hi (hne 'i' (by decide))
    · rename_i heq
      injection heq with _ heq
      injection heq with hn
      exact absurd hn (hne 'n' (by decide))
    · rename_i heq
      cases heq
      rfl
  · rintro tail htail
    injection htail with _ htail
    exact (hrest 'x' (by rw [htail]; rfl)).1 rfl
  · rintro tail htail
    injection htail with _ htail
    exact (hrest 'o' (by rw [htail]; rfl)).2.1 rfl
  · rintro tail htail
    injection htail with _ htail
    exact (hrest 'b' (by rw [htail]; rfl)).2.2 rfl

theorem takeNumber_toDigits {n : Nat} (hn : n < 2 ^ 63) (rest : List Char) :
    takeNumber (Nat.toDigits 10 n ++ '\n' :: rest) = some (.integer n, '\n' :: rest) := by
  have hwhole := takeWhole_toDigits n rest
  have hvalue := Decimal.value_toDigits n
  have hdigits := Decimal.isDigit_of_mem_toDigits n
  obtain ⟨d, ds, hd, hfirst⟩ := Decimal.exists_toDigits_eq_cons n
  rw [hd, List.cons_append] at hwhole
  rw [hd] at hdigits hvalue
  rw [hd, List.cons_append, takeNumber_of_isDigit hfirst, hwhole]
  · simp [takeAfterWhole, takeExponent, hvalue, integer?_natural hn]
  · cases ds with
    | nil => simp
    | cons e es =>
        have he : ∀ d : Char, d.isDigit = false → e ≠ d :=
          fun _ => Decimal.ne_of_isDigit (hdigits e (by simp))
        simp only [List.cons_append, List.head?_cons, Option.mem_some_iff, forall_eq']
        exact ⟨he 'x' (by decide), he 'o' (by decide), he 'b' (by decide)⟩

/-! ## Values -/

/-- The values that stand in one line whatever they hold: strings, natural numbers and the empty
array. -/
inductive Plain : Toml → Prop
  | string (s : String) : Plain (.string s)
  | natural {n : Nat} (h : n < 2 ^ 63) : Plain (.integer n)
  | empty : Plain (.array [])

theorem exists_stringChars_eq_cons (cs : List Char) :
    ∃ c ds, stringChars cs = c :: ds ∧ (c = '"' ∨ c = '\'') := by
  unfold stringChars
  cases style cs with
  | basic => exact ⟨'"', _, rfl, .inl rfl⟩
  | literal => exact ⟨'\'', _, rfl, .inr rfl⟩
  | basicLines => exact ⟨'"', _, rfl, .inl rfl⟩
  | literalLines => exact ⟨'\'', _, rfl, .inr rfl⟩

theorem takeValue_string (s : String) (depth : Nat) (rest : List Char) :
    takeValue depth (stringChars s.toList ++ '\n' :: rest) = some (.string s, '\n' :: rest) := by
  have hread : takeString (stringChars s.toList ++ '\n' :: rest) = some (s.toList, '\n' :: rest) :=
    takeString_stringChars s.toList (by simp) (by simp)
  obtain ⟨c, ds, hcons, hc⟩ := exists_stringChars_eq_cons s.toList
  rw [hcons, List.cons_append] at hread ⊢
  rcases hc with rfl | rfl
  · simp [takeValue, hread]
  · simp [takeValue, hread]

theorem takeValue_of_isDigit (hc : c.isDigit = true) (depth : Nat)
    (hdate : takeDatetime (c :: rest) = none) :
    takeValue depth (c :: rest) = takeNumber (c :: rest) := by
  have hne : ∀ (d : Char) (tail : List Char), d.isDigit = false → c :: rest ≠ d :: tail := by
    rintro d tail hd heq
    injection heq with heq
    exact Decimal.ne_of_isDigit hc hd heq
  rw [takeValue, hdate]
  · exact fun tail => hne '[' tail (by decide)
  · exact fun tail => hne '\x7b' tail (by decide)
  · exact fun tail => hne '"' tail (by decide)
  · exact fun tail => hne '\'' tail (by decide)
  · exact fun tail => hne 't' _ (by decide)
  · exact fun tail => hne 'f' _ (by decide)

theorem takeValue_plain {v : Toml} (h : Plain v) (depth : Nat) (rest : List Char) :
    takeValue (depth + 1) (valueChars v ++ '\n' :: rest) = some (v, '\n' :: rest) := by
  cases h with
  | string s =>
      rw [valueChars]
      exact takeValue_string s (depth + 1) rest
  | @natural n hn =>
      have hdate := takeDatetime_digits (Decimal.isDigit_of_mem_toDigits n) rest
      have hread := takeNumber_toDigits hn rest
      have hchars : valueChars (.integer n) = Nat.toDigits 10 n := rfl
      obtain ⟨d, ds, hd, hfirst⟩ := Decimal.exists_toDigits_eq_cons n
      rw [hchars]
      rw [hd, List.cons_append] at hdate hread ⊢
      rw [takeValue_of_isDigit hfirst _ hdate, hread]
  | empty =>
      have hitems : ∀ item : List Char → Option (Toml × List Char),
          takeItems item false (']' :: '\n' :: rest) = some ([], '\n' :: rest) := by
        intro item
        rw [takeItems]
        rfl
      simp [valueChars, itemChars, takeValue, hitems]

/-! ## Lines -/

theorem dropFiller_of_keyStart (hc : c = '"' ∨ isBare c = true) (rest : List Char) :
    dropFiller false (c :: rest) = some (c :: rest) := by
  have hspace : c ≠ ' ' := ne_of_keyStart hc (by decide) (by decide)
  have htab : c ≠ '\t' := ne_of_keyStart hc (by decide) (by decide)
  have hhash : c ≠ '#' := ne_of_keyStart hc (by decide) (by decide)
  rw [dropFiller]
  · simp [isBlank, hspace, htab, hhash]
  · exact fun h => ne_of_keyStart hc (by decide) (by decide) h
  · exact fun _ h => absurd h (ne_of_keyStart hc (by decide) (by decide))

/-- A line that is read as a statement is the first of a document. -/
theorem statements?_line {s : Statement} (hfiller : dropFiller false cs = some (c :: tail))
    (htake : takeStatement (c :: tail) = some (s, '\n' :: rest)) (hlt : rest.length < cs.length) :
    statements? cs = (statements? rest).map (s :: ·) := by
  have hend : dropLineEnd ('\n' :: rest) = some rest := rfl
  rw [statements?, hfiller]
  dsimp only
  rw [htake]
  dsimp only
  rw [hend]
  dsimp only
  rw [if_pos hlt]

/-- The statement that a plain entry makes. -/
def pairOf (e : String × Toml) : Statement := .pair [] e.1 e.2

theorem exists_valueChars_eq_cons {v : Toml} (h : Plain v) :
    ∃ c cs, valueChars v = c :: cs ∧ isBlank c = false := by
  cases h with
  | string s =>
      obtain ⟨c, cs, hcons, hc⟩ := exists_stringChars_eq_cons s.toList
      rw [valueChars]
      refine ⟨c, cs, hcons, ?_⟩
      rcases hc with rfl | rfl
      · decide
      · decide
  | @natural n hn =>
      obtain ⟨d, ds, hd, hdigit⟩ := Decimal.exists_toDigits_eq_cons n
      have hspace : d ≠ ' ' := Decimal.ne_of_isDigit hdigit (by decide)
      have htab : d ≠ '\t' := Decimal.ne_of_isDigit hdigit (by decide)
      exact ⟨d, ds, hd, by simp [isBlank, hspace, htab]⟩
  | empty => exact ⟨'[', [']'], rfl, by decide⟩

theorem dropWhile_valueChars {v : Toml} (h : Plain v) (rest : List Char) :
    (valueChars v ++ rest).dropWhile isBlank = valueChars v ++ rest := by
  obtain ⟨c, cs, hcons, hc⟩ := exists_valueChars_eq_cons h
  rw [hcons, List.cons_append, List.dropWhile_cons_of_neg (by simp [hc])]

theorem takePair_lineChars {e : String × Toml} (h : Plain e.2) (rest : List Char) :
    takePair (keyChars e.1 ++ ' ' :: '=' :: ' ' :: (valueChars e.2 ++ '\n' :: rest)) =
      some (pairOf e, '\n' :: rest) := by
  have hkey : takeKey nesting (keyChars e.1 ++ ' ' :: '=' :: ' ' :: (valueChars e.2 ++ '\n' :: rest)) =
      some ([], e.1, '=' :: ' ' :: (valueChars e.2 ++ '\n' :: rest)) :=
    takeKey_keyChars (by simp; decide) (by simp [isBlank])
  have hvalue : takeValue nesting (valueChars e.2 ++ '\n' :: rest) = some (e.2, '\n' :: rest) :=
    takeValue_plain h 78 rest
  have hequals : isBlank '=' = false := by decide
  have hspace : isBlank ' ' = true := by decide
  simp [takePair, hkey, expect, drop?, hequals, hspace, dropWhile_valueChars h, hvalue, pairOf]

theorem statements?_lineChars {e : String × Toml} (h : Plain e.2) (rest : List Char) :
    statements? (lineChars e ++ rest) = (statements? rest).map (pairOf e :: ·) := by
  have hpair := takePair_lineChars h rest
  have hline : lineChars e ++ rest =
      keyChars e.1 ++ ' ' :: '=' :: ' ' :: (valueChars e.2 ++ '\n' :: rest) := by
    simp [lineChars]
  obtain ⟨c, cs, hcons, hc⟩ := exists_keyChars_eq_cons e.1
  have hbracket : c ≠ '[' := ne_of_keyStart hc (by decide) (by decide)
  rw [hline]
  rw [hcons, List.cons_append] at hpair ⊢
  refine statements?_line (dropFiller_of_keyStart hc _) ?_ (by simp; omega)
  rw [takeStatement, hpair]
  intro tail htail
  injection htail with h
  exact hbracket h

theorem statements?_flatMap {es : Entries} (h : ∀ e ∈ es, Plain e.2) (rest : List Char) :
    statements? (es.flatMap lineChars ++ rest) = (statements? rest).map (es.map pairOf ++ ·) := by
  induction es with
  | nil => simp
  | cons e es ih =>
      have hes := ih fun e' he' => h e' (List.mem_cons_of_mem e he')
      rw [List.flatMap_cons, List.append_assoc, statements?_lineChars (h e List.mem_cons_self), hes,
        Option.map_map]
      rfl

theorem headerChars_eq (path : List String) (rest : List Char) :
    headerChars path ++ rest = '[' :: (pathChars path ++ ']' :: '\n' :: rest) := by
  simp [headerChars, pathChars]

/-- The header of a section is read behind the empty line in front of it. -/
theorem statements?_headerChars {above : List String} (h : above.length < nesting) (key : String)
    (rest : List Char) :
    statements? ('\n' :: (headerChars (above ++ [key]) ++ rest)) =
      (statements? rest).map (.header above key :: ·) := by
  have hpath := takeKey_pathChars h key ('\n' :: rest)
  obtain ⟨c, cs, hcons, hc⟩ := exists_pathChars_eq_cons above key
  have hbracket : c ≠ '[' := ne_of_keyStart hc (by decide) (by decide)
  have hfiller : ∀ tail, dropFiller false ('\n' :: '[' :: tail) = some ('[' :: tail) := fun _ => rfl
  rw [headerChars_eq]
  refine statements?_line (hfiller _) ?_ (by simp; omega)
  rw [takeStatement, takeHeader]
  · simp only [hpath]
  · intro tail htail
    rw [hcons] at htail
    injection htail with h
    exact hbracket h

end Toml

end Gatehouse
