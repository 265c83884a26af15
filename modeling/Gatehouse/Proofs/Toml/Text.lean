import Gatehouse.Toml.Printer
import Gatehouse.Toml.Text

/-!
# Strings are read back

A string is written in one of four ways, and read back from each of them, whatever its characters
are. In the ways that take several lines, one or two quotes at the end of a string stand right before
the three that close it, and the reader gives them back to the string.
-/

namespace Gatehouse

namespace Toml

variable {c : Char} {cs rest : List Char}

@[simp] theorem cons_some : cons (some c) (some (cs, rest)) = some (c :: cs, rest) := rfl

theorem cons_eq_map (r : Option (List Char × List Char)) :
    cons (some c) r = r.map fun r => (c :: r.1, r.2) := by
  cases r with
  | none => rfl
  | some r => rfl

/-! ## Characters -/

theorem isPrintable_of_not_isControl (hc : isControl c = false) (hbreak : c ≠ '\n') :
    isPrintable c = true := by
  by_cases htab : c = '\t'
  · simp [isPrintable, htab]
  · have hdelete : c.toNat = 0x7F → c = '\x7f' := fun h => Char.toNat_inj.1 h
    simp only [isControl, Bool.and_eq_false_imp, Bool.and_eq_true, bne_iff_ne, ne_eq, htab,
      not_false_eq_true, hbreak, and_self, Bool.or_eq_false_iff, decide_eq_false_iff_not, Nat.not_lt,
      forall_const] at hc
    simp only [isPrintable, htab, decide_false, Bool.false_or, Bool.and_eq_true, decide_eq_true_eq,
      bne_iff_ne, ne_eq]
    exact ⟨hc.1, fun h => hc.2 (hdelete h)⟩

/-- How a character of a string is written where escapes are understood. -/
inductive Written : Char → List Char → Prop
  | plain {c : Char} (hslash : c ≠ '\\') (hreturn : c ≠ '\r')
      (hplain : c = '\n' ∨ isPrintable c = true) : Written c [c]
  | short {e c : Char} (h : escaped? e = some c) : Written c ['\\', e]
  | code {a b c : Char} (h : scalar? ['0', '0', a, b] = some c) :
      Written c ['\\', 'u', '0', '0', a, b]

/-- The number of a control character is read back from its digits. -/
theorem scalar?_of_isControl (hc : isControl c = true) :
    scalar? ['0', '0', (Hex.digit (c.toNat / 16)).toUpper, (Hex.digit (c.toNat % 16)).toUpper] =
      some c := by
  have hupper : ∀ n < 16, Hex.isDigit (Hex.digit n).toUpper = true ∧
      Hex.digitValue (Hex.digit n).toUpper = n := by decide
  have hbound : c.toNat < 128 := by
    simp only [isControl, Bool.and_eq_true, Bool.or_eq_true, decide_eq_true_eq] at hc
    rcases hc.2 with hlow | rfl
    · omega
    · decide
  obtain ⟨hhigh, hhigh'⟩ := hupper (c.toNat / 16) (by omega)
  obtain ⟨hlow, hlow'⟩ := hupper (c.toNat % 16) (by omega)
  have hvalue : Hex.value ['0', '0', (Hex.digit (c.toNat / 16)).toUpper,
      (Hex.digit (c.toNat % 16)).toUpper] = c.toNat := by
    have hzero : Hex.digitValue '0' = 0 := by decide
    simp only [Hex.value, Hex.valueIn, List.foldl_cons, List.foldl_nil, hzero, hhigh', hlow']
    omega
  have hzero : Hex.isDigit '0' = true := by decide
  have hscalar : c.toNat < 0xD800 := by omega
  simp [scalar?, hvalue, hzero, hhigh, hlow, hscalar]

theorem written_escape (c : Char) : Written c (escape c) := by
  unfold escape
  split
  case h_6 _ hb ht hf hr hslash =>
    split
    case isTrue hcontrol => exact .code (scalar?_of_isControl hcontrol)
    case isFalse hcontrol =>
      refine .plain hslash hr ?_
      by_cases hbreak : c = '\n'
      · exact .inl hbreak
      · exact .inr (isPrintable_of_not_isControl (by simpa using hcontrol) hbreak)
  all_goals exact .short rfl

theorem eq_of_written {d : Char} (h : Written c [d]) : c = d := by
  cases h
  rfl

theorem written_escapeInLine (c : Char) : Written c (escapeInLine c) := by
  unfold escapeInLine
  split
  case isTrue hquote =>
    rw [hquote]
    exact .short rfl
  case isFalse =>
    split
    case isTrue hbreak =>
      rw [hbreak]
      exact .short rfl
    case isFalse => exact written_escape c

theorem escapeInLine_ne {d : Char} (hd : d = '"' ∨ d = '\n') : escapeInLine c ≠ [d] := by
  intro h
  have hc : c = d := eq_of_written (h ▸ written_escapeInLine c)
  rcases hd with rfl | rfl <;> simp [hc, escapeInLine] at h

/-- A written character starts with a backslash, or it is written as it is. -/
theorem exists_written_eq_cons (h : Written c cs) :
    ∃ d ds, cs = d :: ds ∧ (d = '\\' ∨ (d = c ∧ c ≠ '\r')) := by
  cases h with
  | plain _ hreturn => exact ⟨c, [], rfl, .inr ⟨rfl, hreturn⟩⟩
  | short => exact ⟨'\\', _, rfl, .inl rfl⟩
  | code => exact ⟨'\\', _, rfl, .inl rfl⟩

/-! ## Strings on one line -/

theorem takeBasic_plain (hquote : c ≠ '"') (hslash : c ≠ '\\') (hprintable : isPrintable c = true)
    (rest : List Char) : takeBasic (c :: rest) = cons (some c) (takeBasic rest) := by
  rw [takeBasic]
  · simp [hprintable, hslash]
  · exact hquote
  · exact fun _ _ _ _ _ h => absurd h hslash
  · exact fun _ _ _ _ _ _ _ _ _ h => absurd h hslash
  · exact fun _ _ h => absurd h hslash

theorem takeBasic_written (h : Written c cs) (hquote : cs ≠ ['"']) (hbreak : cs ≠ ['\n'])
    (rest : List Char) : takeBasic (cs ++ rest) = cons (some c) (takeBasic rest) := by
  cases h with
  | plain hslash _ hplain =>
      have hc : c ≠ '\n' := fun h => hbreak (h ▸ rfl)
      exact takeBasic_plain (fun h => hquote (h ▸ rfl)) hslash (hplain.resolve_left hc) rest
  | @short e _ he =>
      rw [← he]
      unfold escaped? at he
      split at he
      case h_8 => cases he
      all_goals rfl
  | code hcode =>
      rw [← hcode]
      rfl

/-- A string between plain quotes is read up to the closing one. -/
theorem takeBasic_flatMap (cs rest : List Char) :
    takeBasic (cs.flatMap escapeInLine ++ '"' :: rest) = some (cs, rest) := by
  induction cs with
  | nil => rfl
  | cons c cs ih =>
      rw [List.flatMap_cons, List.append_assoc, takeBasic_written (written_escapeInLine c)
        (escapeInLine_ne (.inl rfl)) (escapeInLine_ne (.inr rfl)), ih, cons_some]

theorem takeLiteral_append (hplain : ∀ c ∈ cs, isPrintable c = true ∧ c ≠ '\'') (rest : List Char) :
    takeLiteral (cs ++ '\'' :: rest) = some (cs, rest) := by
  induction cs with
  | nil => rfl
  | cons c cs ih =>
      obtain ⟨hprintable, hquote⟩ := hplain c List.mem_cons_self
      have hrest := ih fun d hd => hplain d (List.mem_cons_of_mem c hd)
      rw [List.cons_append, takeLiteral, if_pos hprintable, hrest, cons_some]
      exact hquote

/-! ## Strings on several lines -/

/-- Three quotes in a row close what is read, and a quote that is not followed by two others is a
character. -/
structure Lines (quote : Char) (take : List Char → Option (List Char × List Char)) : Prop where
  closes : ∀ rest, take (quote :: quote :: quote :: rest) = some (closing quote rest)
  keeps : ∀ cs, ¬ [quote, quote] <+: cs → take (quote :: cs) = cons (some quote) (take cs)

theorem lines_takeBasicLines : Lines '"' (takeBasicLines false) where
  closes rest := by rw [takeBasicLines]
  keeps cs hcs := by
    rw [takeBasicLines]
    · simp [isPrintable]
    · rintro rest - rfl
      exact hcs ⟨rest, rfl⟩
    · exact fun _ _ _ _ _ h => absurd h (by decide)
    · exact fun _ _ _ _ _ _ _ _ _ h => absurd h (by decide)
    · exact fun _ _ h => absurd h (by decide)
    · exact fun _ h => absurd h (by decide)

theorem lines_takeLiteralLines : Lines '\'' takeLiteralLines where
  closes rest := by rw [takeLiteralLines]
  keeps cs hcs := by
    rw [takeLiteralLines]
    · simp [isPrintable]
    · rintro rest - rfl
      exact hcs ⟨rest, rfl⟩
    · exact fun _ h => absurd h (by decide)

section Closing

variable {quote : Char} {q : Nat}

theorem closing_of_ne (hrest : rest.head? ≠ some quote) : closing quote rest = ([], rest) := by
  match rest with
  | [] => rfl
  | [a] => exact if_neg fun h => hrest (congrArg some h)
  | a :: b :: rest => exact if_neg fun h => hrest (congrArg some h)

/-- Up to two quotes behind the closing ones belong to the string. -/
theorem closing_replicate (hq : q ≤ 2) (hrest : rest.head? ≠ some quote) :
    closing quote (List.replicate q quote ++ rest) = (List.replicate q quote, rest) := by
  have hq' : q = 0 ∨ q = 1 ∨ q = 2 := by omega
  rcases hq' with rfl | rfl | rfl
  · exact closing_of_ne hrest
  · cases rest with
    | nil => simp [closing]
    | cons b rest =>
        have hb : b ≠ quote := fun h => hrest (congrArg some h)
        simp [closing, hb]
  · simp [closing]

end Closing

namespace Lines

variable {quote : Char} {take : List Char → Option (List Char × List Char)} {q : Nat}

/-- Up to two quotes before another character are characters. -/
theorem replicate_append (h : Lines quote take) (hq : q ≤ 2) (hc : c ≠ quote) :
    take (List.replicate q quote ++ c :: rest) =
      (take (c :: rest)).map fun r => (List.replicate q quote ++ r.1, r.2) := by
  induction q with
  | zero => simp
  | succ q ih =>
      have hone : ¬ [quote, quote] <+: List.replicate q quote ++ c :: rest := by
        rintro ⟨tail, htail⟩
        have hq' : q = 0 ∨ q = 1 := by omega
        rcases hq' with rfl | rfl
        · simp [eq_comm, hc] at htail
        · simp [eq_comm, hc] at htail
      rw [List.replicate_succ, List.cons_append, h.keeps _ hone, ih (by omega), cons_eq_map,
        Option.map_map]
      rfl

/-- Up to two quotes before the closing ones are characters. -/
theorem replicate_close (h : Lines quote take) (hq : q ≤ 2) (hrest : rest.head? ≠ some quote) :
    take (List.replicate q quote ++ quote :: quote :: quote :: rest) =
      some (List.replicate q quote, rest) := by
  have hmoved : List.replicate q quote ++ quote :: quote :: quote :: rest =
      quote :: quote :: quote :: (List.replicate q quote ++ rest) := by
    have hq' : q = 0 ∨ q = 1 ∨ q = 2 := by omega
    rcases hq' with rfl | rfl | rfl <;> rfl
  rw [hmoved, h.closes, closing_replicate hq hrest]

end Lines

theorem takeBasicLines_written (h : Written c cs) (hquote : cs ≠ ['"']) (rest : List Char) :
    takeBasicLines false (cs ++ rest) = cons (some c) (takeBasicLines false rest) := by
  cases h with
  | plain hslash hreturn hplain =>
      have hc : c ≠ '"' := fun h => hquote (h ▸ rfl)
      rw [List.cons_append, List.nil_append, takeBasicLines]
      · rcases hplain with rfl | hprintable
        · rfl
        · simp [hprintable, hslash]
      · exact fun _ h => absurd h hc
      · exact fun _ _ _ _ _ h => absurd h hslash
      · exact fun _ _ _ _ _ _ _ _ _ h => absurd h hslash
      · exact fun _ _ h => absurd h hslash
      · exact fun _ h => absurd h hreturn
  | @short e _ he =>
      rw [← he]
      unfold escaped? at he
      split at he
      case h_8 => cases he
      all_goals rfl
  | code hcode =>
      rw [← hcode]
      rfl

/-- A string with escapes is read up to its closing quotes. -/
theorem takeBasicLines_linesChars (cs : List Char) {q : Nat} (hq : q ≤ 2)
    (hrest : rest.head? ≠ some '"') :
    takeBasicLines false (List.replicate q '"' ++ (linesChars q cs ++ '"' :: '"' :: '"' :: rest)) =
      some (List.replicate q '"' ++ cs, rest) := by
  induction cs generalizing q with
  | nil => simpa [linesChars] using lines_takeBasicLines.replicate_close hq hrest
  | cons c cs ih =>
      have hnext := ih (q := 0) (by decide)
      simp only [List.replicate_zero, List.nil_append] at hnext
      by_cases hc : c = '"'
      · by_cases hfull : q = 2
        · have hescaped : Written '"' ['\\', '"'] := .short rfl
          have hread := takeBasicLines_written hescaped (by decide)
            (linesChars 0 cs ++ '"' :: '"' :: '"' :: rest)
          rw [hnext, cons_some] at hread
          simp only [linesChars, hc, hfull, if_true, List.cons_append, List.nil_append] at hread ⊢
          rw [lines_takeBasicLines.replicate_append (by decide) (by decide), hread]
          rfl
        · have hmore := ih (q := q + 1) (by omega)
          simp only [linesChars, hc, hfull, if_true, if_false, List.cons_append]
          rw [List.replicate_succ', List.append_assoc, List.append_assoc] at hmore
          simpa using hmore
      · have hne : escape c ≠ ['"'] := fun h => hc (eq_of_written (h ▸ written_escape c))
        have hread := takeBasicLines_written (written_escape c) hne
          (linesChars 0 cs ++ '"' :: '"' :: '"' :: rest)
        obtain ⟨d, ds, hd, hfirst⟩ := exists_written_eq_cons (written_escape c)
        have hdquote : d ≠ '"' := by
          rcases hfirst with rfl | ⟨rfl, -⟩
          · decide
          · exact hc
        rw [hnext, cons_some] at hread
        simp only [linesChars, hc, if_false, List.append_assoc]
        rw [hd, List.cons_append] at hread ⊢
        rw [lines_takeBasicLines.replicate_append hq hdquote, hread]
        rfl

theorem le_longestRun (c : Char) (run : Nat) (cs : List Char) : run ≤ longestRun c run cs := by
  induction cs generalizing run with
  | nil => exact Nat.le_refl run
  | cons d cs ih =>
      rw [longestRun]
      split
      · exact Nat.le_of_succ_le (ih (run + 1))
      · exact Nat.le_max_left _ _

theorem takeLiteralLines_plain (hc : isControl c = false) (hquote : c ≠ '\'') (rest : List Char) :
    takeLiteralLines (c :: rest) = cons (some c) (takeLiteralLines rest) := by
  have hreturn : c ≠ '\r' := by
    rintro rfl
    exact absurd hc (by decide)
  rw [takeLiteralLines]
  · by_cases hbreak : c = '\n'
    · simp [hbreak]
    · simp [isPrintable_of_not_isControl hc hbreak]
  · exact fun _ h => absurd h hquote
  · exact fun _ h => absurd h hreturn

/-- A string without escapes is read up to its closing quotes, if it has no three of them in a row. -/
theorem takeLiteralLines_append {q : Nat} (hrun : longestRun '\'' q cs ≤ 2)
    (hplain : ∀ c ∈ cs, isControl c = false) (hrest : rest.head? ≠ some '\'') :
    takeLiteralLines (List.replicate q '\'' ++ (cs ++ '\'' :: '\'' :: '\'' :: rest)) =
      some (List.replicate q '\'' ++ cs, rest) := by
  have hq : q ≤ 2 := Nat.le_trans (le_longestRun '\'' q cs) hrun
  induction cs generalizing q with
  | nil => simpa using lines_takeLiteralLines.replicate_close hq hrest
  | cons c cs ih =>
      have hcs : ∀ d ∈ cs, isControl d = false := fun d hd => hplain d (List.mem_cons_of_mem c hd)
      rw [longestRun] at hrun
      by_cases hc : c = '\''
      · rw [if_pos hc] at hrun
        have hmore := ih hrun hcs (Nat.le_trans (le_longestRun '\'' (q + 1) cs) hrun)
        rw [List.replicate_succ', List.append_assoc, List.append_assoc] at hmore
        simpa [hc] using hmore
      · rw [if_neg hc] at hrun
        have hread := ih (q := 0) (Nat.le_trans (Nat.le_max_right _ _) hrun) hcs (by decide)
        rw [List.replicate_zero, List.nil_append, List.nil_append] at hread
        rw [List.cons_append, lines_takeLiteralLines.replicate_append hq hc,
          takeLiteralLines_plain (hplain c List.mem_cons_self) hc, hread]
        rfl

/-! ## The written form -/

theorem dropBreak_of_ne (hbreak : cs.head? ≠ some '\n') (hreturn : cs.head? ≠ some '\r') :
    dropBreak cs = cs := by
  unfold dropBreak
  split
  · simp at hbreak
  · simp at hreturn
  · rfl

/-- The line break in front of a string of several lines is none of its characters. -/
theorem dropBreak_opening (h : '\n' ∉ cs → rest.head? ≠ some '\n' ∧ rest.head? ≠ some '\r') :
    dropBreak (opening cs ++ rest) = rest := by
  unfold opening
  by_cases hcs : '\n' ∈ cs
  · simp [hcs, dropBreak]
  · obtain ⟨hbreak, hreturn⟩ := h hcs
    simp [hcs, dropBreak_of_ne hbreak hreturn]

theorem head?_linesChars (hcs : '\n' ∉ cs) :
    (linesChars 0 cs ++ '"' :: rest).head? ≠ some '\n' ∧
      (linesChars 0 cs ++ '"' :: rest).head? ≠ some '\r' := by
  cases cs with
  | nil => simp [linesChars]
  | cons c cs =>
      by_cases hc : c = '"'
      · simp [linesChars, hc]
      · have hbreak : c ≠ '\n' := fun h => hcs (h ▸ List.mem_cons_self)
        obtain ⟨d, ds, hd, hfirst⟩ := exists_written_eq_cons (written_escape c)
        simp only [linesChars, hc, if_false, hd, List.cons_append, List.head?_cons, ne_eq,
          Option.some.injEq]
        rcases hfirst with rfl | ⟨rfl, hreturn⟩
        · decide
        · exact ⟨hbreak, hreturn⟩

/-! ## The choice of a form -/

theorem style_eq_literal (h : style cs = .literal) :
    cs ≠ [] ∧ ∀ c ∈ cs, isPrintable c = true ∧ c ≠ '\'' := by
  unfold style at h
  dsimp only at h
  split at h
  · cases h
  · rename_i hbasic
    split at h
    · rename_i hliteral
      simp only [Bool.and_eq_true, Bool.not_eq_true', List.any_eq_false, Bool.not_eq_true,
        List.contains_eq_mem, decide_eq_false_iff_not] at hliteral
      obtain ⟨⟨hcontrol, hbreak⟩, hquote⟩ := hliteral
      constructor
      · rintro rfl
        exact hbasic rfl
      · intro c hc
        exact ⟨isPrintable_of_not_isControl (hcontrol c hc) fun h => hbreak (h ▸ hc),
          fun h => hquote (h ▸ hc)⟩
    · split at h
      · cases h
      · split at h
        · cases h
        · split at h <;> cases h

theorem style_eq_literalLines (h : style cs = .literalLines) :
    longestRun '\'' 0 cs ≤ 2 ∧ ∀ c ∈ cs, isControl c = false := by
  unfold style at h
  dsimp only at h
  split at h
  · cases h
  · split at h
    · cases h
    · split at h
      · cases h
      · split at h
        · rename_i hliteral
          simp only [Bool.and_eq_true, Bool.not_eq_true', List.any_eq_false, Bool.not_eq_true,
            decide_eq_true_eq] at hliteral
          exact ⟨hliteral.2, hliteral.1⟩
        · split at h <;> cases h

/-! ## Written strings -/

theorem takeString_basic (hrest : rest.head? ≠ some '"') :
    takeString ('"' :: (cs.flatMap escapeInLine ++ '"' :: rest)) = some (cs, rest) := by
  rw [takeString]
  · exact takeBasic_flatMap cs rest
  · intro tail htail
    cases cs with
    | nil =>
        cases htail
        simp at hrest
    | cons c cs =>
        by_cases hc : c = '"'
        · simp [hc, escapeInLine] at htail
        · obtain ⟨d, ds, hd, hfirst⟩ := exists_written_eq_cons (written_escapeInLine c)
          rw [List.flatMap_cons, hd] at htail
          injection htail with hquote
          rcases hfirst with rfl | ⟨rfl, -⟩
          · exact absurd hquote (by decide)
          · exact hc hquote

theorem takeString_literal (hne : cs ≠ []) (hplain : ∀ c ∈ cs, isPrintable c = true ∧ c ≠ '\'')
    (rest : List Char) : takeString ('\'' :: (cs ++ '\'' :: rest)) = some (cs, rest) := by
  rw [takeString]
  · exact takeLiteral_append hplain rest
  · intro tail htail
    obtain ⟨c, cs, rfl⟩ := List.exists_cons_of_ne_nil hne
    injection htail with hquote
    exact (hplain c List.mem_cons_self).2 hquote

/-- A written string is read back, if no quote comes after it. -/
theorem takeString_stringChars (cs : List Char) (hdouble : rest.head? ≠ some '"')
    (hsingle : rest.head? ≠ some '\'') :
    takeString (stringChars cs ++ rest) = some (cs, rest) := by
  unfold stringChars
  cases hstyle : style cs with
  | basic =>
      simpa using takeString_basic hdouble
  | literal =>
      obtain ⟨hne, hplain⟩ := style_eq_literal hstyle
      simpa using takeString_literal hne hplain rest
  | basicLines =>
      have hread := takeBasicLines_linesChars cs (q := 0) (by decide) hdouble
      simp only [List.cons_append, List.append_assoc, List.nil_append, takeString]
      rw [dropBreak_opening]
      · exact hread
      · exact head?_linesChars
  | literalLines =>
      obtain ⟨hrun, hplain⟩ := style_eq_literalLines hstyle
      have hread := takeLiteralLines_append hrun hplain hsingle
      simp only [List.cons_append, List.append_assoc, List.nil_append, takeString]
      rw [dropBreak_opening]
      · exact hread
      · intro hcs
        cases cs with
        | nil => simp
        | cons c cs =>
            have hc := hplain c List.mem_cons_self
            simp only [List.cons_append, List.head?_cons, ne_eq, Option.some.injEq]
            constructor
            · rintro rfl
              exact hcs List.mem_cons_self
            · rintro rfl
              exact absurd hc (by decide)

end Toml

end Gatehouse
