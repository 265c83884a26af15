import Gatehouse.Dict.Lemmas
import Gatehouse.Proofs.Session.Key
import Mathlib.Data.List.Infix

/-!
# The longest rule decides

The rules that fit an address are all beginnings of its text, so that each of them begins the longer
ones, and two of the same length are one. The first rule that fits is therefore the longest one, since
a table holds its rules in that order, and a rule that does not fit or is shorter makes no difference.
-/

namespace Gatehouse

namespace Utf8

@[simp] theorem size_append (s t : String) : size (s ++ t) = size s + size t := by
  simp only [size, encode, String.toList_append, List.flatMap_append, List.length_append]

theorem size_pos {s : String} (h : s ≠ "") : 0 < size s := by
  obtain ⟨c, cs, hcons⟩ := List.exists_cons_of_ne_nil fun hnil => h (String.toList_eq_nil_iff.1 hnil)
  obtain ⟨b, bs, hbytes⟩ := List.exists_cons_of_ne_nil (@String.utf8EncodeChar_ne_nil c)
  simp [size, encode, hcons, hbytes]

end Utf8

namespace RegionTable

variable {rules : Dict String} {x : Address} {stem stem' region region' : String}

/-- A rule fits an address if the text of the address starts with it. -/
def Fits (stem : String) (x : Address) : Prop := ∃ rest, stem ++ rest = x.text

/-- A rule decides an address if it fits, and every other rule that fits is shorter. -/
structure Decides (rules : Dict String) (x : Address) (stem region : String) : Prop where
  rule : rules.get? stem = some region
  fits : Fits stem x
  longest : ∀ stem' region', rules.get? stem' = some region' → Fits stem' x → stem' ≠ stem →
    stem'.length < stem.length

/-! ## Beginnings of one text -/

/-- A text goes on from a beginning exactly if its characters do. -/
theorem exists_append_eq_iff {s : String} :
    (∃ rest, stem ++ rest = s) ↔ stem.toList <+: s.toList := by
  constructor
  · rintro ⟨rest, rfl⟩
    rw [String.toList_append]
    exact List.prefix_append _ _
  · rintro ⟨rest, hrest⟩
    refine ⟨String.ofList rest, String.toList_inj.1 ?_⟩
    rw [String.toList_append, String.toList_ofList, hrest]

theorem starts_iff_fits : starts stem x.text = true ↔ Fits stem x :=
  starts_iff.trans exists_append_eq_iff.symm

/-- The shorter of two rules that fit is the beginning of the other one. -/
theorem Fits.exists_append_eq (h : Fits stem x) (h' : Fits stem' x)
    (hle : stem.length ≤ stem'.length) : ∃ rest, stem ++ rest = stem' := by
  rw [← String.length_toList, ← String.length_toList] at hle
  apply exists_append_eq_iff.2
  exact List.prefix_of_prefix_length_le (exists_append_eq_iff.1 h) (exists_append_eq_iff.1 h') hle

/-- Of two rules that fit, the one of fewer bytes is the one of fewer characters. -/
theorem Fits.length_lt (h : Fits stem x) (h' : Fits stem' x) (hsize : Utf8.size stem ≤ Utf8.size stem')
    (hne : stem ≠ stem') : stem.length < stem'.length := by
  by_contra hlonger
  obtain ⟨rest, rfl⟩ := h'.exists_append_eq h (Nat.le_of_not_lt hlonger)
  have hrest : rest ≠ "" := by
    rintro rfl
    exact hne (String.append_empty)
  have hpos := Utf8.size_pos hrest
  rw [Utf8.size_append] at hsize
  omega

/-! ## The first rule that fits -/

theorem mem_ofRules {rule : String × String} :
    rule ∈ (ofRules rules).rules ↔ rules.get? rule.1 = some rule.2 := by
  rw [Dict.get?_eq_some_iff, ofRules, List.mem_mergeSort]
  rfl

/-- A table holds its rules from the longest to the shortest. -/
theorem pairwise_ofRules (rules : Dict String) :
    (ofRules rules).rules.Pairwise fun a b => Utf8.size b.1 ≤ Utf8.size a.1 := by
  have hsorted := @List.pairwise_mergeSort _
    (fun a b : String × String => decide (Utf8.size b.1 ≤ Utf8.size a.1))
    (fun a b c hab hbc => by simp only [decide_eq_true_eq] at *; omega)
    (fun a b => by simp only [Bool.or_eq_true, decide_eq_true_eq]; omega) rules.toList
  simp only [decide_eq_true_eq] at hsorted
  rw [ofRules]
  exact hsorted

/-- The first rule of a table that fits decides. -/
theorem decides_of_find? {rule : String × String}
    (h : (ofRules rules).rules.find? (fun rule => starts rule.1 x.text) = some rule) :
    Decides rules x rule.1 rule.2 := by
  have hsorted := pairwise_ofRules rules
  obtain ⟨hstarts, before, after, hsplit, hbefore⟩ := List.find?_eq_some_iff_append.1 h
  have hmem : rule ∈ (ofRules rules).rules := List.mem_of_find?_eq_some h
  have hfits : Fits rule.1 x := starts_iff_fits.1 hstarts
  refine ⟨mem_ofRules.1 hmem, hfits, ?_⟩
  intro stem' region' hrule' hfits' hne
  have hmem' : (stem', region') ∈ (ofRules rules).rules := mem_ofRules.2 hrule'
  rw [hsplit, List.mem_append, List.mem_cons] at hmem'
  rcases hmem' with hearlier | rfl | hlater
  · have hmisses := hbefore _ hearlier
    rw [starts_iff_fits.2 hfits'] at hmisses
    cases hmisses
  · exact absurd rfl hne
  · rw [hsplit, List.pairwise_append, List.pairwise_cons] at hsorted
    obtain ⟨-, ⟨hshorter, -⟩, -⟩ := hsorted
    have hsize : Utf8.size stem' ≤ Utf8.size rule.1 := hshorter (stem', region') hlater
    exact hfits'.length_lt hfits hsize hne

theorem Decides.unique (h : Decides rules x stem region) (h' : Decides rules x stem' region') :
    stem = stem' ∧ region = region' := by
  have hstem : stem = stem' := by
    by_contra hne
    have hlt := h'.longest _ _ h.rule h.fits hne
    have hgt := h.longest _ _ h'.rule h'.fits (Ne.symm hne)
    omega
  subst hstem
  exact ⟨rfl, Option.some.inj (h.rule.symm.trans h'.rule)⟩

/-- If a rule fits, one of the rules decides. -/
theorem exists_decides (hrule : rules.get? stem = some region) (hfits : Fits stem x) :
    ∃ stem region, Decides rules x stem region := by
  cases hfind : (ofRules rules).rules.find? (fun rule => starts rule.1 x.text) with
  | none =>
      have hmisses := List.find?_eq_none.1 hfind (stem, region) (mem_ofRules.2 hrule)
      exact absurd (starts_iff_fits.2 hfits) hmisses
  | some rule => exact ⟨_, _, decides_of_find? hfind⟩

theorem lookup_of_decides (h : Decides rules x stem region) : (ofRules rules).lookup x = region := by
  unfold lookup
  split
  case h_1 rule hfind => exact ((decides_of_find? hfind).unique h).2
  case h_2 hfind =>
    have hmisses := List.find?_eq_none.1 hfind (stem, region) (mem_ofRules.2 h.rule)
    exact absurd (starts_iff_fits.2 h.fits) hmisses

theorem lookup_of_none (h : ∀ stem region, rules.get? stem = some region → ¬ Fits stem x) :
    (ofRules rules).lookup x = "None" := by
  unfold lookup
  split
  case h_1 rule hfind =>
    have hdecides := decides_of_find? hfind
    exact absurd hdecides.fits (h _ _ hdecides.rule)
  case h_2 => rfl

/-! ## Further rules -/

/-- A rule goes on to decide beside another one that does not fit or is shorter. -/
theorem Decides.insert (h : Decides rules x stem region)
    (hweaker : ¬ Fits stem' x ∨ stem'.length < stem.length) :
    Decides (rules.insert stem' region') x stem region := by
  have hne : stem ≠ stem' := by
    rintro rfl
    rcases hweaker with hmisses | hshorter
    · exact hmisses h.fits
    · exact Nat.lt_irrefl _ hshorter
  refine ⟨?_, h.fits, ?_⟩
  · rw [Dict.get?_insert, if_neg hne]
    exact h.rule
  · intro other region'' hother hfits hdiffers
    rw [Dict.get?_insert] at hother
    split at hother
    case isTrue hsame =>
      subst hsame
      exact hweaker.resolve_left (not_not_intro hfits)
    case isFalse => exact h.longest _ _ hother hfits hdiffers

/-- Whatever the rules are, an address that some rule fits has the region of the longest rule that fits,
and there is one such rule only; an address that no rule fits has the region `None`. A further rule
that does not fit, or that is shorter than one that does, changes no answer. -/
theorem longest_rule_decides (rules : Dict String) (x : Address) :
    ((∃ stem region, rules.get? stem = some region ∧ Fits stem x) →
      ∃! rule : String × String, Decides rules x rule.1 rule.2) ∧
    (∀ stem region, Decides rules x stem region → (ofRules rules).lookup x = region) ∧
    ((∀ stem region, rules.get? stem = some region → ¬ Fits stem x) →
      (ofRules rules).lookup x = "None") ∧
    ∀ stem region, (¬ Fits stem x ∨ ∃ longer region', rules.get? longer = some region' ∧
      Fits longer x ∧ stem.length < longer.length) →
        (ofRules (rules.insert stem region)).lookup x = (ofRules rules).lookup x := by
  refine ⟨?_, fun _ _ => lookup_of_decides, lookup_of_none, ?_⟩
  · rintro ⟨stem, region, hrule, hfits⟩
    obtain ⟨stem, region, hdecides⟩ := exists_decides hrule hfits
    refine ⟨(stem, region), hdecides, ?_⟩
    intro rule hrule
    exact Prod.ext (hrule.unique hdecides).1 (hrule.unique hdecides).2
  · intro stem region hweaker
    by_cases hsome : ∃ stem region, rules.get? stem = some region ∧ Fits stem x
    · obtain ⟨_, _, hrule, hfits⟩ := hsome
      obtain ⟨best, bestRegion, hbest⟩ := exists_decides hrule hfits
      have hshorter : ¬ Fits stem x ∨ stem.length < best.length := by
        refine hweaker.imp_right ?_
        rintro ⟨longer, region', hlonger, hlongerFits, hlt⟩
        by_cases hsame : longer = best
        · exact hsame ▸ hlt
        · exact hlt.trans (hbest.longest _ _ hlonger hlongerFits hsame)
      rw [lookup_of_decides (hbest.insert hshorter), lookup_of_decides hbest]
    · have hnone : ∀ stem region, rules.get? stem = some region → ¬ Fits stem x :=
        fun stem region hrule hfits => hsome ⟨stem, region, hrule, hfits⟩
      have hmisses : ¬ Fits stem x := by
        rcases hweaker with hmisses | ⟨longer, region', hlonger, hlongerFits, -⟩
        · exact hmisses
        · exact absurd hlongerFits (hnone _ _ hlonger)
      rw [lookup_of_none hnone]
      apply lookup_of_none
      intro other region' hother
      rw [Dict.get?_insert] at hother
      split at hother
      case isTrue hsame => exact hsame ▸ hmisses
      case isFalse => exact hnone _ _ hother

/-- Three rules that fit one address, the empty one among them. -/
theorem longest_rule_decides_three :
    let rules := Dict.ofList [("", "ANY"), ("10.1", "CA"), ("10.", "US")]
    let x : Address := .v4 ⟨10, 1, 2, 3⟩
    Fits "" x ∧ Fits "10." x ∧ Decides rules x "10.1" "CA" ∧ (ofRules rules).lookup x = "CA" := by
  intro rules x
  have hdecides : Decides rules x "10.1" "CA" := by
    refine ⟨by decide, ⟨".2.3", by decide +kernel⟩, ?_⟩
    intro stem' region' hrule _ hne
    have hall : ∀ rule ∈ rules.entries, rule.1 ≠ "10.1" → rule.1.length < "10.1".length := by
      decide
    exact hall _ (Dict.mem_of_lookup hrule) hne
  exact ⟨⟨"10.1.2.3", by decide +kernel⟩, ⟨"1.2.3", by decide +kernel⟩, hdecides,
    (longest_rule_decides rules x).2.1 _ _ hdecides⟩

end RegionTable

end Gatehouse
