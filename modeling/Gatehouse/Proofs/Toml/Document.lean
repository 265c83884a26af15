import Gatehouse.Dict.Lemmas
import Gatehouse.Proofs.Toml.Reader
import Gatehouse.Toml.Document
import Mathlib.Data.List.Nodup

/-!
# Documents are read back

A table is written as its plain entries, and then as one section for each table in it. A document is
read back as its statements, and those build it up again: each table with its plain entries first. A
table that only holds sections has no header of its own, and comes back as one that others imply.
-/

namespace Gatehouse

namespace Toml

variable {k : String} {n : Nat} {v : Toml} {entries : Entries}

/-! ## What is written -/

/-- The plain entries among some entries. -/
def own (entries : Entries) : Entries := entries.filter fun e => !isSection e.2

/-- A table that holds sections and nothing else is written without a header. -/
def headless (entries : Entries) : Bool := (own entries).isEmpty && !entries.isEmpty

/-- A table with a header whose other values are plain and whose keys are distinct; `n` is how deep
tables may lie in one another. -/
inductive Sound : Nat → Toml → Prop
  | plain {n : Nat} {v : Toml} (h : Plain v) : Sound n v
  | table {n : Nat} {entries : Entries} (hkeys : (entries.map Prod.fst).Nodup)
      (h : ∀ e ∈ entries, Sound n e.2) : Sound (n + 1) (.table .header entries)

mutual

/-- The statements of a section. -/
def sectionStatements (above : List String) (key : String) : Toml → List Statement
  | .table .header entries =>
      (if headless entries then [] else .header above key :: (own entries).map pairOf) ++
        nestedStatements (above ++ [key]) entries
  | _ => []

/-- The statements of the sections among some entries. -/
def nestedStatements (path : List String) : List (String × Toml) → List Statement
  | [] => []
  | (k, v) :: rest => sectionStatements path k v ++ nestedStatements path rest

end

/-- The statements of a document. -/
def document (entries : Entries) : List Statement :=
  (own entries).map pairOf ++ nestedStatements [] entries

mutual

/-- A section as it is built up. -/
def built : Toml → Toml
  | .table .header entries =>
      .table (if headless entries then .implied else .header) (own entries ++ builtSections entries)
  | v => v

/-- The sections among some entries as they are built up. -/
def builtSections : List (String × Toml) → Entries
  | [] => []
  | (k, v) :: rest => if isSection v then (k, built v) :: builtSections rest else builtSections rest

end

theorem isSection_of_plain {v : Toml} (h : Plain v) : isSection v = false := by
  cases h <;> rfl

theorem own_of_plain (h : ∀ e ∈ entries, Plain e.2) : own entries = entries :=
  List.filter_eq_self.2 fun e he => by simp [isSection_of_plain (h e he)]

theorem builtSections_of_plain (h : ∀ e ∈ entries, Plain e.2) : builtSections entries = [] := by
  induction entries with
  | nil => rfl
  | cons e entries ih =>
      rw [builtSections, isSection_of_plain (h e List.mem_cons_self),
        ih fun e' he' => h e' (List.mem_cons_of_mem e he')]
      rfl

theorem own_cons_plain {e : String × Toml} (h : isSection e.2 = false) :
    own (e :: entries) = e :: own entries := by
  simp [own, h]

theorem own_cons_section {e : String × Toml} (h : isSection e.2 = true) :
    own (e :: entries) = own entries := by
  simp [own, h]

theorem builtSections_cons_plain {e : String × Toml} (h : isSection e.2 = false) :
    builtSections (e :: entries) = builtSections entries := by
  simp [builtSections, h]

theorem builtSections_cons_section {e : String × Toml} (h : isSection e.2 = true) :
    builtSections (e :: entries) = (e.1, built e.2) :: builtSections entries := by
  simp [builtSections, h]

theorem plain_of_not_isSection (h : Sound n v) (hv : isSection v = false) : Plain v := by
  cases h with
  | plain h => exact h
  | table => simp [isSection] at hv

theorem plain_of_mem_own {e : String × Toml} (h : ∀ e ∈ entries, Sound n e.2) (he : e ∈ own entries) :
    Plain e.2 := by
  obtain ⟨he, hplain⟩ := List.mem_filter.1 he
  exact plain_of_not_isSection (h e he) (by simpa using hplain)

/-! ## Statements -/

/-- If the sections of some entries are read, wherever they stand, they are read one by one. -/
theorem statements?_nested (path : List String)
    (h : ∀ e ∈ entries, ∀ rest, statements? (sectionChars (path ++ [e.1]) e.2 ++ rest) =
      (statements? rest).map (sectionStatements path e.1 e.2 ++ ·)) (rest : List Char) :
    statements? (entrySections path entries ++ rest) =
      (statements? rest).map (nestedStatements path entries ++ ·) := by
  induction entries with
  | nil => simp [entrySections, nestedStatements]
  | cons e entries ih =>
      have hrest := ih fun e' he' => h e' (List.mem_cons_of_mem e he')
      rw [entrySections, List.append_assoc, h e List.mem_cons_self, hrest, Option.map_map,
        nestedStatements]
      simp [Function.comp_def]

theorem statements?_section (h : Sound n v) (above : List String) (key : String)
    (hn : above.length + n ≤ nesting) (rest : List Char) :
    statements? (sectionChars (above ++ [key]) v ++ rest) =
      (statements? rest).map (sectionStatements above key v ++ ·) := by
  induction h generalizing above key rest with
  | plain h => cases h <;> simp [sectionChars, sectionStatements]
  | @table n entries _ h ih =>
      have hown := statements?_flatMap fun e he => plain_of_mem_own h he
      have hnested := statements?_nested (above ++ [key])
        fun e he rest => ih e he (above ++ [key]) e.1 (by simp; omega) rest
      rw [sectionChars, sectionStatements, ← own, ← headless]
      split
      · simp [hnested]
      · simp only [List.cons_append, List.append_assoc]
        rw [statements?_headerChars (by omega), hown, hnested]
        simp [Function.comp_def]

/-- A written document is read back as the statements it is made of. -/
theorem statements?_render (h : Sound (nesting + 1) (.table .header entries)) :
    statements? (render entries).toList = some (document entries) := by
  cases h with
  | plain h => cases h
  | table _ h =>
      have hown := statements?_flatMap fun e he => plain_of_mem_own h he
      have hnested := statements?_nested []
        (fun e he rest => statements?_section (h e he) [] e.1 (by simp) rest) []
      have hnil : statements? [] = some [] := by simp [statements?, dropFiller]
      rw [List.append_nil, hnil] at hnested
      rw [render, String.toList_ofList, ← own, hown, hnested]
      simp [document]

/-- A text that is read has no mark in front of it. -/
theorem dropMark_eq {cs : List Char} {l : List Statement} (h : statements? cs = some l) :
    dropMark cs = cs := by
  unfold dropMark
  split
  · rename_i rest
    have hfiller : dropFiller false ('\uFEFF' :: rest) = some ('\uFEFF' :: rest) := rfl
    have hkey : takeKey nesting ('\uFEFF' :: rest) = none := rfl
    simp [statements?, hfiller, takeStatement, takePair, hkey] at h
  · rfl

/-! ## Building below a table -/

/-- The statement that does below a table what another does at the root. -/
def Statement.under (k : String) : Statement → Statement
  | .header above key => .header (k :: above) key
  | .element above key => .element (k :: above) key
  | .pair above key value => .pair above key value

theorem replaceEntry_append (h : k ∉ entries.map Prod.fst) (v w : Toml) :
    replaceEntry k w (entries ++ [(k, v)]) = entries ++ [(k, w)] := by
  have hsame : replaceEntry k w entries = entries := by
    refine (List.map_congr_left fun e he => ?_).trans (List.map_id entries)
    have hne : e.1 ≠ k := fun heq => h (List.mem_map.2 ⟨e, he, heq⟩)
    simp [hne]
  have hlast : replaceEntry k w [(k, v)] = [(k, w)] := by simp [replaceEntry]
  exact List.map_append.trans (congrArg₂ (· ++ ·) hsame hlast)

variable {origin : Origin} {es : Entries} {here : List String}

/-- What happens below the last table happens to its entries. -/
theorem within_append {change : Origin → Entries → Option Entries} {above : List String}
    (hk : k ∉ entries.map Prod.fst) (horigin : origin ≠ .inline) (origin' : Origin) :
    within change (k :: above) origin' (entries ++ [(k, Toml.table origin es)]) =
      (within change above origin es).map fun es => entries ++ [(k, Toml.table origin es)] := by
  have hlookup : (entries ++ [(k, Toml.table origin es)]).lookup k = some (.table origin es) := by
    simp [List.lookup_append, Dict.lookup_eq_none_of_fresh hk]
  rw [within, hlookup]
  cases origin with
  | inline => exact absurd rfl horigin
  | header => simp [replaceEntry_append hk]
  | implied => simp [replaceEntry_append hk]
  | dotted => simp [replaceEntry_append hk]

theorem within_origin {change : Origin → Entries → Option Entries}
    (h : ∀ es, change origin es = change .header es) (above : List String) (es : Entries) :
    within change above origin es = within change above .header es := by
  cases above with
  | nil => exact h es
  | cons part above => rfl

theorem insertPair_origin (horigin : origin ≠ .dotted) (dotted : Bool) (key : String) (value : Toml)
    (above : List String) (es : Entries) :
    insertPair dotted key value above origin es = insertPair dotted key value above .header es := by
  cases above with
  | nil =>
      have hsame : (origin == Origin.dotted) = (Origin.header == Origin.dotted) := by
        cases origin <;> first | rfl | exact absurd rfl horigin
      rw [insertPair, insertPair, addPair, addPair, hsame]
  | cons part above => rfl

/-- A builder whose last table is another builder's document. -/
def Builder.below (entries : Entries) (k : String) (origin : Origin) (b : Builder) : Builder :=
  ⟨entries ++ [(k, .table origin b.entries)], k :: b.here⟩

theorem step_below (hk : k ∉ entries.map Prod.fst) (horigin : origin = .header ∨ origin = .implied)
    (b : Builder) (s : Statement) :
    (b.below entries k origin).step (s.under k) = (b.step s).map (Builder.below entries k origin) := by
  have hinline : origin ≠ .inline := by rcases horigin with rfl | rfl <;> decide
  have hdotted : origin ≠ .dotted := by rcases horigin with rfl | rfl <;> decide
  cases s with
  | header above key =>
      have hopen : ∀ es, (fun _ es => openTable key es) origin es = openTable key es := fun _ => rfl
      rw [Statement.under, Builder.step, Builder.below, within_append hk hinline, within_origin hopen]
      simp [Builder.step, Function.comp_def, Builder.below]
  | element above key =>
      have hopen : ∀ es, (fun _ es => openElement key es) origin es = openElement key es :=
        fun _ => rfl
      rw [Statement.under, Builder.step, Builder.below, within_append hk hinline, within_origin hopen]
      simp [Builder.step, Function.comp_def, Builder.below]
  | pair above key value =>
      rw [Statement.under, Builder.step, Builder.below, within_append hk hinline,
        within_origin (insertPair_origin hdotted _ key value above)]
      simp [Builder.step, Function.comp_def, Builder.below]

/-- Statements below a table build up its entries as they would build up a document. -/
theorem run_below (hk : k ∉ entries.map Prod.fst) (horigin : origin = .header ∨ origin = .implied)
    (b : Builder) (l : List Statement) :
    (b.below entries k origin).run (l.map (.under k)) =
      (b.run l).map (Builder.below entries k origin) := by
  induction l generalizing b with
  | nil => rfl
  | cons s l ih =>
      rw [List.map_cons, Builder.run, Builder.run, step_below hk horigin]
      cases b.step s with
      | none => rfl
      | some b' => exact ih b'

theorem run_append (b : Builder) (l l' : List Statement) :
    b.run (l ++ l') = (b.run l).bind fun b' => b'.run l' := by
  induction l generalizing b with
  | nil => rfl
  | cons s l ih =>
      rw [List.cons_append, Builder.run, Builder.run]
      cases b.step s with
      | none => rfl
      | some b' => exact ih b'

/-! ## Sections -/

theorem sectionStatements_of_not_isSection (hv : isSection v = false) (above : List String)
    (key : String) : sectionStatements above key v = [] := by
  unfold sectionStatements
  split
  · simp [isSection] at hv
  · rfl

/-- If sections below a table are those at the root, so are all of them together. -/
theorem nestedStatements_cons (path : List String)
    (h : ∀ e ∈ entries, sectionStatements (k :: path) e.1 e.2 =
      (sectionStatements path e.1 e.2).map (.under k)) :
    nestedStatements (k :: path) entries = (nestedStatements path entries).map (.under k) := by
  induction entries with
  | nil => rfl
  | cons e entries ih =>
      rw [nestedStatements, nestedStatements, h e List.mem_cons_self,
        ih fun e' he' => h e' (List.mem_cons_of_mem e he'), List.map_append]

theorem sectionStatements_cons (h : Sound n v) (k : String) (above : List String) (key : String) :
    sectionStatements (k :: above) key v = (sectionStatements above key v).map (.under k) := by
  induction h generalizing above key with
  | plain h => cases h <;> rfl
  | @table n entries _ _ ih =>
      have hnested := nestedStatements_cons (above ++ [key])
        fun e he => ih e he (above ++ [key]) e.1
      have hown : ((own entries).map pairOf).map (.under k) = (own entries).map pairOf := by
        rw [List.map_map]
        rfl
      rw [sectionStatements, sectionStatements, List.cons_append, hnested, List.map_append]
      split
      · rfl
      · rw [List.map_cons, hown]
        rfl

/-- A statement is a header. -/
def Statement.IsHeader (s : Statement) : Prop := ∃ above key, s = .header above key

/-- If each section starts with a header, so do the sections of a table without one. -/
theorem exists_header_nested (path : List String) (hhead : headless entries = true)
    (h : ∀ e ∈ entries, isSection e.2 = true →
      ∃ s rest, sectionStatements path e.1 e.2 = s :: rest ∧ s.IsHeader) :
    ∃ s rest, nestedStatements path entries = s :: rest ∧ s.IsHeader := by
  obtain ⟨hown, hsome⟩ := Bool.and_eq_true_iff.1 hhead
  cases entries with
  | nil => cases hsome
  | cons e entries =>
      have hsection : isSection e.2 = true := by
        simp only [own, List.isEmpty_iff, List.filter_eq_nil_iff] at hown
        simpa using hown e List.mem_cons_self
      obtain ⟨s, rest, hrest, hs⟩ := h e List.mem_cons_self hsection
      exact ⟨s, rest ++ nestedStatements path entries, by rw [nestedStatements, hrest]; rfl, hs⟩

theorem exists_header_section (h : Sound n v) (hv : isSection v = true) (above : List String)
    (key : String) : ∃ s rest, sectionStatements above key v = s :: rest ∧ s.IsHeader := by
  induction h generalizing above key with
  | plain h => cases h <;> cases hv
  | @table n entries _ _ ih =>
      rw [sectionStatements]
      by_cases hhead : headless entries = true
      · obtain ⟨s, rest, hrest, hs⟩ := exists_header_nested (above ++ [key]) hhead
          fun e he hsection => ih e he hsection (above ++ [key]) e.1
        exact ⟨s, rest, by rw [if_pos hhead, hrest]; rfl, hs⟩
      · exact ⟨.header above key, _, by rw [if_neg hhead]; rfl, above, key, rfl⟩

/-! ## Documents -/

/-- Plain entries are added one by one. -/
theorem run_own {own : Entries} (hkeys : ((entries ++ own).map Prod.fst).Nodup) :
    (⟨entries, []⟩ : Builder).run (own.map pairOf) = some ⟨entries ++ own, []⟩ := by
  induction own generalizing entries with
  | nil => simp [Builder.run]
  | cons e own ih =>
      have hk : e.1 ∉ entries.map Prod.fst := by
        rw [List.map_append, List.map_cons, List.nodup_append] at hkeys
        exact fun hmem => hkeys.2.2 e.1 hmem e.1 List.mem_cons_self rfl
      have hstep : (⟨entries, []⟩ : Builder).step (pairOf e) = some ⟨entries ++ [e], []⟩ := by
        simp [Builder.step, pairOf, within, insertPair, addPair, Dict.lookup_eq_none_of_fresh hk]
      rw [List.append_cons] at hkeys ⊢
      rw [List.map_cons, Builder.run, hstep]
      exact ih hkeys

/-- A section that is new is built up as the last of the tables there are. -/
def Builds (v : Toml) : Prop :=
  ∀ (b : Builder) (k : String), k ∉ b.entries.map Prod.fst →
    ∃ here, b.run (sectionStatements [] k v) = some ⟨b.entries ++ [(k, built v)], here⟩

theorem run_nested (h : ∀ e ∈ entries, isSection e.2 = true → Builds e.2)
    (hkeys : (entries.map Prod.fst).Nodup) (b : Builder)
    (hnew : ∀ e ∈ entries, isSection e.2 = true → e.1 ∉ b.entries.map Prod.fst) :
    ∃ here, b.run (nestedStatements [] entries) = some ⟨b.entries ++ builtSections entries, here⟩ := by
  induction entries generalizing b with
  | nil => exact ⟨b.here, by simp [nestedStatements, builtSections, Builder.run]⟩
  | cons e entries ih =>
      rw [List.map_cons, List.nodup_cons] at hkeys
      have hrest := ih (fun e' he' => h e' (List.mem_cons_of_mem e he')) hkeys.2
      cases hsection : isSection e.2 with
      | false =>
          obtain ⟨here, hrun⟩ := hrest b fun e' he' => hnew e' (List.mem_cons_of_mem e he')
          refine ⟨here, ?_⟩
          rw [nestedStatements, sectionStatements_of_not_isSection hsection, List.nil_append, hrun,
            builtSections, hsection]
          rfl
      | true =>
          obtain ⟨here, hrun⟩ := h e List.mem_cons_self hsection b e.1
            (hnew e List.mem_cons_self hsection)
          have hnext : ∀ e' ∈ entries, isSection e'.2 = true →
              e'.1 ∉ (b.entries ++ [(e.1, built e.2)]).map Prod.fst := by
            intro e' he' hsection' hmem
            rw [List.map_append, List.mem_append] at hmem
            rcases hmem with hold | hlast
            · exact hnew e' (List.mem_cons_of_mem e he') hsection' hold
            · exact hkeys.1 (List.mem_map.2 ⟨e', he', by simpa using hlast⟩)
          obtain ⟨here', hrun'⟩ := hrest ⟨b.entries ++ [(e.1, built e.2)], here⟩ hnext
          refine ⟨here', ?_⟩
          rw [nestedStatements, run_append, hrun, Option.bind_some, hrun', builtSections, hsection]
          simp

/-- The statements of a document build up its entries. -/
theorem run_document (h : ∀ e ∈ entries, isSection e.2 = true → Builds e.2)
    (hkeys : (entries.map Prod.fst).Nodup) :
    ∃ here, (⟨[], []⟩ : Builder).run (document entries) =
      some ⟨own entries ++ builtSections entries, here⟩ := by
  have hown : ((own entries).map Prod.fst).Nodup := hkeys.sublist (List.filter_sublist.map Prod.fst)
  have hnew : ∀ e ∈ entries, isSection e.2 = true → e.1 ∉ (own entries).map Prod.fst := by
    intro e he hsection hmem
    obtain ⟨e', he', heq⟩ := List.mem_map.1 hmem
    obtain ⟨he', hplain⟩ := List.mem_filter.1 he'
    have hsame : e' = e := List.inj_on_of_nodup_map hkeys he' he heq
    simp [hsame, hsection] at hplain
  obtain ⟨here, hrun⟩ := run_nested h hkeys ⟨own entries, []⟩ hnew
  refine ⟨here, ?_⟩
  rw [document, run_append, run_own (by simpa using hown), Option.bind_some, List.nil_append, hrun]

/-- A header below a table that is missing makes the table. -/
theorem step_header_below (b : Builder) (hk : k ∉ b.entries.map Prod.fst) (above : List String)
    (key : String) : b.step (.header (k :: above) key) =
      ((⟨[], []⟩ : Builder).below b.entries k .implied).step (.header (k :: above) key) := by
  rw [Builder.step, Builder.step, Builder.below, within_append hk (by decide), within,
    Dict.lookup_eq_none_of_fresh hk]

/-- A new section does below its table what a document does at the root. -/
theorem run_section (h : ∀ e ∈ entries, Sound n e.2) (b : Builder)
    (hk : k ∉ b.entries.map Prod.fst) :
    b.run (sectionStatements [] k (.table .header entries)) =
      ((⟨[], []⟩ : Builder).below b.entries k
        (if headless entries then .implied else .header)).run ((document entries).map (.under k)) := by
  have hnested : nestedStatements [k] entries = (nestedStatements [] entries).map (.under k) :=
    nestedStatements_cons [] fun e he => sectionStatements_cons (h e he) k [] e.1
  rw [sectionStatements, List.nil_append, hnested, document, List.map_append, List.map_map]
  by_cases hhead : headless entries = true
  · obtain ⟨s, rest, hrest, above, key, rfl⟩ := exists_header_nested [] hhead
      fun e he hsection => exists_header_section (h e he) hsection [] e.1
    have hown : own entries = [] := List.isEmpty_iff.1 (Bool.and_eq_true_iff.1 hhead).1
    rw [if_pos hhead, if_pos hhead, hown, hrest, List.map_cons, List.nil_append, List.map_nil,
      List.nil_append, Statement.under, Builder.run, Builder.run, step_header_below b hk]
  · have hopen : b.step (.header [] k) = some ((⟨[], []⟩ : Builder).below b.entries k .header) := by
      simp [Builder.step, within, openTable, Dict.lookup_eq_none_of_fresh hk, Builder.below]
    rw [if_neg hhead, if_neg hhead, List.cons_append, Builder.run, hopen]
    rfl

theorem builds_of_sound (h : Sound n v) (hv : isSection v = true) : Builds v := by
  induction h with
  | plain h => cases h <;> cases hv
  | @table n entries hkeys h ih =>
      intro b k hk
      obtain ⟨here, hrun⟩ := run_document (fun e he hsection => ih e he hsection) hkeys
      have horigin : (if headless entries then Origin.implied else Origin.header) = .header ∨
          (if headless entries then Origin.implied else Origin.header) = .implied := by
        cases headless entries with
        | false => exact .inl rfl
        | true => exact .inr rfl
      refine ⟨k :: here, ?_⟩
      rw [run_section h b hk, run_below hk horigin, hrun, built]
      rfl

/-- A written document is read back as its entries, the plain ones first. -/
theorem parse?_render (h : Sound (nesting + 1) (.table .header entries)) :
    parse? (render entries) = some (own entries ++ builtSections entries) := by
  have hread := statements?_render h
  rw [parse?, dropMark_eq hread, hread, Option.bind_some, ofStatements?]
  cases h with
  | plain h => cases h
  | table hkeys h =>
      obtain ⟨here, hrun⟩ := run_document (fun e he hsection => builds_of_sound (h e he) hsection) hkeys
      rw [hrun]
      rfl

end Toml

end Gatehouse
