import Gatehouse.Files.Path

/-!
# The last name of a path

A path that does not end in a slash ends in its last name. Another extension in place of that name's
own gives a path in the same directory, which ends in a name with that extension, or in two dots if
nothing but a dot stood before the old one.
-/

namespace Gatehouse

namespace Path

/-! ## Splitting at slashes -/

theorem split_ne_nil (cs : List Char) : split cs ≠ [] := by
  cases cs with
  | nil => exact List.cons_ne_nil _ _
  | cons c rest =>
      unfold split
      split
      · exact List.cons_ne_nil _ _
      · split
        · exact List.cons_ne_nil _ _
        · exact List.cons_ne_nil _ _

theorem split_append (x y : List Char) : split (x ++ '/' :: y) = split x ++ split y := by
  induction x with
  | nil => rfl
  | cons c rest ih =>
      by_cases hc : c = '/'
      · subst hc
        exact congrArg (List.cons []) ih
      · obtain ⟨part, parts, hparts⟩ := List.exists_cons_of_ne_nil (split_ne_nil rest)
        rw [List.cons_append, split, if_neg hc, ih, split, if_neg hc, hparts]
        rfl

theorem split_of_no_slash {cs : List Char} (h : '/' ∉ cs) : split cs = [cs] := by
  induction cs with
  | nil => rfl
  | cons c rest ih =>
      have hc : c ≠ '/' := fun hc => h (hc ▸ List.mem_cons_self)
      rw [split, if_neg hc, ih fun hrest => h (List.mem_cons_of_mem c hrest)]

theorem no_slash_of_mem_split {cs part : List Char} (h : part ∈ split cs) : '/' ∉ part := by
  induction cs generalizing part with
  | nil =>
      cases List.mem_singleton.1 h
      exact List.not_mem_nil
  | cons c rest ih =>
      by_cases hc : c = '/'
      · rw [split, if_pos hc] at h
        rcases List.mem_cons.1 h with rfl | hrest
        · exact List.not_mem_nil
        · exact ih hrest
      · obtain ⟨first, parts, hparts⟩ := List.exists_cons_of_ne_nil (split_ne_nil rest)
        rw [split, if_neg hc, hparts] at h
        rw [hparts] at ih
        rcases List.mem_cons.1 h with rfl | hrest
        · intro hslash
          rcases List.mem_cons.1 hslash with heq | hfirst
          · exact hc heq.symm
          · exact ih List.mem_cons_self hfirst
        · exact ih (List.mem_cons_of_mem first hrest)

/-- A character does not occur, or there is a last place where it does. -/
theorem exists_last (mark : Char) (cs : List Char) :
    mark ∉ cs ∨ ∃ above rest, cs = above ++ mark :: rest ∧ mark ∉ rest := by
  induction cs with
  | nil => exact .inl List.not_mem_nil
  | cons c rest ih =>
      rcases ih with hnone | ⟨above, rest', rfl, hrest⟩
      · by_cases hc : c = mark
        · exact .inr ⟨[], rest, by rw [hc]; rfl, hnone⟩
        · refine .inl fun hmark => ?_
          rcases List.mem_cons.1 hmark with heq | hmem
          · exact hc heq.symm
          · exact hnone hmem
      · exact .inr ⟨c :: above, rest', rfl, hrest⟩

/-! ## Last names -/

/-- A path ends in a name, which stands in a directory that is given by its characters. -/
structure EndsIn (path : String) (directory : List Char) (name : String) : Prop where
  text : path.toList = directory ++ name.toList
  directory : directory = [] ∨ ∃ above, directory = above ++ ['/']
  name_ne : name ≠ ""
  no_slash : '/' ∉ name.toList

variable {path name extension : String} {directory : List Char} {before : List String}

theorem EndsIn.steps (h : EndsIn path directory name) : ∃ before, steps path = before ++ [name] := by
  have hname : ([name.toList].map String.ofList).filter (fun p => p != "") = [name] := by
    rw [List.map_singleton, String.ofList_toList]
    exact List.filter_cons_of_pos (bne_iff_ne.2 h.name_ne)
  unfold Path.steps
  rcases h.directory with hnone | ⟨above, habove⟩
  · rw [h.text, hnone, List.nil_append, split_of_no_slash h.no_slash, hname]
    exact ⟨[], rfl⟩
  · rw [h.text, habove, List.append_assoc, List.singleton_append, split_append,
      split_of_no_slash h.no_slash, List.map_append, List.filter_append, hname]
    exact ⟨_, rfl⟩

theorem EndsIn.name_eq (h : EndsIn path directory name) {last : String}
    (hsteps : Path.steps path = before ++ [last]) : last = name := by
  obtain ⟨before', hsteps'⟩ := h.steps
  exact (List.append_inj' (hsteps.symm.trans hsteps') rfl).2 |> List.singleton_inj.1

/-- A path that does not end in a slash ends in its last step. -/
theorem endsIn_of_steps (hsteps : steps path = before ++ [name]) (hslash : endsInSlash path = false) :
    ∃ directory, EndsIn path directory name := by
  have hlast : path.toList.getLast? ≠ some '/' := of_decide_eq_false hslash
  have hfind : ∃ directory last, EndsIn path directory last := by
    rcases exists_last '/' path.toList with hnone | ⟨above, rest, htext, hrest⟩
    · refine ⟨[], path, rfl, .inl rfl, ?_, hnone⟩
      rintro rfl
      have hempty : steps "" = [] := by decide
      rw [hempty] at hsteps
      exact absurd hsteps.symm (List.append_ne_nil_of_right_ne_nil _ (List.cons_ne_nil _ _))
    · refine ⟨above ++ ['/'], String.ofList rest, ?_, .inr ⟨above, rfl⟩, ?_, ?_⟩
      · rw [htext, String.toList_ofList, List.append_assoc]
        rfl
      · intro hempty
        have hnil : rest = [] := by
          rw [← String.toList_ofList (l := rest), hempty]
          rfl
        rw [htext, hnil, List.getLast?_concat] at hlast
        exact hlast rfl
      · rw [String.toList_ofList]
        exact hrest
  obtain ⟨directory, last, hends⟩ := hfind
  exact ⟨directory, hends.name_eq hsteps ▸ hends⟩

theorem name_of_mem_steps {step : String} (h : step ∈ steps path) :
    step ≠ "" ∧ '/' ∉ step.toList := by
  obtain ⟨hmem, hne⟩ := List.mem_filter.1 h
  obtain ⟨part, hpart, rfl⟩ := List.mem_map.1 hmem
  refine ⟨bne_iff_ne.1 hne, ?_⟩
  rw [String.toList_ofList]
  exact no_slash_of_mem_split hpart

/-- The path of a step below some directories ends in that step. -/
theorem endsIn_ofParts (absolute : Bool) (here : List String) (hstep : name ∈ steps path) :
    ∃ directory, EndsIn (ofParts absolute (name :: here)) directory name := by
  obtain ⟨hname, hslash⟩ := name_of_mem_steps hstep
  have hroot : (if absolute then "/" else "").toList = [] ∨
      ∃ above, (if absolute then "/" else "").toList = above ++ ['/'] := by
    cases absolute with
    | true => exact .inr ⟨[], rfl⟩
    | false => exact .inl rfl
  unfold ofParts
  rw [List.reverse_cons]
  cases hhere : here.reverse with
  | nil =>
      refine ⟨_, ?_, hroot, hname, hslash⟩
      rw [List.nil_append, String.intercalate_singleton, String.toList_append]
  | cons first rest =>
      have hjoin := String.intercalate_append_of_ne_nil (s := "/") (List.cons_ne_nil first rest)
        (List.cons_ne_nil name [])
      refine ⟨(if absolute then "/" else "").toList ++
        (String.intercalate "/" (first :: rest)).toList ++ ['/'], ?_, .inr ⟨_, rfl⟩, hname, hslash⟩
      rw [hjoin, String.intercalate_singleton, String.toList_append, String.toList_append,
        String.toList_append, List.append_assoc, List.append_assoc, List.append_assoc]
      rfl

theorem EndsIn.name? (h : EndsIn path directory name) (hdot : name ≠ ".") :
    Path.name? path = if name = ".." then none else some name := by
  obtain ⟨before, hsteps⟩ := h.steps
  have hparts : (parts path).getLast? = some name := by
    have hname : [name].filter (fun p => p != ".") = [name] :=
      List.filter_eq_self.2 fun p hp => bne_iff_ne.2 (List.mem_singleton.1 hp ▸ hdot)
    unfold parts
    rw [hsteps, List.filter_append, hname, List.getLast?_concat]
  unfold Path.name?
  rw [hparts]
  split
  · rename_i heq
    cases heq
    rfl
  · rename_i hother
    rw [if_neg fun heq => hother (congrArg some heq)]

/-! ## Joining -/

theorem steps_of_slash {above rest : List Char} (htext : path.toList = above ++ '/' :: rest) :
    steps path = steps (String.ofList above) ++ steps (String.ofList rest) := by
  simp only [steps, htext, split_append, List.map_append, List.filter_append, String.toList_ofList]

theorem steps_of_no_slash (hname : name ≠ "") (hslash : '/' ∉ name.toList) : steps name = [name] := by
  rw [steps, split_of_no_slash hslash, List.map_singleton, String.ofList_toList]
  exact List.filter_cons_of_pos (bne_iff_ne.2 hname)

theorem isAbsolute_of_no_slash (hslash : '/' ∉ name.toList) : isAbsolute name = false :=
  decide_eq_false fun hhead => hslash (List.mem_of_head? hhead)

section Join

variable {base : String} (hname : name ≠ "") (hslash : '/' ∉ name.toList)
include hname hslash

/-- A directory that is joined with a name has one step more. -/
theorem steps_join : steps (join base name) = steps base ++ [name] := by
  have hstep := steps_of_no_slash hname hslash
  unfold join
  rw [isAbsolute_of_no_slash hslash, Bool.false_or]
  by_cases hempty : base.isEmpty = true
  · obtain rfl := String.isEmpty_iff.1 hempty
    rw [if_pos hempty, hstep]
    rfl
  · rw [if_neg hempty]
    by_cases hend : endsInSlash base = true
    · obtain ⟨above, habove⟩ := List.getLast?_eq_some_iff.1 (of_decide_eq_true hend)
      have hjoined : (base ++ name).toList = above ++ '/' :: name.toList := by
        rw [String.toList_append, habove, List.append_assoc]
        rfl
      rw [if_pos hend, steps_of_slash hjoined, steps_of_slash habove, String.ofList_toList, hstep,
        List.append_assoc]
      rfl
    · have hjoined : (base ++ "/" ++ name).toList = base.toList ++ '/' :: name.toList := by
        rw [String.toList_append, String.toList_append, List.append_assoc]
        rfl
      rw [if_neg hend, steps_of_slash hjoined, String.ofList_toList, String.ofList_toList, hstep]

theorem endsInSlash_join : endsInSlash (join base name) = false := by
  have hlast : ∀ directory : String, endsInSlash (directory ++ name) = false := by
    intro directory
    apply decide_eq_false
    intro hend
    rw [String.toList_append, List.getLast?_append] at hend
    cases hlast : name.toList.getLast? with
    | none => exact hname (String.toList_eq_nil_iff.1 (List.getLast?_eq_none_iff.1 hlast))
    | some c =>
        rw [hlast, Option.some_or] at hend
        exact hslash (List.mem_of_getLast? (hlast.trans hend))
  have hself := hlast ""
  rw [String.empty_append] at hself
  unfold join
  split
  · exact hself
  · split
    · exact hlast base
    · exact hlast (base ++ "/")

omit hname in
theorem isAbsolute_join : isAbsolute (join base name) = isAbsolute base := by
  have hrelative := isAbsolute_of_no_slash hslash
  have hhead : ∀ rest : String, base.isEmpty = false → isAbsolute (base ++ rest) = isAbsolute base := by
    intro rest hempty
    cases hhead : base.toList.head? with
    | none =>
        rw [String.toList_eq_nil_iff.1 (List.head?_eq_none_iff.1 hhead)] at hempty
        cases hempty
    | some c => rw [isAbsolute, isAbsolute, String.toList_append, List.head?_append, hhead, Option.some_or]
  unfold join
  rw [hrelative, Bool.false_or]
  cases hempty : base.isEmpty with
  | true =>
      rw [if_pos rfl, hrelative, String.isEmpty_iff.1 hempty]
      rfl
  | false =>
      rw [if_neg Bool.false_ne_true]
      split
      · exact hhead name hempty
      · rw [String.append_assoc]
        exact hhead ("/" ++ name) hempty

end Join

/-- The last of some parts can be read off their path. -/
theorem eq_of_ofParts_eq {absolute : Bool} {here : List String} {other : String} (hname : name ≠ "")
    (hslash : '/' ∉ name.toList) (hother : other ≠ "") (hslash' : '/' ∉ other.toList)
    (h : ofParts absolute (name :: here) = ofParts absolute (other :: here)) : name = other := by
  have hends : ∀ {last : String}, last ≠ "" → '/' ∉ last.toList →
      ∃ directory, EndsIn (ofParts absolute (last :: here)) directory last := by
    intro last hlast hunslashed
    have hstep : last ∈ steps last := by
      rw [steps_of_no_slash hlast hunslashed]
      exact List.mem_singleton_self last
    exact endsIn_ofParts absolute here hstep
  obtain ⟨_, hends₁⟩ := hends hname hslash
  obtain ⟨_, hends₂⟩ := hends hother hslash'
  rw [h] at hends₁
  obtain ⟨_, hsteps⟩ := hends₁.steps
  exact hends₂.name_eq hsteps

/-! ## Extensions -/

theorem takeWhile_reverse {mark : Char} {above rest : List Char} (hrest : mark ∉ rest) :
    ((above ++ mark :: rest).reverse.takeWhile (fun c => c != mark)).reverse = rest := by
  have hother : ∀ c ∈ rest.reverse, (c != mark) = true := by
    intro c hc
    apply bne_iff_ne.2
    rintro rfl
    exact hrest (List.mem_reverse.1 hc)
  have hmark : ¬ (mark != mark) = true := by
    rw [bne_self_eq_false]
    decide
  rw [List.reverse_append, List.reverse_cons, List.append_assoc, List.singleton_append,
    List.takeWhile_append_of_pos hother,
    List.takeWhile_cons_of_neg (p := fun c => c != mark) hmark, List.append_nil,
    List.reverse_reverse]

/-- A name with a dot is divided at the last one, unless nothing is in front of that. -/
theorem divide_of_dot {stem rest : List Char} (htext : name.toList = stem ++ '.' :: rest)
    (hrest : '.' ∉ rest) :
    divide name = if stem = [] then (name, none)
      else (String.ofList stem, some (String.ofList rest)) := by
  have hlength : name.length - rest.length - 1 = stem.length := by
    rw [← String.length_toList, htext, List.length_append, List.length_cons]
    omega
  unfold divide
  dsimp only
  rw [htext, takeWhile_reverse hrest, hlength, List.take_left]
  by_cases hstem : stem = []
  · rw [if_pos hstem, hstem]
    rfl
  · rw [if_neg hstem, if_neg (by rw [List.isEmpty_iff]; exact hstem)]

theorem divide_of_no_dot (hdot : '.' ∉ name.toList) : divide name = (name, none) := by
  have hall : (name.toList.reverse.takeWhile (fun c => c != '.')).reverse = name.toList := by
    have hother : ∀ c ∈ name.toList.reverse, (c != '.') = true := by
      intro c hc
      apply bne_iff_ne.2
      rintro rfl
      exact hdot (List.mem_reverse.1 hc)
    have hwhole : (name.toList.reverse ++ []).takeWhile (fun c => c != '.') =
        name.toList.reverse ++ [].takeWhile (fun c => c != '.') :=
      List.takeWhile_append_of_pos hother
    rw [List.append_nil, List.takeWhile_nil, List.append_nil] at hwhole
    rw [hwhole, List.reverse_reverse]
  unfold divide
  dsimp only
  rw [hall, String.length_toList, Nat.sub_self, Nat.zero_sub, List.take_zero]
  rfl

/-- A name has an extension exactly if a dot divides it from something in front. -/
theorem divide_eq_some_iff {stem : String} :
    divide name = (stem, some extension) ↔
      name = stem ++ "." ++ extension ∧ stem ≠ "" ∧ '.' ∉ extension.toList := by
  constructor
  · intro h
    rcases exists_last '.' name.toList with hnone | ⟨above, rest, htext, hrest⟩
    · rw [divide_of_no_dot hnone] at h
      cases h
    · rw [divide_of_dot htext hrest] at h
      split at h
      · cases h
      · rename_i habove
        cases h
        refine ⟨?_, ?_, ?_⟩
        · apply String.toList_inj.1
          simp only [htext, String.toList_append, String.toList_ofList, List.append_assoc]
          rfl
        · intro hempty
          apply habove
          rw [← String.toList_ofList (l := above), hempty]
          rfl
        · rw [String.toList_ofList]
          exact hrest
  · rintro ⟨rfl, hstem, hdot⟩
    have htext : (stem ++ "." ++ extension).toList = stem.toList ++ '.' :: extension.toList := by
      rw [String.toList_append, String.toList_append, List.append_assoc]
      rfl
    rw [divide_of_dot htext hdot, if_neg fun hnil => hstem (String.toList_eq_nil_iff.1 hnil),
      String.ofList_toList, String.ofList_toList]

/-- A name without an extension stays whole. -/
theorem eq_of_divide_eq_none {stem : String} (h : divide name = (stem, none)) : stem = name := by
  rcases exists_last '.' name.toList with hnone | ⟨above, rest, htext, hrest⟩
  · rw [divide_of_no_dot hnone] at h
    cases h
    rfl
  · rw [divide_of_dot htext hrest] at h
    split at h
    · cases h
      rfl
    · cases h

theorem dropTail_cons {c : Char} {rest : List Char} (hc : c ≠ '/')
    (hrest : c = '.' → rest.head? ≠ some '/') : dropTail (c :: rest) = c :: rest := by
  unfold dropTail
  split
  · rename_i heq
    exact absurd (List.cons.inj heq).1 hc
  · rename_i heq
    obtain ⟨hdot, rfl⟩ := List.cons.inj heq
    exact absurd rfl (hrest hdot)
  · rfl

/-- Nothing follows the name that a path ends in. -/
theorem EndsIn.dropTail (h : EndsIn path directory name) (hdot : name ≠ ".") :
    Path.dropTail path.toList.reverse = path.toList.reverse := by
  have htext : path.toList.reverse = name.toList.reverse ++ directory.reverse := by
    rw [h.text, List.reverse_append]
  have hslash : ∀ c ∈ name.toList.reverse, c ≠ '/' := by
    rintro c hc rfl
    exact h.no_slash (List.mem_reverse.1 hc)
  rw [htext]
  match hname : name.toList.reverse with
  | [] => exact absurd (String.toList_eq_nil_iff.1 (List.reverse_eq_nil_iff.1 hname)) h.name_ne
  | [c] =>
      refine dropTail_cons (hslash c (hname ▸ List.mem_cons_self)) ?_
      rintro rfl
      refine absurd (String.toList_inj.1 ?_) hdot
      rw [← List.reverse_reverse name.toList, hname]
      rfl
  | c :: c' :: rest =>
      refine dropTail_cons (hslash c (hname ▸ List.mem_cons_self)) fun _ heq => ?_
      exact hslash c' (hname ▸ List.mem_cons_of_mem c List.mem_cons_self) (Option.some.inj heq)

/-- An extension is put after the stem of the name that a path ends in. -/
theorem EndsIn.putExtension (h : EndsIn path directory name) (hdot : name ≠ ".")
    (hdots : name ≠ "..") :
    Path.putExtension path extension =
      String.ofList directory ++ (divide name).1 ++ "." ++ extension := by
  have hlength : path.toList.length - name.length = directory.length := by
    rw [h.text, List.length_append, String.length_toList]
    omega
  unfold Path.putExtension
  rw [h.name? hdot, if_neg hdots]
  dsimp only
  rw [h.dropTail hdot, List.reverse_reverse, hlength, h.text, List.take_left]

theorem EndsIn.append_extension (h : EndsIn path directory name) {stem : String}
    (hslash : '/' ∉ stem.toList) (hextension : '/' ∉ extension.toList) :
    EndsIn (String.ofList directory ++ stem ++ "." ++ extension) directory
      (stem ++ "." ++ extension) where
  text := by
    simp only [String.toList_append, String.toList_ofList, List.append_assoc]
  directory := h.directory
  name_ne := by
    intro hempty
    have hdot : '.' ∈ (stem ++ "." ++ extension).toList := by simp
    rw [hempty] at hdot
    cases hdot
  no_slash := by
    simp only [String.toList_append, List.mem_append, not_or]
    exact ⟨⟨hslash, by decide⟩, hextension⟩

/-- Another extension in place of its own gives a path of the same directory. -/
theorem EndsIn.withExtension (h : EndsIn path directory name) (hdot : name ≠ ".")
    (hdots : name ≠ "..") (hextension : '/' ∉ extension.toList) :
    EndsIn (Path.withExtension path extension) directory ".." ∨
      ∃ stem, stem ≠ "" ∧
        EndsIn (Path.withExtension path extension) directory (stem ++ "." ++ extension) := by
  unfold Path.withExtension
  rw [h.name? hdot, if_neg hdots, Option.bind_some]
  cases hdivide : divide name with
  | mk stem old =>
      cases old with
      | none =>
          obtain rfl := eq_of_divide_eq_none hdivide
          refine .inr ⟨stem, h.name_ne, ?_⟩
          dsimp only
          rw [h.putExtension hdot hdots, hdivide]
          exact h.append_extension h.no_slash hextension
      | some old =>
          obtain ⟨rfl, hstem, hold⟩ := divide_eq_some_iff.1 hdivide
          have hslash : '/' ∉ stem.toList := by
            have := h.no_slash
            simp only [String.toList_append, List.mem_append, not_or] at this
            exact this.1.1
          -- what is left of the path once the old extension is cut off still ends in a dot
          have hcut : EndsIn (String.ofList (path.toList.take (path.length - old.length))) directory
              (stem ++ "." ++ "") := by
            have htake : path.toList.take (path.length - old.length) =
                (String.ofList directory ++ stem ++ "." ++ "").toList := by
              have hwhole : path.toList =
                  (String.ofList directory ++ stem ++ "." ++ "").toList ++ old.toList := by
                rw [h.text]
                simp only [String.toList_append, String.toList_ofList, List.append_assoc,
                  String.toList_empty, List.nil_append]
              rw [← String.length_toList, ← String.length_toList, hwhole, List.length_append,
                Nat.add_sub_cancel, List.take_left]
            rw [htake, String.ofList_toList]
            exact h.append_extension hslash List.not_mem_nil
          by_cases hup : stem ++ "." ++ "" = ".."
          · left
            dsimp only
            rw [hup] at hcut
            unfold Path.putExtension
            rw [hcut.name? (by decide), if_pos rfl]
            exact hcut
          · right
            have hsingle : stem ++ "." ++ "" ≠ "." := by
              intro heq
              have hlength := congrArg String.length heq
              rw [String.length_append, String.length_append] at hlength
              exact hstem (String.length_eq_zero_iff.1 (Nat.add_right_cancel hlength))
            refine ⟨stem, hstem, ?_⟩
            dsimp only
            rw [hcut.putExtension hsingle hup,
              divide_eq_some_iff.2 ⟨rfl, hstem, List.not_mem_nil⟩]
            exact h.append_extension hslash hextension

/-- The extension of the last name of a path. -/
def extension? (path : String) : Option String := (name? path).bind fun name => (divide name).2

/-- Another extension in place of another one is another name. -/
theorem EndsIn.name_ne_withExtension (h : EndsIn path directory name) (hdot : name ≠ ".")
    (hdots : name ≠ "..") (hslash : '/' ∉ extension.toList) (hown : '.' ∉ extension.toList)
    (hother : extension? path ≠ some extension) {last : String}
    (hsteps : Path.steps (Path.withExtension path extension) = before ++ [last]) (hlast : last ≠ "..") :
    last ≠ name := by
  rcases h.withExtension hdot hdots hslash with hup | ⟨stem, hstem, hends⟩
  · exact absurd (hup.name_eq hsteps) hlast
  · rintro rfl
    apply hother
    unfold extension?
    rw [h.name? hdot, if_neg hdots, Option.bind_some, hends.name_eq hsteps,
      divide_eq_some_iff.2 ⟨rfl, hstem, hown⟩]

end Path

end Gatehouse
