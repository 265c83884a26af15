import Gatehouse.Dict.Lemmas
import Gatehouse.Key
import Gatehouse.Proofs.Path

/-!
# Replacing a file

Where a path leads hangs on the directories alone, and writing a plain file where no directory is
leaves them as they were. A file that is replaced as a whole therefore keeps its content if the
replacement fails. If it succeeds the file has the new content, and the one that was written first
is gone, since it had another name.
-/

namespace Gatehouse

namespace Files

variable {f : Files} {place path : String} {content : Bytes}

/-- The files after a plain file was put at a place. -/
def putFile (f : Files) (place : String) (content : Bytes) : Files where
  nodes := f.nodes.insert place (.file content)

theorem get?_putFile (key : String) :
    (f.putFile place content).nodes.get? key =
      if key = place then some (.file content) else f.nodes.get? key :=
  Dict.get?_insert f.nodes place key _

/-- A plain file in place of no directory leaves the directories as they were. -/
theorem directory_putFile (hplace : f.nodes.get? place ≠ some .directory) (key : String) :
    (f.putFile place content).nodes.get? key = some .directory ↔
      f.nodes.get? key = some .directory := by
  rw [get?_putFile]
  by_cases hkey : key = place
  · subst hkey
    rw [if_pos rfl]
    exact iff_of_false (by simp) hplace
  · rw [if_neg hkey]

/-- The files after a plain file went from one place to another. -/
def moveFile (f : Files) (place target : String) (content : Bytes) : Files where
  nodes := (f.nodes.erase place).insert target (.file content)

theorem get?_moveFile (target key : String) :
    (f.moveFile place target content).nodes.get? key =
      if key = target then some (.file content)
      else if key = place then none else f.nodes.get? key := by
  unfold moveFile
  rw [Dict.get?_insert, Dict.get?_erase]

/-- A plain file that goes from and to places of no directory leaves the directories as they were. -/
theorem directory_moveFile {target : String} (hplace : f.nodes.get? place ≠ some .directory)
    (htarget : f.nodes.get? target ≠ some .directory) (key : String) :
    (f.moveFile place target content).nodes.get? key = some .directory ↔
      f.nodes.get? key = some .directory := by
  rw [get?_moveFile]
  split
  · rename_i hkey
    exact iff_of_false (by simp) (hkey ▸ htarget)
  · split
    · rename_i hkey
      exact iff_of_false (by simp) (hkey ▸ hplace)
    · exact Iff.rfl

theorem enter_eq_ok {absolute : Bool} {here there : List String} {part : String} :
    f.enter absolute here part = .ok there ↔
      (part = "." ∧ here = there) ∨ (part ≠ "." ∧ part = ".." ∧ here.drop 1 = there) ∨
        (part ≠ "." ∧ part ≠ ".." ∧ ¬ nameLimit < Utf8.size part ∧
          f.nodes.get? (Path.ofParts absolute (part :: here)) = some .directory ∧
            part :: here = there) := by
  unfold enter
  by_cases hdot : part = "."
  · simp [hdot]
  · by_cases hdots : part = ".."
    · simp [hdots]
    · by_cases hsize : nameLimit < Utf8.size part
      · simp [hdot, hdots, hsize]
      · simp only [hdot, hdots, hsize, ↓reduceIte, false_and, not_false_eq_true, true_and, false_or]
        split
        · rename_i hnode
          simp [hnode]
        · rename_i hnode
          simp [hnode, hdot, hdots]
        · rename_i node hother hnode
          rw [hnode]
          refine iff_of_false (by simp) ?_
          rintro (⟨-, hup, -⟩ | ⟨-, -, hdirectory, -⟩)
          exact hother (Option.some.inj hdirectory)

section Directories

variable {f' : Files}
  (hdirectory : ∀ key, f.nodes.get? key = some .directory → f'.nodes.get? key = some .directory)
include hdirectory

theorem enter_mono {absolute : Bool} {here there : List String} {part : String}
    (h : f.enter absolute here part = .ok there) : f'.enter absolute here part = .ok there := by
  rw [enter_eq_ok] at h ⊢
  exact h.imp_right fun h => h.imp_right fun ⟨hdot, hdots, hsize, hnode, hthere⟩ =>
    ⟨hdot, hdots, hsize, hdirectory _ hnode, hthere⟩

theorem walk_mono {absolute : Bool} {here there parts : List String}
    (h : f.walk absolute here parts = .ok there) : f'.walk absolute here parts = .ok there := by
  induction parts generalizing here with
  | nil => exact h
  | cons part rest ih =>
      unfold walk at h ⊢
      split at h
      · cases h
      · rename_i next hnext
        rw [enter_mono hdirectory hnext]
        exact ih h

/-- A path that leads somewhere leads there also where there are more directories. -/
theorem goal_mono {goal : Goal} (h : f.goal path = .ok goal) : f'.goal path = .ok goal := by
  unfold Files.goal at h ⊢
  split at h
  · cases h
  · rename_i hnul
    rw [if_neg hnul]
    split at h
    · cases h
    · rename_i hsize
      rw [if_neg hsize]
      split at h
      · cases h
      · rename_i hempty
        rw [if_neg hempty]
        dsimp only at h ⊢
        split at h
        · exact h
        · split at h
          · cases h
          · rename_i here hhere
            rw [walk_mono hdirectory hhere]
            exact h

end Directories

theorem goal_congr {f' : Files} (hdirectory : ∀ key, f.nodes.get? key = some .directory ↔
    f'.nodes.get? key = some .directory) {goal : Goal} :
    f.goal path = .ok goal ↔ f'.goal path = .ok goal :=
  ⟨goal_mono fun key => (hdirectory key).1, goal_mono fun key => (hdirectory key).2⟩

/-- The place that a path ends at has the last name of the path. -/
theorem goal_entry {slashed : Bool} (h : f.goal path = .ok (.entry place slashed)) :
    slashed = Path.endsInSlash path ∧ ∃ before here last,
      Path.steps path = before ++ [last] ∧ last ≠ "." ∧ last ≠ ".." ∧
        place = Path.ofParts (Path.isAbsolute path) (last :: here) := by
  unfold Files.goal at h
  split at h
  · cases h
  · split at h
    · cases h
    · split at h
      · cases h
      · dsimp only at h
        split at h
        · cases h
        · rename_i last before hsteps
          split at h
          · cases h
          · rename_i here hhere
            split at h
            · cases h
            · rename_i hdots
              split at h
              · cases h
              · cases h
                rw [Bool.or_eq_true, decide_eq_true_iff, decide_eq_true_iff, not_or] at hdots
                refine ⟨rfl, before.reverse, here, last, ?_, hdots.1, hdots.2, rfl⟩
                rw [← List.reverse_reverse (Path.steps path), hsteps, List.reverse_cons]

/-- A path whose last step is a name ends at that name, in the directory to which the steps before it
lead. -/
theorem goal_of_steps {before : List String} {name : String} {goal : Goal}
    (hsteps : Path.steps path = before ++ [name]) (hself : name ≠ ".") (hup : name ≠ "..")
    (h : f.goal path = .ok goal) :
    ∃ here, f.walk (Path.isAbsolute path) [] before = .ok here ∧
      goal = .entry (Path.ofParts (Path.isAbsolute path) (name :: here)) (Path.endsInSlash path) := by
  have hreverse : (Path.steps path).reverse = name :: before.reverse := by
    rw [hsteps, List.reverse_append, List.reverse_singleton, List.singleton_append]
  unfold Files.goal at h
  split at h
  · cases h
  · split at h
    · cases h
    · split at h
      · cases h
      · simp only [hreverse, List.reverse_reverse, hself, hup, decide_false, Bool.or_self,
          Bool.false_eq_true, ↓reduceIte] at h
        split at h
        · cases h
        · rename_i here hhere
          split at h
          · cases h
          · cases h
            exact ⟨here, hhere, rfl⟩

theorem fileGoal?_eq_some {place' : String} :
    f.fileGoal? path = some place' ↔
      f.goal path = .ok (.entry place' false) ∧ f.nodes.get? place' ≠ some .directory := by
  unfold fileGoal?
  split
  · rename_i place'' hgoal
    rw [hgoal]
    by_cases hnode : f.nodes.get? place'' = some .directory
    · simp [hnode]
      rintro rfl
      exact hnode
    · simp [hnode]
      rintro rfl
      exact hnode
  · rename_i hgoal
    constructor
    · intro h
      cases h
    · rintro ⟨h, -⟩
      exact absurd h (hgoal place')

/-- Where plain files may be written hangs on the directories alone. -/
theorem fileGoal?_congr {f' : Files} (hdirectory : ∀ key, f.nodes.get? key = some .directory ↔
    f'.nodes.get? key = some .directory) : f'.fileGoal? path = f.fileGoal? path := by
  apply Option.ext
  intro place
  rw [fileGoal?_eq_some, fileGoal?_eq_some, goal_congr hdirectory, Ne, Ne, hdirectory]

/-- Writing a plain file does not change where plain files may be written. -/
theorem fileGoal?_putFile (hplace : f.nodes.get? place ≠ some .directory) :
    (f.putFile place content).fileGoal? path = f.fileGoal? path :=
  fileGoal?_congr fun key => (directory_putFile hplace key).symm

/-- A path with another extension in place of its own leads to another place. -/
theorem fileGoal?_withExtension_ne {extension place' : String} (hslash : '/' ∉ extension.toList)
    (hdot : '.' ∉ extension.toList) (hother : Path.extension? path ≠ some extension)
    (hplace : f.fileGoal? path = some place)
    (hplace' : f.fileGoal? (Path.withExtension path extension) = some place') : place' ≠ place := by
  obtain ⟨hunslashed, before, here, last, hsteps, hself, hup, rfl⟩ :=
    goal_entry (fileGoal?_eq_some.1 hplace).1
  obtain ⟨-, before', here', last', hsteps', -, hup', rfl⟩ :=
    goal_entry (fileGoal?_eq_some.1 hplace').1
  obtain ⟨directory, hends⟩ := Path.endsIn_of_steps hsteps hunslashed.symm
  have hname : last' ≠ last :=
    hends.name_ne_withExtension hself hup hslash hdot hother hsteps' hup'
  -- the last name of a place can be read off it
  obtain ⟨_, hends₁⟩ := Path.endsIn_ofParts (Path.isAbsolute path) here
    (hsteps ▸ List.mem_append_right before (List.mem_singleton_self last))
  obtain ⟨_, hends₂⟩ := Path.endsIn_ofParts (Path.isAbsolute (Path.withExtension path extension))
    here' (hsteps' ▸ List.mem_append_right before' (List.mem_singleton_self last'))
  intro heq
  rw [heq] at hends₂
  obtain ⟨_, hsame⟩ := hends₂.steps
  exact hname (hends₁.name_eq hsame)

/-- A path that leads to a place of no directory reads what is there. -/
theorem node?_of_fileGoal? (h : f.fileGoal? path = some place) : f.node? path = f.nodes.get? place := by
  obtain ⟨hgoal, hplace⟩ := fileGoal?_eq_some.1 h
  unfold node?
  rw [hgoal]
  dsimp only
  split
  · rename_i hnode
    exact absurd hnode hplace
  · rfl

/-- What was written is there. -/
theorem node?_write? {f' : Files} (h : f.write? path content = some f') :
    f'.node? path = some (.file content) := by
  obtain ⟨place, hplace, rfl⟩ := Option.map_eq_some_iff.1 h
  have hgoal : (f.putFile place content).fileGoal? path = some place :=
    (fileGoal?_putFile (fileGoal?_eq_some.1 hplace).2).trans hplace
  have hnode : (f.putFile place content).node? path = some (.file content) := by
    rw [node?_of_fileGoal? hgoal, get?_putFile, if_pos rfl]
  exact hnode

/-- There is no plain file to read where none may be written. -/
theorem read?_eq_none (h : f.fileGoal? path = none) : f.read? path = none := by
  cases hread : f.read? path with
  | none => rfl
  | some bytes =>
      unfold read? node? at hread
      cases hgoal : f.goal path with
      | error e => simp [hgoal] at hread
      | ok goal =>
          cases goal with
          | directory => simp [hgoal] at hread
          | entry place' slashed =>
              cases slashed with
              | true =>
                  simp only [hgoal, ↓reduceIte] at hread
                  split at hread
                  · rename_i hnode
                    split at hnode
                    · cases hnode
                    · cases hnode
                  · cases hread
              | false =>
                  have hnode : f.nodes.get? place' ≠ some .directory := by
                    intro hdirectory
                    simp [hgoal, hdirectory] at hread
                  rw [fileGoal?_eq_some.2 ⟨hgoal, hnode⟩] at h
                  cases h

/-- A path at whose place nothing or a directory stands reads nothing. -/
theorem read?_of_goal {slashed : Bool} (hgoal : f.goal path = .ok (.entry place slashed))
    (hnode : f.nodes.get? place = none ∨ f.nodes.get? place = some .directory) :
    f.read? path = none := by
  unfold read? node?
  rw [hgoal]
  rcases hnode with hnone | hdirectory
  · dsimp only
    rw [hnone]
    cases slashed with
    | true => rfl
    | false => rfl
  · dsimp only
    rw [hdirectory]

theorem get?_remove {slashed : Bool} (hgoal : f.goal path = .ok (.entry place slashed)) (key : String) :
    (f.remove path).nodes.get? key = (f.nodes.get? key).filter fun _ =>
      key != place && !((place ++ "/").toList.isPrefixOf key.toList) := by
  unfold remove
  rw [hgoal]
  exact Dict.get?_filter f.nodes _ key

/-- What is removed is not read afterwards, and what cannot be removed is read as before. -/
theorem read?_remove (f : Files) (path : String) :
    (f.remove path).read? path = none ∨ (f.remove path).read? path = f.read? path := by
  cases hgoal : f.goal path with
  | error e =>
      right
      unfold remove
      rw [hgoal]
  | ok goal =>
      cases goal with
      | directory =>
          right
          unfold remove
          rw [hgoal]
      | entry place slashed =>
          left
          have hfewer : ∀ key, (f.remove path).nodes.get? key = some .directory →
              f.nodes.get? key = some .directory := by
            intro key hkey
            rw [get?_remove hgoal, Option.filter_eq_some_iff] at hkey
            exact hkey.1
          cases hgoal' : (f.remove path).goal path with
          | error e =>
              unfold read? node?
              rw [hgoal']
          | ok goal' =>
              cases (goal_mono hfewer hgoal').symm.trans hgoal
              refine read?_of_goal hgoal' (.inl ?_)
              rw [get?_remove hgoal, bne_self_eq_false, Bool.false_and]
              cases f.nodes.get? place with
              | none => rfl
              | some node => rfl

/-- A directory that was made is not read. -/
theorem read?_makeDirectory {f' : Files} (h : f.makeDirectory path = .ok f') :
    f'.read? path = none := by
  unfold makeDirectory at h
  split at h
  · cases h
  · cases h
  · rename_i place slashed hgoal
    split at h
    · cases h
    · cases h
      have hmore : ∀ key, f.nodes.get? key = some .directory →
          (f.nodes.insert place .directory).get? key = some .directory := by
        intro key hkey
        rw [Dict.get?_insert]
        split
        · rfl
        · exact hkey
      exact read?_of_goal (goal_mono hmore hgoal) (.inr (Dict.get?_insert_self _ _ _))

/-- A plain file that was just written can be moved to wherever one may be written. -/
theorem rename?_putFile {target : String} (hplace : f.fileGoal? path = some place) :
    (f.putFile place content).rename? path target =
      (f.fileGoal? target).map fun there => f.moveFile place there content := by
  have hvacant := (fileGoal?_eq_some.1 hplace).2
  unfold rename?
  rw [fileGoal?_putFile hvacant, fileGoal?_putFile hvacant, hplace]
  cases f.fileGoal? target with
  | none => rfl
  | some there =>
      have herase : (f.putFile place content).nodes.erase place = f.nodes.erase place :=
        Dict.erase_insert f.nodes place _
      dsimp only
      rw [get?_putFile, if_pos rfl]
      dsimp only
      rw [herase]
      rfl

end Files

namespace KeyOutlet

variable {files files' : Files} {path : String} {content : Bytes}

/-- What a replacement does is settled by the places of the two files. -/
theorem replace_eq (files : Files) (path : String) (content : Bytes) :
    replace files path content =
      match files.fileGoal? (temporary path), files.fileGoal? path with
      | none, _ => (false, files)
      | some place, none => (false, files.putFile place content)
      | some place, some target => (true, files.moveFile place target content) := by
  have hwrite : files.write? (temporary path) content =
      (files.fileGoal? (temporary path)).map fun place => files.putFile place content := rfl
  unfold replace
  rw [hwrite]
  cases hplace : files.fileGoal? (temporary path) with
  | none => rfl
  | some place =>
      rw [Option.map_some]
      dsimp only
      rw [Files.rename?_putFile hplace]
      cases files.fileGoal? path with
      | none => rfl
      | some target => rfl

/-- A file keeps its content if its replacement fails. -/
theorem read?_replace (h : replace files path content = (false, files')) :
    files'.read? path = files.read? path := by
  rw [replace_eq] at h
  split at h
  · cases h
    rfl
  · rename_i place hplace htarget
    cases h
    have hvacant := (Files.fileGoal?_eq_some.1 hplace).2
    rw [Files.read?_eq_none htarget, Files.read?_eq_none]
    rw [Files.fileGoal?_putFile hvacant, htarget]
  · cases h

/-- A replacement that succeeds gives the file its content. The file that was written first is gone,
since its name was another one. -/
theorem replaced (h : replace files path content = (true, files'))
    (hother : Path.extension? path ≠ some "tmp") :
    files'.read? path = some content ∧ files'.present (temporary path) = false := by
  rw [replace_eq] at h
  split at h
  · cases h
  · cases h
  · rename_i place target hplace htarget
    cases h
    have hne : place ≠ target :=
      Files.fileGoal?_withExtension_ne (by decide) (by decide) hother htarget hplace
    have hdirectory : ∀ key, files.nodes.get? key = some .directory ↔
        (files.moveFile place target content).nodes.get? key = some .directory := fun key =>
      (Files.directory_moveFile (Files.fileGoal?_eq_some.1 hplace).2
        (Files.fileGoal?_eq_some.1 htarget).2 key).symm
    rw [← Files.fileGoal?_congr hdirectory] at hplace htarget
    refine ⟨?_, ?_⟩
    · unfold Files.read?
      rw [Files.node?_of_fileGoal? htarget, Files.get?_moveFile, if_pos rfl]
    · unfold Files.present
      rw [Files.node?_of_fileGoal? hplace, Files.get?_moveFile, if_neg hne, if_pos rfl]
      rfl

end KeyOutlet

end Gatehouse
