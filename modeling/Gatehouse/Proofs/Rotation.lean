import Gatehouse.Key
import Gatehouse.Proofs.Files

/-!
# Runs of rotations

The current key is held three times: by the rotator, by the transport and in the secrets file. They
are brought up to date one after the other, and any delivery may fail. Since a key becomes the
current one only once it was delivered, and a delivery that fails leaves the secrets file as it was,
the three agree after every run of rotations, whatever the transport refuses and others do to the
files.
-/

namespace Gatehouse

namespace KeyOutlet

variable {o o' : KeyOutlet} {files files' : Files} {k : KeyState}

/-- A key that could not be delivered is not recorded, and changes no file but the one that is
written before the secrets file is replaced. -/
theorem push_eq_error {e : KeyFailure} (h : o.push files k = (.error e, o', files')) :
    o' = o ∧ ((∀ path, o.route ≠ .file path) → files' = files) ∧
      ∀ path, o.route = .file path → files'.read? path = files.read? path := by
  unfold push at h
  split at h
  · cases h
  · split at h
    · cases h
      exact ⟨rfl, fun _ => rfl, fun _ _ => rfl⟩
    · cases h
  · rename_i path hroute
    split at h
    · cases h
    · rename_i files'' hreplace
      cases h
      refine ⟨rfl, fun hother => absurd hroute (hother path), ?_⟩
      intro path' hroute'
      cases hroute.symm.trans hroute'
      exact read?_replace hreplace

/-- A recording transport has the key that was delivered last, and the secrets file was replaced by
the line of that key. -/
theorem push_eq_ok (h : o.push files k = (.ok (), o', files')) :
    o'.route = o.route ∧ (o.route = .record → o'.recorded = o.recorded ++ [k]) ∧
      ∀ path, o.route = .file path → replace files path (Utf8.encode k.line) = (true, files') := by
  unfold push at h
  split at h
  · rename_i hroute
    cases h
    rw [hroute]
    exact ⟨rfl, nofun, nofun⟩
  · rename_i hroute
    split at h
    · cases h
    · cases h
      refine ⟨rfl, fun _ => rfl, ?_⟩
      rw [hroute]
      nofun
  · rename_i path hroute
    split at h
    · rename_i files'' hreplace
      cases h
      refine ⟨rfl, ?_, ?_⟩
      · rw [hroute]
        nofun
      · intro path' hroute'
        cases hroute.symm.trans hroute'
        exact hreplace
    · cases h

end KeyOutlet

namespace Rotator

section Rotate

variable {r r' : Rotator} {o o' : KeyOutlet} {files files' : Files} {key : String}

theorem rotate_eq_error {e : KeyFailure} (h : r.rotate o files key = (.error e, r', o', files')) :
    r' = r ∧ o.push files (r.next key) = (.error e, o', files') := by
  unfold rotate at h
  split at h
  · rename_i hpush
    cases h
    exact ⟨rfl, hpush⟩
  · cases h

theorem rotate_eq_ok {k : KeyState} (h : r.rotate o files key = (.ok k, r', o', files')) :
    k = r.next key ∧ r' = ⟨r.next key⟩ ∧ o.push files (r.next key) = (.ok (), o', files') := by
  unfold rotate at h
  split at h
  · cases h
  · rename_i hpush
    cases h
    exact ⟨rfl, rfl, hpush⟩

theorem toNat_next (hroom : r.current.sequence.toNat + 1 < UInt64.size) :
    (r.next key).sequence.toNat = r.current.sequence.toNat + 1 := by
  unfold next
  rw [UInt64.toNat_add]
  exact Nat.mod_eq_of_lt hroom

end Rotate

/-- What may happen around a rotator: a key is drawn and rotated in, a recording transport starts or
stops to refuse keys, and others change the files. -/
inductive Turn
  | rotate (key : String)
  | refuse (reason : Option String)
  | change (files : Files)
  deriving DecidableEq

/-- Whether a turn is a rotation. -/
def Turn.rotates : Turn → Bool
  | .rotate _ => true
  | _ => false

/-- A rotator with its way to the transport and the files, the keys that were accepted on that way,
and what the rotations answered. -/
structure Story where
  rotator : Rotator
  outlet : KeyOutlet
  files : Files
  accepted : List KeyState := []
  answers : List (Except KeyFailure KeyState) := []

namespace Story

/-- The keys that the rotations returned. -/
def returned (s : Story) : List KeyState := s.answers.filterMap Except.toOption

/-- What a rotation answers. -/
def answer (s : Story) (key : String) : Except KeyFailure KeyState :=
  (s.rotator.rotate s.outlet s.files key).1

/-- What is accepted on the way to the transport if a key is drawn. -/
def accepting (s : Story) (key : String) : List KeyState :=
  match (s.outlet.push s.files (s.rotator.next key)).1 with
  | .ok () => [s.rotator.next key]
  | .error _ => []

/-- The story after a turn. -/
def next (s : Story) : Turn → Story
  | .rotate key =>
      match s.rotator.rotate s.outlet s.files key with
      | (answer, rotator, outlet, files) =>
          { rotator, outlet, files, accepted := s.accepted ++ s.accepting key
            answers := s.answers ++ [answer] }
  | .refuse reason => { s with outlet := { s.outlet with refusal := reason } }
  | .change files => { s with files := files }

/-- The story of the rotator of a server that starts with a key. -/
def start (server key : String) (outlet : KeyOutlet) (files : Files) : Story :=
  { rotator := Rotator.start server key, outlet, files }

/-- The story after some turns. -/
def run (s : Story) (turns : List Turn) : Story := turns.foldl next s

/-- The rotator and the transport agree on the keys that were returned. The transport may have
recorded others earlier. -/
structure InStep (s : Story) (server key : String) (earlier : List KeyState) : Prop where
  accepted : s.accepted = s.returned
  recorded : s.outlet.route = .record → s.outlet.recorded = earlier ++ s.returned
  /-- The sequence of the current key counts the keys that were returned. -/
  count : s.rotator.current.sequence.toNat = s.returned.length
  numbered : s.returned.map (fun k => k.sequence.toNat) = List.range' 1 s.returned.length
  home : ∀ k ∈ s.returned, k.server = server
  /-- The current key is the last one that was returned, or the one at start. -/
  current : s.rotator.current = s.returned.getLast?.getD ⟨0, server, key⟩

/-- Once a key was returned, the secrets file is the line of the current one whenever it is a plain
file. -/
def Written (s : Story) (path : String) : Prop :=
  s.returned ≠ [] → ∀ content, s.files.read? path = some content →
    content = Utf8.encode s.rotator.current.line

/-- A change of the files spares a path if the path leads to no plain file then, as when a directory
has taken its place or is gone again, or to one with the content that it had before. -/
def Spares (s : Story) (path : String) : Turn → Prop
  | .change files => files.read? path = none ∨ files.read? path = s.files.read? path
  | _ => True

instance (s : Story) (path : String) : (t : Turn) → Decidable (s.Spares path t)
  | .change _ => inferInstanceAs (Decidable (_ ∨ _))
  | .rotate _ => isTrue trivial
  | .refuse _ => isTrue trivial

/-- All changes of the files in a run spare a path. -/
def Spared (s : Story) (path : String) : List Turn → Prop
  | [] => True
  | t :: rest => s.Spares path t ∧ Spared (s.next t) path rest

instance (path : String) : (turns : List Turn) → (s : Story) → Decidable (s.Spared path turns)
  | [], _ => isTrue trivial
  | t :: rest, s =>
      have := instDecidableSpared path rest (s.next t)
      inferInstanceAs (Decidable (_ ∧ _))

variable {s s' : Story} {server key drawn path : String} {earlier : List KeyState}

/-- A rotation fails and leaves all but the files as it was, or returns the key that follows. -/
theorem next_rotate (s : Story) (drawn : String) :
    (∃ e files', s.outlet.push s.files (s.rotator.next drawn) = (.error e, s.outlet, files') ∧
      s.answer drawn = .error e ∧ s.next (.rotate drawn) =
        { s with files := files', answers := s.answers ++ [.error e] }) ∨
      ∃ outlet' files', s.outlet.push s.files (s.rotator.next drawn) = (.ok (), outlet', files') ∧
        s.answer drawn = .ok (s.rotator.next drawn) ∧ s.next (.rotate drawn) =
          ⟨⟨s.rotator.next drawn⟩, outlet', files', s.accepted ++ [s.rotator.next drawn],
            s.answers ++ [.ok (s.rotator.next drawn)]⟩ := by
  unfold next answer accepting
  dsimp only
  match hrotate : s.rotator.rotate s.outlet s.files drawn with
  | (.error e, rotator', outlet', files') =>
      obtain ⟨rfl, hpush⟩ := rotate_eq_error hrotate
      obtain ⟨rfl, -⟩ := KeyOutlet.push_eq_error hpush
      refine .inl ⟨e, files', hpush, rfl, ?_⟩
      rw [hpush, List.append_nil]
  | (.ok k, rotator', outlet', files') =>
      obtain ⟨rfl, rfl, hpush⟩ := rotate_eq_ok hrotate
      refine .inr ⟨outlet', files', hpush, rfl, ?_⟩
      rw [hpush]

/-- The way to the transport stays the same. -/
theorem route_next (s : Story) (t : Turn) : (s.next t).outlet.route = s.outlet.route := by
  cases t with
  | rotate drawn =>
      rcases s.next_rotate drawn with ⟨e, files', -, -, hnext⟩ | ⟨outlet', files', hpush, -, hnext⟩
      · rw [hnext]
      · rw [hnext]
        exact (KeyOutlet.push_eq_ok hpush).1
  | refuse reason => rfl
  | change files => rfl

theorem route_run (s : Story) (turns : List Turn) :
    (s.run turns).outlet.route = s.outlet.route := by
  induction turns generalizing s with
  | nil => rfl
  | cons t rest ih => exact (ih (s.next t)).trans (s.route_next t)

/-- The current key is of the server that the rotator started for. -/
theorem InStep.home_current (h : s.InStep server key earlier) :
    s.rotator.current.server = server := by
  rw [h.current]
  cases hlast : s.returned.getLast? with
  | none => rfl
  | some k => exact h.home k (List.mem_of_getLast? hlast)

/-- Where no key is returned and none is accepted, rotator and transport stay in step. -/
theorem InStep.idle (h : s.InStep server key earlier) (hrotator : s'.rotator = s.rotator)
    (hroute : s'.outlet.route = s.outlet.route) (hrecorded : s'.outlet.recorded = s.outlet.recorded)
    (haccepted : s'.accepted = s.accepted) (hreturned : s'.returned = s.returned) :
    s'.InStep server key earlier where
  accepted := by rw [haccepted, hreturned, h.accepted]
  recorded := by
    rw [hroute, hrecorded, hreturned]
    exact h.recorded
  count := by rw [hrotator, hreturned, h.count]
  numbered := by rw [hreturned, h.numbered]
  home := by
    rw [hreturned]
    exact h.home
  current := by rw [hrotator, hreturned, h.current]

/-- Where a key was delivered and became the current one, rotator and transport stay in step. -/
theorem InStep.deliver (h : s.InStep server key earlier) {files' : Files} {outlet' : KeyOutlet}
    (hroom : s.returned.length + 1 < UInt64.size)
    (hpush : s.outlet.push s.files (s.rotator.next drawn) = (.ok (), outlet', files'))
    (hrotator : s'.rotator = ⟨s.rotator.next drawn⟩) (houtlet : s'.outlet = outlet')
    (haccepted : s'.accepted = s.accepted ++ [s.rotator.next drawn])
    (hreturned : s'.returned = s.returned ++ [s.rotator.next drawn]) :
    s'.InStep server key earlier := by
  obtain ⟨hroute, hrecorded, -⟩ := KeyOutlet.push_eq_ok hpush
  have hlength : s'.returned.length = s.returned.length + 1 := by
    rw [hreturned, List.length_append]
    rfl
  have hsequence : (s.rotator.next drawn).sequence.toNat = s.returned.length + 1 := by
    rw [toNat_next (h.count.symm ▸ hroom), h.count]
  constructor
  · rw [haccepted, hreturned, h.accepted]
  · intro hrecord
    rw [houtlet, hroute] at hrecord
    rw [houtlet, hrecorded hrecord, h.recorded hrecord, hreturned, List.append_assoc]
  · rw [hrotator, hlength, hsequence]
  · rw [hlength, hreturned, List.map_append, h.numbered, List.range'_concat, List.map_singleton,
      hsequence, Nat.one_mul, Nat.add_comm]
  · intro k hk
    rw [hreturned] at hk
    rcases List.mem_append.1 hk with hold | hnew
    · exact h.home k hold
    · rw [List.mem_singleton.1 hnew]
      exact h.home_current
  · rw [hrotator, hreturned, List.getLast?_concat]
    rfl

/-- A turn returns a key at most, and keeps rotator and transport in step unless the sequence runs
over. -/
theorem InStep.next (h : s.InStep server key earlier) (t : Turn)
    (hroom : s.returned.length + [t].countP Turn.rotates < UInt64.size) :
    (s.next t).InStep server key earlier ∧
      (s.next t).returned.length ≤ s.returned.length + [t].countP Turn.rotates := by
  cases t with
  | rotate drawn =>
      rcases s.next_rotate drawn with ⟨e, files', -, -, hnext⟩ | ⟨outlet', files', hpush, -, hnext⟩
      · have hreturned : (s.next (.rotate drawn)).returned = s.returned := by
          rw [hnext, returned, List.filterMap_append]
          exact List.append_nil _
        refine ⟨h.idle ?_ ?_ ?_ ?_ hreturned, ?_⟩
        · rw [hnext]
        · rw [hnext]
        · rw [hnext]
        · rw [hnext]
        · rw [hreturned]
          exact Nat.le_add_right _ _
      · have hreturned : (s.next (.rotate drawn)).returned =
            s.returned ++ [s.rotator.next drawn] := by
          rw [hnext, returned, List.filterMap_append]
          rfl
        refine ⟨h.deliver hroom hpush ?_ ?_ ?_ hreturned, ?_⟩
        · rw [hnext]
        · rw [hnext]
        · rw [hnext]
        · rw [hreturned, List.length_append]
          exact Nat.le_refl _
  | refuse reason => exact ⟨h.idle rfl rfl rfl rfl rfl, Nat.le_refl _⟩
  | change files => exact ⟨h.idle rfl rfl rfl rfl rfl, Nat.le_refl _⟩

theorem InStep.run (h : s.InStep server key earlier) (turns : List Turn)
    (hroom : s.returned.length + turns.countP Turn.rotates < UInt64.size) :
    (s.run turns).InStep server key earlier := by
  induction turns generalizing s with
  | nil => exact h
  | cons t rest ih =>
      have hcount : (t :: rest).countP Turn.rotates =
          [t].countP Turn.rotates + rest.countP Turn.rotates := by
        rw [← List.singleton_append, List.countP_append]
      obtain ⟨hnext, hlength⟩ := h.next t (by omega)
      exact ih hnext (by omega)

/-- A key that is returned stands in the secrets file, and the file that was written first is gone.
-/
theorem replaced_of_answer {k : KeyState} (hroute : s.outlet.route = .file path)
    (hother : Path.extension? path ≠ some "tmp") (hanswer : s.answer drawn = .ok k) :
    (s.next (.rotate drawn)).files.read? path = some (Utf8.encode k.line) ∧
      (s.next (.rotate drawn)).files.present (KeyOutlet.temporary path) = false := by
  rcases s.next_rotate drawn with ⟨e, files', -, hfailed, -⟩ | ⟨outlet', files', hpush, hok, hnext⟩
  · rw [hanswer] at hfailed
    cases hfailed
  · rw [hanswer] at hok
    cases hok
    rw [hnext]
    exact KeyOutlet.replaced ((KeyOutlet.push_eq_ok hpush).2.2 path hroute) hother

/-- A turn keeps the secrets file at the line of the current key. -/
theorem Written.next (h : s.Written path) (t : Turn) (hroute : s.outlet.route = .file path)
    (hother : Path.extension? path ≠ some "tmp") (hspares : s.Spares path t) :
    (s.next t).Written path := by
  intro hreturned content hread
  cases t with
  | rotate drawn =>
      rcases s.next_rotate drawn with
        ⟨e, files', hpush, -, hnext⟩ | ⟨outlet', files', -, hok, hnext⟩
      · rw [hnext] at hread hreturned ⊢
        have hkept := (KeyOutlet.push_eq_error hpush).2.2 path hroute
        refine h ?_ content (hkept ▸ hread)
        rw [returned, List.filterMap_append] at hreturned
        exact fun hnone => hreturned (List.append_eq_nil_iff.2 ⟨hnone, rfl⟩)
      · obtain ⟨hfile, -⟩ := replaced_of_answer hroute hother hok
        rw [hfile] at hread
        rw [hnext]
        exact (Option.some.inj hread).symm
  | refuse reason => exact h hreturned content hread
  | change files =>
      rcases hspares with hnone | hsame
      · cases hnone.symm.trans hread
      · exact h hreturned content (hsame ▸ hread)

theorem Written.run (h : s.Written path) (turns : List Turn) (hroute : s.outlet.route = .file path)
    (hother : Path.extension? path ≠ some "tmp") (hspared : s.Spared path turns) :
    (s.run turns).Written path := by
  induction turns generalizing s with
  | nil => exact h
  | cons t rest ih =>
      exact ih (h.next t hroute hother hspared.1) ((s.route_next t).trans hroute) hspared.2

end Story

/-- However often a rotator is turned, and whatever the transport refuses and others do to the files
meanwhile, rotator and transport agree, a rotation that fails leaves the current key, and the
secrets file is the line of the current key after every rotation that succeeds and, as long as others
spare it, at any later time when it is a plain file. Removing it and making a directory in its place
spare it. -/
theorem rotations_in_step (server key : String) (outlet : KeyOutlet) (files : Files)
    (turns : List Turn) (hfew : turns.countP Turn.rotates < UInt64.size) :
    let start := Story.start server key outlet files
    let s := start.run turns
    s.InStep server key outlet.recorded ∧
      (∀ drawn e, s.answer drawn = .error e → (s.next (.rotate drawn)).rotator = s.rotator) ∧
      ∀ path, outlet.route = .file path → Path.extension? path ≠ some "tmp" →
        (start.Spared path turns → s.Written path) ∧
          s.Spares path (.change (s.files.remove path)) ∧
          (∀ made, s.files.makeDirectory path = .ok made → s.Spares path (.change made)) ∧
          ∀ drawn k, s.answer drawn = .ok k →
            (s.next (.rotate drawn)).files.read? path = some (Utf8.encode k.line) ∧
              (s.next (.rotate drawn)).files.present (KeyOutlet.temporary path) = false := by
  intro start s
  have hstart : start.InStep server key outlet.recorded :=
    ⟨rfl, fun _ => (List.append_nil _).symm, rfl, rfl, nofun, rfl⟩
  refine ⟨hstart.run turns ((Nat.zero_add _).symm ▸ hfew), ?_, ?_⟩
  · intro drawn e hanswer
    rcases s.next_rotate drawn with ⟨e', files', -, -, hnext⟩ | ⟨outlet', files', -, hok, -⟩
    · rw [hnext]
    · cases hanswer.symm.trans hok
  · intro path hroute hother
    refine ⟨?_, Files.read?_remove s.files path, ?_, ?_⟩
    · intro hspared
      have hunused : start.Written path := fun hreturned => absurd rfl hreturned
      exact hunused.run turns hroute hother hspared
    · intro made hmade
      exact .inl (Files.read?_makeDirectory hmade)
    · intro drawn k hanswer
      exact Story.replaced_of_answer ((start.route_run turns).trans hroute) hother hanswer

/-- A rotation fails while a directory stands in place of the secrets file, and leaves the other file
behind. The one after it succeeds, and the other file is gone. -/
theorem rotations_go_on_after_a_directory :
    let outlet : KeyOutlet := { route := .file "ipsec.secrets" }
    let start := Story.start "192.0.2.1" "b007" outlet {}
    let obstructed := Dict.empty.insert "ipsec.secrets" .directory
    let left := Dict.empty.insert "ipsec.tmp"
      (.file (Utf8.encode (KeyState.line ⟨2, "192.0.2.1", "7e57"⟩)))
    let turns := [.rotate "feed", .change ⟨obstructed⟩, .rotate "7e57", .change ⟨left⟩]
    let s := start.run turns
    turns.countP Turn.rotates < UInt64.size ∧ outlet.route = .file "ipsec.secrets" ∧
      Path.extension? "ipsec.secrets" ≠ some "tmp" ∧ start.Spared "ipsec.secrets" turns ∧
        s.answers = [.ok ⟨1, "192.0.2.1", "feed"⟩, .error (.write "ipsec.secrets")] ∧
          s.InStep "192.0.2.1" "b007" [] ∧ s.Written "ipsec.secrets" ∧
            s.answer "cafe" = .ok ⟨2, "192.0.2.1", "cafe"⟩ ∧
              (s.next (.rotate "cafe")).files.present "ipsec.tmp" = false := by
  intro outlet start obstructed left turns s
  have hfew : turns.countP Turn.rotates < UInt64.size := by decide +kernel
  have hother : Path.extension? "ipsec.secrets" ≠ some "tmp" := by decide +kernel
  have hspared : start.Spared "ipsec.secrets" turns := by decide +kernel
  have hanswers : s.answers = [.ok ⟨1, "192.0.2.1", "feed"⟩, .error (.write "ipsec.secrets")] := by
    rfl
  have hanswer : s.answer "cafe" = .ok ⟨2, "192.0.2.1", "cafe"⟩ := by rfl
  obtain ⟨hstep, -, hfile⟩ := rotations_in_step "192.0.2.1" "b007" outlet {} turns hfew
  obtain ⟨hwritten, -, -, hreplaced⟩ := hfile "ipsec.secrets" rfl hother
  exact ⟨hfew, rfl, hother, hspared, hanswers, hstep, hwritten hspared, hanswer,
    (hreplaced "cafe" _ hanswer).2⟩

end Rotator

end Gatehouse
