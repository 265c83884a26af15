import Gatehouse.Proofs.Apart.Desk
import Gatehouse.Proofs.Deadline

/-!
# Sessions keep apart

All sessions share one store, and on each front end one timer and one line of announced keys. A
course of many sessions is still, for each of them, the course without the others: its visits get
the same answers, the same records of it are emitted, and the same is stored under its keys.
-/

namespace Gatehouse

namespace Occurrence

/-- Whether an occurrence names a session: a visit or a look at its region, or a wake-up for one of
its keys. -/
def names (s : SessionId) : Occurrence → Bool
  | .visit _ v => v.id == s
  | .expire _ key _ _ => s.owns key
  | .deliver _ key _ _ => s.owns key
  | .noteRegion _ id _ _ => id == s
  | .region _ id _ => id == s
  | .forgetRegion _ id => id == s
  | _ => false

/-- Whether an occurrence names no session: it is one of the clock, of a timer as a whole, or of
everything that is stored. -/
def isCommon : Occurrence → Bool
  | .purgeRegions _ _ => true
  | .recover _ _ => true
  | .restart _ => true
  | .sweep _ => true
  | .pass _ => true
  | _ => false

/-- Whether an occurrence is left if those of other sessions are taken out of a course. -/
def concerns (s : SessionId) (o : Occurrence) : Bool := o.names s || o.isCommon

end Occurrence

namespace Fleet

/-- A fleet admits an occurrence without failures of the store and without visits in the middle of a
wake-up, in which a listener takes the key that was announced first. -/
def Admits (f : Fleet) : Occurrence → Prop
  | .deliver i key _ before =>
      before = [] ∧ (f.members[i]?.bind fun m => m.timer.announced.head?) = some key
  | .expire _ _ _ before => before = []
  | .outage _ _ => False
  | _ => True

instance (f : Fleet) : (o : Occurrence) → Decidable (f.Admits o)
  | .deliver _ _ _ _ => inferInstanceAs (Decidable (_ ∧ _))
  | .expire _ _ _ _ => inferInstanceAs (Decidable (_ = _))
  | .outage _ _ => .isFalse id
  | .visit _ _ => .isTrue trivial
  | .noteRegion _ _ _ _ => .isTrue trivial
  | .region _ _ _ => .isTrue trivial
  | .forgetRegion _ _ => .isTrue trivial
  | .purgeRegions _ _ => .isTrue trivial
  | .recover _ _ => .isTrue trivial
  | .restart _ => .isTrue trivial
  | .sweep _ => .isTrue trivial
  | .pass _ => .isTrue trivial

/-- A key that a listener may take is the first that was announced. -/
theorem announced_of_admits {f : Fleet} {i : Nat} {key : String} {now : UInt64}
    {before : List VisitOf} (h : f.Admits (.deliver i key now before)) :
    before = [] ∧ ∃ m rest, f.members[i]? = some m ∧ m.timer.announced = key :: rest := by
  obtain ⟨hbefore, hhead⟩ := h
  obtain ⟨m, hm, hfirst⟩ := Option.bind_eq_some_iff.1 hhead
  obtain ⟨rest, hannounced⟩ := List.head?_eq_some_iff.1 hfirst
  exact ⟨hbefore, m, rest, hm, hannounced⟩

/-- A course is proper if each occurrence of it is admitted. -/
def Proper (f : Fleet) : List Occurrence → Prop
  | [] => True
  | o :: rest => f.Admits o ∧ (f.meet o).2.Proper rest

instance decidableProper (f : Fleet) : (os : List Occurrence) → Decidable (f.Proper os)
  | [] => .isTrue trivial
  | o :: rest =>
      have := decidableProper (f.meet o).2 rest
      inferInstanceAs (Decidable (_ ∧ _))

/-- The answers in a course to the occurrences that name a session. -/
def answersTo (s : SessionId) (f : Fleet) (os : List Occurrence) : List Answer :=
  ((os.zip (f.course os).1).filter fun e => e.1.names s).map Prod.snd

/-- What a session sees of a fleet is another fleet. -/
structure Shows (s : SessionId) (f g : Fleet) : Prop where
  site : g.site = f.site
  clock : g.clock = f.clock
  timers : ∀ i : Nat, (g.members[i]?).map Member.timer =
    (f.members[i]?).map fun m => m.timer.only s.owns
  up : f.store.down = []
  up' : g.store.down = []
  look : ∀ key, g.store.table.get? key = if s.owns key then f.store.table.get? key else none
  records : s.recordsOf g.events = s.recordsOf f.events

namespace Shows

variable {s : SessionId} {f g : Fleet} {i : Nat} {d d' e e' : Desk}

/-- What a session sees of a front end's desk. -/
theorem desk (h : f.Shows s g) (hd : f.desk? i = some d) :
    ∃ d', g.desk? i = some d' ∧ Desk.Shows s d d' := by
  obtain ⟨m, hm, rfl⟩ := desk?_eq_some hd
  have htimer := h.timers i
  rw [hm, Option.map_some] at htimer
  obtain ⟨m', hm', htimer'⟩ := Option.map_eq_some_iff.1 htimer
  exact ⟨_, desk?_of_member hm', h.up, h.up', h.look, htimer', h.records⟩

theorem no_desk (h : f.Shows s g) (hd : f.desk? i = none) : g.desk? i = none := by
  have htimer := h.timers i
  rw [desk?_eq_none hd, Option.map_none] at htimer
  rw [Fleet.desk?, Option.map_eq_none_iff.1 htimer]
  rfl

theorem putDesk (h : f.Shows s g) (hshows : Desk.Shows s e e') :
    (f.putDesk i e).Shows s (g.putDesk i e') where
  site := h.site
  clock := h.clock
  timers := by
    intro j
    rw [members_putDesk, members_putDesk]
    have htimer := h.timers j
    split
    · rw [Option.map_map, Option.map_map]
      cases hm : f.members[j]? with
      | none =>
          rw [hm, Option.map_none] at htimer
          rw [Option.map_eq_none_iff.1 htimer]
          rfl
      | some m =>
          rw [hm, Option.map_some] at htimer
          obtain ⟨m', hm', -⟩ := Option.map_eq_some_iff.1 htimer
          rw [hm']
          exact congrArg some hshows.timer
    · exact htimer
  up := hshows.up
  up' := hshows.up'
  look := hshows.look
  records := hshows.records

/-- A desk may change unseen. -/
theorem putDesk_unseen (h : f.Shows s g) (hd' : g.desk? i = some d')
    (hshows : Desk.Shows s e d') : (f.putDesk i e).Shows s g := by
  have hput : (f.putDesk i e).Shows s (g.putDesk i d') := h.putDesk hshows
  rw [putDesk_desk? hd'] at hput
  exact hput

/-- A front end that does something for a session does the same to what the session sees. -/
theorem actDesk {α : Type} (h : f.Shows s g) (i : Nat) (idle : α) {work : Desk → α × Desk}
    (hwork : ∀ d d', Desk.Shows s d d' →
      (work d').1 = (work d).1 ∧ Desk.Shows s (work d).2 (work d').2) :
    (g.actDesk i idle work).1 = (f.actDesk i idle work).1 ∧
      (f.actDesk i idle work).2.Shows s (g.actDesk i idle work).2 := by
  cases hd : f.desk? i with
  | none =>
      rw [actDesk_of_none hd, actDesk_of_none (h.no_desk hd)]
      exact ⟨rfl, h⟩
  | some d =>
      obtain ⟨d', hd', hdesk⟩ := h.desk hd
      rw [actDesk_of_desk? hd, actDesk_of_desk? hd']
      obtain ⟨hanswer, hshows⟩ := hwork d d' hdesk
      exact ⟨hanswer, h.putDesk hshows⟩

/-- What a front end does for another session goes unseen. -/
theorem actDesk_unseen {α : Type} (h : f.Shows s g) (i : Nat) (idle : α) {work : Desk → α × Desk}
    (hwork : ∀ d d', f.desk? i = some d → Desk.Shows s d d' → Desk.Shows s (work d).2 d') :
    (f.actDesk i idle work).2.Shows s g := by
  cases hd : f.desk? i with
  | none =>
      rw [actDesk_of_none hd]
      exact h
  | some d =>
      obtain ⟨d', hd', hdesk⟩ := h.desk hd
      rw [actDesk_of_desk? hd]
      exact h.putDesk_unseen hd' (hwork d d' hd hdesk)

/-- What a front end tries for a session is tried alike on what the session sees. -/
theorem tryDesk {α : Type} (h : f.Shows s g) (i : Nat) (idle : α)
    {work : Desk → Except Unavailable (α × Desk)}
    (hwork : ∀ d d', Desk.Shows s d d' → ∃ a e e',
      work d = .ok (a, e) ∧ work d' = .ok (a, e') ∧ Desk.Shows s e e') :
    (g.tryDesk i idle work).1 = (f.tryDesk i idle work).1 ∧
      (f.tryDesk i idle work).2.Shows s (g.tryDesk i idle work).2 := by
  apply h.actDesk
  intro d d' hdesk
  obtain ⟨a, e, e', hdone, hdone', hshows⟩ := hwork d d' hdesk
  rw [hdone, hdone']
  exact ⟨rfl, hshows⟩

theorem tryDesk_unseen {α : Type} (h : f.Shows s g) (i : Nat) (idle : α)
    {work : Desk → Except Unavailable (α × Desk)}
    (hwork : ∀ d d', Desk.Shows s d d' → ∃ a e, work d = .ok (a, e) ∧ Desk.Shows s e d') :
    (f.tryDesk i idle work).2.Shows s g := by
  apply h.actDesk_unseen
  intro d d' hd hdesk
  obtain ⟨a, e, hdone, hshows⟩ := hwork d d' hdesk
  rw [hdone]
  exact hshows

/-- What is tried on all that is stored is tried by a session on what it sees of it. The answers may
count more than the session sees. -/
theorem tryDesk_common {α : Type} (h : f.Shows s g) (i : Nat) (idle : α)
    {work : Desk → Except Unavailable (α × Desk)}
    (hwork : ∀ d d', Desk.Shows s d d' → ∃ a e a' e',
      work d = .ok (a, e) ∧ work d' = .ok (a', e') ∧ Desk.Shows s e e') :
    (f.tryDesk i idle work).2.Shows s (g.tryDesk i idle work).2 := by
  cases hd : f.desk? i with
  | none =>
      rw [tryDesk_of_none hd, tryDesk_of_none (h.no_desk hd)]
      exact h
  | some d =>
      obtain ⟨d', hd', hdesk⟩ := h.desk hd
      obtain ⟨a, e, a', e', hdone, hdone', hshows⟩ := hwork d d' hdesk
      rw [tryDesk_of_desk? hd, tryDesk_of_desk? hd', hdone, hdone']
      exact h.putDesk hshows

/-- A timer that changes shows what it would show if only what is seen had changed. -/
theorem onTimer (h : f.Shows s g) (i : Nat) {change : Timer → Timer}
    (hchange : ∀ m, f.members[i]? = some m →
      (change m.timer).only s.owns = change (m.timer.only s.owns)) :
    (f.onTimer i change).Shows s (g.onTimer i change) := by
  cases hd : f.desk? i with
  | none =>
      rw [onTimer_of_none hd, onTimer_of_none (h.no_desk hd)]
      exact h
  | some d =>
      obtain ⟨d', hd', hdesk⟩ := h.desk hd
      obtain ⟨m, hm, rfl⟩ := desk?_eq_some hd
      rw [onTimer_of_desk? hd, onTimer_of_desk? hd']
      apply h.putDesk
      refine ⟨hdesk.up, hdesk.up', hdesk.look, ?_, hdesk.records⟩
      dsimp only
      rw [hdesk.timer]
      exact (hchange m hm).symm

theorem onTimer_unseen (h : f.Shows s g) (i : Nat) {change : Timer → Timer}
    (hchange : ∀ m, f.members[i]? = some m →
      (change m.timer).only s.owns = m.timer.only s.owns) :
    (f.onTimer i change).Shows s g := by
  cases hd : f.desk? i with
  | none =>
      rw [onTimer_of_none hd]
      exact h
  | some d =>
      obtain ⟨d', hd', hdesk⟩ := h.desk hd
      obtain ⟨m, hm, rfl⟩ := desk?_eq_some hd
      rw [onTimer_of_desk? hd]
      apply h.putDesk_unseen hd'
      refine ⟨hdesk.up, hdesk.up', hdesk.look, ?_, hdesk.records⟩
      rw [hdesk.timer]
      exact (hchange m hm).symm

/-- Which chores wait is not seen. -/
theorem rouse (h : f.Shows s g) (i : Nat) : (f.rouse i).Shows s (g.rouse i) := by
  obtain ⟨chores, hf⟩ := rouse_eq f i
  obtain ⟨chores', hg⟩ := rouse_eq g i
  rw [hf, hg]
  exact ⟨h.site, h.clock, h.timers, h.up, h.up', h.look, h.records⟩

theorem moveTo (h : f.Shows s g) (t : UInt64) : (f.moveTo t).Shows s (g.moveTo t) where
  site := h.site
  clock := rfl
  timers := by
    intro i
    have htimer := congrArg
      (Option.map fun timer : Timer => timer.advance ((t.toNat - f.clock.toNat) * 1000)) (h.timers i)
    rw [Option.map_map, Option.map_map] at htimer
    simp only [Fleet.moveTo, List.getElem?_map, Option.map_map, h.clock]
    exact htimer
  up := h.up
  up' := h.up'
  look := h.look
  records := h.records

theorem sweep (h : f.Shows s g) (i : Nat) :
    (f.step (.sweep i)).2.Shows s (g.step (.sweep i)).2 := by
  have htimer := h.timers i
  cases hm : f.members[i]? with
  | none =>
      rw [hm, Option.map_none] at htimer
      simp only [step, hm, Option.map_eq_none_iff.1 htimer]
      exact h
  | some m =>
      rw [hm, Option.map_some] at htimer
      obtain ⟨m', hm', -⟩ := Option.map_eq_some_iff.1 htimer
      simp only [step, hm, hm']
      exact (h.onTimer i fun m _ => Timer.only_sweep).rouse i

theorem restart (h : f.Shows s g) (i : Nat) :
    (f.step (.restart i)).2.Shows s (g.step (.restart i)).2 := by
  have hfresh : (f.onTimer i fun t => { clock := t.clock }).Shows s
      (g.onTimer i fun t => { clock := t.clock }) :=
    h.onTimer i fun m _ => rfl
  rw [step, step, h.clock]
  exact hfresh.tryDesk_common i 0 fun d d' hdesk => hdesk.recover f.clock

/-- An occurrence that names no session does to what a session sees what it does to the whole. -/
theorem meet_common (h : f.Shows s g) {o : Occurrence} (ho : o.isCommon = true) :
    g.Admits o ∧ (f.meet o).2.Shows s (g.meet o).2 := by
  cases o with
  | purgeRegions i now =>
      exact ⟨trivial, h.tryDesk_common i 0 fun d d' hdesk => hdesk.purgeRegions now⟩
  | recover i now => exact ⟨trivial, h.tryDesk_common i 0 fun d d' hdesk => hdesk.recover now⟩
  | restart i => exact ⟨trivial, h.restart i⟩
  | sweep i => exact ⟨trivial, h.sweep i⟩
  | pass t => exact ⟨trivial, h.moveTo t⟩
  | _ => cases ho

theorem step_visit (h : f.Shows s g) (i : Nat) {v : VisitOf} (hv : v.id = s) :
    (g.step (.visit i v)).1 = (f.step (.visit i v)).1 ∧
      (f.step (.visit i v)).2.Shows s (g.step (.visit i v)).2 := by
  have hkey : s.owns v.key = true := SessionId.owns_fragmentKey.trans (beq_iff_eq.2 hv)
  cases hd : f.desk? i with
  | none =>
      rw [step, step, actDesk_of_none hd, actDesk_of_none (h.no_desk hd)]
      exact ⟨rfl, h⟩
  | some d =>
      obtain ⟨d', hd', hdesk⟩ := h.desk hd
      obtain ⟨hanswer, hshows⟩ := hdesk.visit f.site.windows hkey
      rw [step_visit_of_desk? hd, step_visit_of_desk? hd', h.site, hanswer]
      exact ⟨rfl, h.putDesk hshows⟩

theorem step_expire (h : f.Shows s g) (i : Nat) {key : String} (hkey : s.owns key = true)
    (now : UInt64) :
    (g.step (.expire i key now [])).1 = (f.step (.expire i key now [])).1 ∧
      (f.step (.expire i key now [])).2.Shows s (g.step (.expire i key now [])).2 := by
  simp only [step, Desk.expireAfter_nil]
  apply h.actDesk
  intro d d' hdesk
  obtain ⟨hanswer, hshows⟩ := hdesk.tryExpiry hkey now
  exact ⟨by rw [hanswer], hshows⟩

/-- What is changed for a session where a front end stores is changed alike in what it sees. -/
theorem tryChange (h : f.Shows s g) (i : Nat) {work : Desk → Except Unavailable Desk}
    (hwork : ∀ d d', Desk.Shows s d d' → ∃ e e',
      work d = .ok e ∧ work d' = .ok e' ∧ Desk.Shows s e e') :
    let change := fun f : Fleet => f.tryDesk i () fun d => (work d).map fun d' => ((), d')
    (change g).1 = (change f).1 ∧ (change f).2.Shows s (change g).2 := by
  apply h.tryDesk
  intro d d' hdesk
  obtain ⟨e, e', hdone, hdone', hshows⟩ := hwork d d' hdesk
  rw [hdone, hdone']
  exact ⟨(), e, e', rfl, rfl, hshows⟩

theorem step_noteRegion (h : f.Shows s g) (i : Nat) (region : String) (now : UInt64) :
    (g.step (.noteRegion i s region now)).1 = (f.step (.noteRegion i s region now)).1 ∧
      (f.step (.noteRegion i s region now)).2.Shows s (g.step (.noteRegion i s region now)).2 := by
  obtain ⟨hanswer, hshows⟩ := h.tryChange i fun d d' hdesk =>
    hdesk.noteRegion f.site.windows.region region now
  simp only [step, h.site, hanswer]
  exact ⟨trivial, hshows⟩

theorem step_forgetRegion (h : f.Shows s g) (i : Nat) :
    (g.step (.forgetRegion i s)).1 = (f.step (.forgetRegion i s)).1 ∧
      (f.step (.forgetRegion i s)).2.Shows s (g.step (.forgetRegion i s)).2 := by
  obtain ⟨hanswer, hshows⟩ := h.tryChange i fun d d' hdesk => hdesk.forgetRegion
  simp only [step, hanswer]
  exact ⟨trivial, hshows⟩

theorem step_region (h : f.Shows s g) (i : Nat) (now : UInt64) :
    (g.step (.region i s now)).1 = (f.step (.region i s now)).1 ∧
      (f.step (.region i s now)).2.Shows s (g.step (.region i s now)).2 := by
  have hwork : ∀ d d' : Desk, Desk.Shows s d d' → ∃ a e e',
      (d.region? s now).map (fun r => (r, d)) = .ok (a, e) ∧
      (d'.region? s now).map (fun r => (r, d')) = .ok (a, e') ∧ Desk.Shows s e e' := by
    intro d d' hdesk
    obtain ⟨r, hregion, hregion'⟩ := hdesk.region? now
    exact ⟨r, d, d', by rw [hregion]; rfl, by rw [hregion']; rfl, hdesk⟩
  obtain ⟨hanswer, hshows⟩ := h.tryDesk i none hwork
  simp only [step, hanswer]
  exact ⟨trivial, hshows⟩

/-- A listener of the session is handed the key that was announced first of those that are seen. -/
theorem admits_deliver (h : f.Shows s g) {i : Nat} {key : String} (hkey : s.owns key = true)
    {now : UInt64} {before : List VisitOf} (hadmits : f.Admits (.deliver i key now before)) :
    g.Admits (.deliver i key now before) := by
  obtain ⟨hbefore, m, rest, hm, hannounced⟩ := announced_of_admits hadmits
  have htimer := h.timers i
  rw [hm, Option.map_some] at htimer
  obtain ⟨m', hm', htimer'⟩ := Option.map_eq_some_iff.1 htimer
  have hannounced' : m'.timer.announced = key :: rest.filter s.owns := by
    rw [htimer']
    refine (congrArg (List.filter s.owns) hannounced).trans ?_
    exact List.filter_cons_of_pos hkey
  refine ⟨hbefore, ?_⟩
  rw [hm', Option.bind_some, hannounced']
  rfl

/-- An occurrence that names a session is answered by what the session sees. -/
theorem meet_named (h : f.Shows s g) {o : Occurrence} (ho : o.names s = true)
    (hadmits : f.Admits o) :
    g.Admits o ∧ (g.meet o).1 = (f.meet o).1 ∧ (f.meet o).2.Shows s (g.meet o).2 := by
  cases o with
  | visit i v => exact ⟨trivial, h.step_visit i (beq_iff_eq.1 ho)⟩
  | expire i key now before =>
      obtain rfl : before = [] := hadmits
      exact ⟨rfl, h.step_expire i ho now⟩
  | deliver i key now before =>
      have hadmits' := h.admits_deliver ho hadmits
      obtain ⟨rfl, m, rest, hm, hannounced⟩ := announced_of_admits hadmits
      have hnext : (f.onTimer i Timer.next).Shows s (g.onTimer i Timer.next) := by
        apply h.onTimer i
        intro m₁ hm₁
        obtain rfl := Option.some.inj (hm.symm.trans hm₁)
        exact Timer.only_next hannounced ho
      exact ⟨hadmits', hnext.step_expire i ho now⟩
  | noteRegion i id region now =>
      obtain rfl : id = s := beq_iff_eq.1 ho
      exact ⟨trivial, h.step_noteRegion i region now⟩
  | region i id now =>
      obtain rfl : id = s := beq_iff_eq.1 ho
      exact ⟨trivial, h.step_region i now⟩
  | forgetRegion i id =>
      obtain rfl : id = s := beq_iff_eq.1 ho
      exact ⟨trivial, h.step_forgetRegion i⟩
  | _ => cases ho

/-- What is open under the key of another session is not of the session, if the fleet has been booked
so far. -/
theorem session_ne {earlier : List Event} {log : List Turn} (hbooked : f.Booked earlier log)
    {t : Timer} {key : String} (hkey : s.owns key = false) {x : Fragment}
    (hfragment : Desk.isFragmentKey key = true)
    (hopen : (f.deskWith t).fragment? key = some x) : x.session ≠ s.text := by
  obtain ⟨bytes, hlook, hdecode⟩ := Option.bind_eq_some_iff.1 hopen
  obtain ⟨y, v, hy, hv, hleft⟩ := hbooked.dated key bytes hfragment hlook
  obtain rfl : y = x := Option.some.inj (hy.symm.trans hdecode)
  rw [hleft.session]
  intro htext
  have hown : s.owns v.key = true :=
    SessionId.owns_fragmentKey.trans (beq_iff_eq.2 (SessionId.ext_text htext))
  rw [Turn.key_of_lastFolded hv, hkey] at hown
  cases hown

theorem step_expire_unseen (h : f.Shows s g) {earlier : List Event} {log : List Turn}
    (hbooked : f.Booked earlier log) (i : Nat) {key : String} (hkey : s.owns key = false)
    (now : UInt64) : (f.step (.expire i key now [])).2.Shows s g := by
  simp only [step, Desk.expireAfter_nil]
  apply h.actDesk_unseen
  intro d d' hd hdesk
  obtain ⟨m, -, rfl⟩ := desk?_eq_some hd
  exact hdesk.tryExpiry_unseen hkey (fun hfragment x hopen => session_ne hbooked hkey hfragment hopen)
    now

/-- An occurrence that names another session goes unseen. -/
theorem meet_unseen (h : f.Shows s g) {earlier : List Event} {log : List Turn}
    (hbooked : f.Booked earlier log) {o : Occurrence} (ho : o.concerns s = false)
    (hadmits : f.Admits o) : (f.meet o).2.Shows s g := by
  obtain ⟨hnames, hcommon⟩ := Bool.or_eq_false_iff.1 ho
  cases o with
  | visit i v =>
      have hkey : s.owns v.key = false := SessionId.owns_fragmentKey.trans hnames
      rw [meet, step]
      apply h.actDesk_unseen
      intro d d' hd hdesk
      obtain ⟨m, -, rfl⟩ := desk?_eq_some hd
      exact hdesk.visits_unseen hkey
        (fun x hopen => session_ne hbooked hkey (Desk.isFragmentKey_fragmentKey v.id) hopen)
        (Desk.visits_visit _ v _)
  | expire i key now before =>
      obtain rfl : before = [] := hadmits
      exact h.step_expire_unseen hbooked i hnames now
  | deliver i key now before =>
      obtain ⟨rfl, m, rest, hm, hannounced⟩ := announced_of_admits hadmits
      have hnext : (f.onTimer i Timer.next).Shows s g := by
        apply h.onTimer_unseen i
        intro m₁ hm₁
        obtain rfl := Option.some.inj (hm.symm.trans hm₁)
        exact Timer.only_next_of_hidden hannounced hnames
      exact hnext.step_expire_unseen (f := f.onTimer i Timer.next) hbooked i hnames now
  | noteRegion i id region now =>
      have hid : id ≠ s := fun heq => Bool.false_ne_true (hnames.symm.trans (beq_iff_eq.2 heq))
      rw [meet, step]
      apply h.tryDesk_unseen
      intro d d' hdesk
      obtain ⟨e, hnote, hshows⟩ := hdesk.noteRegion_unseen hid f.site.windows.region region now
      exact ⟨(), e, by rw [hnote]; rfl, hshows⟩
  | region i id now =>
      rw [meet, step]
      apply h.tryDesk_unseen
      intro d d' hdesk
      exact ⟨_, d, by rw [Desk.region?_of_up (hdesk.answers .get)]; rfl, hdesk⟩
  | forgetRegion i id =>
      have hid : id ≠ s := fun heq => Bool.false_ne_true (hnames.symm.trans (beq_iff_eq.2 heq))
      rw [meet, step]
      apply h.tryDesk_unseen
      intro d d' hdesk
      obtain ⟨e, hforget, hshows⟩ := hdesk.forgetRegion_unseen hid
      exact ⟨(), e, by rw [hforget]; rfl, hshows⟩
  | outage calls reason => exact absurd hadmits id
  | _ => cases hcommon

end Shows

/-- A fleet is fresh if nothing is stored, the store answers, and nothing is armed or announced. -/
structure Fresh (f : Fleet) : Prop where
  empty : f.store.table.IsEmpty
  up : f.store.down = []
  idle : ∀ m ∈ f.members, m.timer.armed = Dict.empty ∧ m.timer.announced = []

/-- A fleet of some settings is fresh if its store is empty and answers. -/
theorem fresh_ofSettings (s : Settings) {store : Store} (outlet : KeyOutlet) (files : Files)
    (clock : UInt64) (keys : List String) (hempty : store.table.IsEmpty) (hup : store.down = []) :
    (ofSettings s store outlet files clock keys).Fresh where
  empty := hempty
  up := hup
  idle := by
    intro m hm
    obtain ⟨key, -, rfl⟩ := List.mem_map.1 hm
    exact ⟨rfl, rfl⟩

/-- In a course a session is served as if it were alone: with the occurrences of the others taken
out the course stays proper, the occurrences that name the session are answered alike, its records
are emitted alike, and the same is stored under its keys in the end. -/
structure ServesAlone (s : SessionId) (f : Fleet) (os : List Occurrence) : Prop where
  proper : f.Proper (os.filter fun o => o.concerns s)
  answers : answersTo s f (os.filter fun o => o.concerns s) = answersTo s f os
  records : s.recordsOf (f.course (os.filter fun o => o.concerns s)).2.events =
    s.recordsOf (f.course os).2.events
  stored : ∀ key, s.owns key = true →
    (f.course (os.filter fun o => o.concerns s)).2.store.table.get? key =
      (f.course os).2.store.table.get? key

variable {s : SessionId} {f g : Fleet} {os : List Occurrence}

theorem shows_of_fresh (h : f.Fresh) (s : SessionId) : f.Shows s f where
  site := rfl
  clock := rfl
  timers := by
    intro i
    cases hm : f.members[i]? with
    | none => rfl
    | some m =>
        obtain ⟨harmed, hannounced⟩ := h.idle m (List.mem_of_getElem? hm)
        rw [Option.map_some, Option.map_some]
        congr 1
        apply Timer.ext_armed
        · rfl
        · intro key
          rw [Timer.armed_only, harmed, Dict.get?_empty, ite_self]
        · rw [Timer.only, hannounced]
          rfl
        · rfl
  up := h.up
  up' := h.up
  look := by
    intro key
    rw [h.empty key, ite_self]
  records := rfl

theorem answersTo_cons (s : SessionId) (f : Fleet) (o : Occurrence) (rest : List Occurrence) :
    answersTo s f (o :: rest) =
      if o.names s then (f.meet o).1 :: answersTo s (f.meet o).2 rest
      else answersTo s (f.meet o).2 rest := by
  have hcourse : (f.course (o :: rest)).1 = (f.meet o).1 :: ((f.meet o).2.course rest).1 := rfl
  unfold answersTo
  rw [hcourse, List.zip_cons_cons, List.filter_cons]
  split
  · rfl
  · rfl

/-- What a session sees of a course is the course without the others. -/
theorem shows_course {earlier : List Event} {log : List Turn} (h : f.Shows s g)
    (hbooked : f.Booked earlier log) (hproper : f.Proper os) :
    let kept := os.filter fun o => o.concerns s
    g.Proper kept ∧ answersTo s g kept = answersTo s f os ∧
      (f.course os).2.Shows s (g.course kept).2 := by
  induction os generalizing f g log with
  | nil => exact ⟨trivial, rfl, h⟩
  | cons o rest ih =>
      obtain ⟨hadmits, hrest⟩ := hproper
      have hbooked' := booked_meet hbooked o
      rw [answersTo_cons]
      cases hconcerns : o.concerns s with
      | false =>
          have hnames : o.names s = false := (Bool.or_eq_false_iff.1 hconcerns).1
          rw [List.filter_cons_of_neg (by rw [hconcerns]; decide), hnames, if_neg Bool.false_ne_true]
          exact ih (h.meet_unseen hbooked hconcerns hadmits) hbooked' hrest
      | true =>
          rw [List.filter_cons_of_pos hconcerns]
          cases hnames : o.names s with
          | true =>
              obtain ⟨hadmits', hanswer, hshows⟩ := h.meet_named hnames hadmits
              obtain ⟨hproper', hanswers, hafter⟩ := ih hshows hbooked' hrest
              refine ⟨⟨hadmits', hproper'⟩, ?_, hafter⟩
              rw [answersTo_cons, hnames, if_pos rfl, if_pos rfl, hanswer, hanswers]
          | false =>
              rw [Occurrence.concerns, hnames, Bool.false_or] at hconcerns
              obtain ⟨hadmits', hshows⟩ := h.meet_common hconcerns
              obtain ⟨hproper', hanswers, hafter⟩ := ih hshows hbooked' hrest
              refine ⟨⟨hadmits', hproper'⟩, ?_, hafter⟩
              rw [answersTo_cons, hnames, if_neg Bool.false_ne_true, if_neg Bool.false_ne_true]
              exact hanswers

/-- Every proper course of a fresh fleet serves each session as if it were alone. Texts that differ
in the case of letters alone name the same session. -/
theorem sessions_keep_apart (hfresh : f.Fresh) (hproper : f.Proper os) :
    (∀ s, ServesAlone s f os) ∧
      ∀ text text', lowered text = lowered text' → SessionId.parse? text = SessionId.parse? text' := by
  refine ⟨?_, ?_⟩
  · intro s
    obtain ⟨hkept, hanswers, hshows⟩ :=
      shows_course (shows_of_fresh hfresh s) (booked_of_isEmpty hfresh.empty) hproper
    refine ⟨hkept, hanswers, hshows.records, ?_⟩
    intro key hkey
    rw [hshows.look, if_pos hkey]
  · intro text text' hcase
    unfold SessionId.parse?
    simp only [hcase]

/-- Two sessions take turns on two front ends. Each front end takes the wake-up of one of them. -/
theorem sessions_keep_apart_taking_turns :
    let a : SessionId := ⟨"a1", by decide, by decide, by decide⟩
    let b : SessionId := ⟨"b2", by decide, by decide, by decide⟩
    let os : List Occurrence :=
      [.visit 0 ⟨a, .connect Dict.empty, 5, "x"⟩, .visit 1 ⟨b, .connect Dict.empty, 5, "y"⟩,
        .pass 5000, .sweep 0, .sweep 1, .deliver 0 a.fragmentKey 5000 [],
        .deliver 1 b.fragmentKey 5000 [], .noteRegion 1 a "CA" 5000,
        .visit 0 ⟨b, .status 3 none, 5001, "z"⟩]
    pair.Fresh ∧ pair.Proper os ∧ ServesAlone a pair os ∧ ServesAlone b pair os := by
  intro a b os
  have hfresh : pair.Fresh := fresh_ofSettings _ _ _ _ _ Table.isEmpty_memory rfl
  have hproper : pair.Proper os := by decide +kernel
  have hapart := (sessions_keep_apart hfresh hproper).1
  exact ⟨hfresh, hproper, hapart a, hapart b⟩

end Fleet

end Gatehouse
