import Gatehouse.Fleet.Step
import Gatehouse.Proofs.Tracker

/-!
# What a visit does to a desk

A connect and the two kinds of reports differ only in the fragment that they open and in the window
that they leave. A visit opens a fragment, folds itself into the open one, is a duplicate, or fails.
Visits may also come just before a wake-up is answered.
-/

namespace Gatehouse

namespace Visit

/-- The bytes that a visit reports. A connect reports none. -/
def bytes : Visit → UInt64
  | .connect _ => 0
  | .status bytes _ => bytes
  | .disconnect bytes _ => bytes

/-- The number that a visit carries. -/
def seq : Visit → Option UInt64
  | .connect _ => none
  | .status _ seq => seq
  | .disconnect _ seq => seq

/-- The fields that a visit brings. A report brings none. -/
def fields : Visit → Dict String
  | .connect fields => fields
  | .status _ _ => Dict.empty
  | .disconnect _ _ => Dict.empty

/-- Whether a visit is a status or a disconnect. -/
def isReport : Visit → Bool
  | .connect _ => false
  | .status _ _ => true
  | .disconnect _ _ => true

/-- The window that a visit leaves to its fragment. -/
def window (w : Windows) : Visit → UInt64
  | .connect _ => w.fragment
  | .status _ _ => w.fragment
  | .disconnect _ _ => w.disconnect

end Visit

namespace VisitOf

/-- The key of the fragment that a visit is about. -/
def key (v : VisitOf) : String := v.id.fragmentKey

/-- The fragment that a visit opens. -/
def opening (w : Windows) (v : VisitOf) : Fragment :=
  (match v.visit with
    | .connect fields => Fragment.opened v.id.text v.tag fields v.now
    | .status bytes seq => Fragment.openedPartial v.id.text v.tag v.now bytes seq
    | .disconnect bytes seq => Fragment.openedPartial v.id.text v.tag v.now bytes seq).extend
  v.now (v.visit.window w)

/-- What a visit says of its session stands in the fragment that it opens. -/
theorem opening_eq (w : Windows) (v : VisitOf) :
    v.opening w =
      { session := v.id.text
        tag := v.tag
        start := v.now
        last := v.now
        bytes := v.visit.bytes
        isPartial := v.visit.isReport
        lastSeq := v.visit.seq
        fields := v.visit.fields
        due := capped v.now (v.visit.window w) } := by
  unfold opening
  cases v.visit with
  | connect fields => rfl
  | status bytes seq => rfl
  | disconnect bytes seq => rfl

/-- The fragment that a visit makes of an open one. -/
def fold (w : Windows) (f : Fragment) (v : VisitOf) : Fragment :=
  (f.apply v.now v.visit.bytes v.visit.seq).extend v.now (v.visit.window w)

end VisitOf

namespace Desk

variable {d d' : Desk} {w : Windows} {v : VisitOf}

/-- What a visit does: it fails, it opens a fragment in place of none or of another one, it is
folded into the open fragment, or it is a duplicate. -/
inductive Visits (w : Windows) (v : VisitOf) (d : Desk) : VisitAnswer → Desk → Prop
  | failed (e : Unavailable) (hdown : .update ∈ d.store.down) : Visits w v d (.failed e) d
  | opened (hvisit : v.visit.isReport = false) (hnone : d.fragment? v.key = none) :
      Visits w v d (.opened none) (d.keeping v.key (v.opening w) (v.visit.window w))
  | reopened {f : Fragment} (hvisit : v.visit.isReport = false)
      (hopen : d.fragment? v.key = some f) :
      Visits w v d (.opened (some f.finish))
        ((d.keeping v.key (v.opening w) (v.visit.window w)).emit (.session f.finish))
  | openedPartial (hvisit : v.visit.isReport = true) (hnone : d.fragment? v.key = none) :
      Visits w v d (.reported .openedPartial)
        (d.keeping v.key (v.opening w) (v.visit.window w))
  | applied {f : Fragment} (hvisit : v.visit.isReport = true) (hopen : d.fragment? v.key = some f)
      (haccepts : f.accepts v.visit.seq = true) :
      Visits w v d (.reported .applied) (d.keeping v.key (v.fold w f) (v.visit.window w))
  | duplicate {f : Fragment} (hvisit : v.visit.isReport = true)
      (hopen : d.fragment? v.key = some f) (haccepts : f.accepts v.visit.seq = false) :
      Visits w v d (.reported .duplicate) d

theorem visits_connect {fields : Dict String} (hv : v.visit = .connect fields) :
    Visits w v d (d.visit w v).1 (d.visit w v).2 := by
  have hvisit : v.visit.isReport = false := by rw [hv]; rfl
  have hwindow : v.visit.window w = w.fragment := by rw [hv]; rfl
  have hopening : v.opening w =
      (Fragment.opened v.id.text v.tag fields v.now).extend v.now w.fragment := by
    simp only [VisitOf.opening, hv, Visit.window]
  simp only [visit, hv]
  cases hconnect : d.connect w v.id v.tag fields v.now with
  | error e => exact .failed e (connect_eq_error hconnect)
  | ok result =>
      obtain ⟨flushed, d'⟩ := result
      obtain ⟨hnone, rfl, rfl⟩ | ⟨f, hopen, rfl, rfl⟩ := connect_cases hconnect
      · rw [← hopening, ← hwindow]
        exact .opened hvisit hnone
      · rw [← hopening, ← hwindow]
        exact .reopened hvisit hopen

/-- What a visit reports, with the window that it leaves. -/
def reported (w : Windows) (v : VisitOf) : Report :=
  ⟨v.now, v.visit.bytes, v.visit.seq, v.visit.window w⟩

theorem visit_of_isReport (hvisit : v.visit.isReport = true) :
    d.visit w v = match d.report v.id v.tag (reported w v) with
      | .ok (outcome, d') => (.reported outcome, d')
      | .error e => (.failed e, d) := by
  unfold visit reported
  cases hv : v.visit with
  | connect fields => simp only [hv, Visit.isReport, Bool.false_eq_true] at hvisit
  | status bytes seq => rfl
  | disconnect bytes seq => rfl

theorem opening_of_isReport (hvisit : v.visit.isReport = true) :
    v.opening w = (Fragment.openedPartial v.id.text v.tag v.now v.visit.bytes v.visit.seq).extend
      v.now (v.visit.window w) := by
  unfold VisitOf.opening
  cases hv : v.visit with
  | connect fields => simp only [hv, Visit.isReport, Bool.false_eq_true] at hvisit
  | status bytes seq => rfl
  | disconnect bytes seq => rfl

theorem visits_report (hvisit : v.visit.isReport = true) :
    Visits w v d (d.visit w v).1 (d.visit w v).2 := by
  rw [visit_of_isReport hvisit]
  cases hreport : d.report v.id v.tag (reported w v) with
  | error e => exact .failed e (report_eq_error hreport)
  | ok result =>
      obtain ⟨outcome, d'⟩ := result
      obtain ⟨hnone, rfl, rfl⟩ | ⟨f, hopen, ⟨haccepts, rfl, rfl⟩ | ⟨haccepts, rfl, rfl⟩⟩ :=
        report_cases hreport
      · have h : Visits w v d _ _ := .openedPartial hvisit hnone
        rw [opening_of_isReport hvisit] at h
        exact h
      · exact .applied hvisit hopen haccepts
      · exact .duplicate hvisit hopen haccepts

/-- Every visit does one of the things that a visit does. -/
theorem visits_visit (w : Windows) (v : VisitOf) (d : Desk) :
    Visits w v d (d.visit w v).1 (d.visit w v).2 := by
  cases hv : v.visit with
  | connect fields => exact visits_connect hv
  | status bytes seq => exact visits_report (by rw [hv]; rfl)
  | disconnect bytes seq => exact visits_report (by rw [hv]; rfl)

/-- A visit leaves what is stored under other keys than its own. -/
theorem look_of_visits {a : VisitAnswer} {key' : String} (h : Visits w v d a d') (hne : key' ≠ v.key) :
    d'.look key' = d.look key' := by
  cases h with
  | failed e hdown => rfl
  | duplicate hvisit hopen haccepts => rfl
  | reopened hvisit hopen =>
      exact (look_emit _ _ _).trans ((look_keeping _ _).trans (if_neg hne))
  | _ => exact (look_keeping _ _).trans (if_neg hne)

/-- What a visit finds under its key tells what it does, if the store answers. -/
def visited (w : Windows) (v : VisitOf) (d : Desk) : VisitAnswer × Desk :=
  let fresh := d.keeping v.key (v.opening w) (v.visit.window w)
  match d.fragment? v.key, v.visit.isReport with
  | none, false => (.opened none, fresh)
  | none, true => (.reported .openedPartial, fresh)
  | some f, false => (.opened (some f.finish), fresh.emit (.session f.finish))
  | some f, true =>
      if f.accepts v.visit.seq then
        (.reported .applied, d.keeping v.key (v.fold w f) (v.visit.window w))
      else (.reported .duplicate, d)

theorem Visits.eq_visited {a : VisitAnswer} (hup : .update ∉ d.store.down)
    (h : Visits w v d a d') : d.visited w v = (a, d') := by
  unfold visited
  cases h with
  | failed e hdown => exact absurd hdown hup
  | opened hvisit hnone => rw [hvisit, hnone]
  | reopened hvisit hopen => rw [hvisit, hopen]
  | openedPartial hvisit hnone => rw [hvisit, hnone]
  | applied hvisit hopen haccepts => simp only [hvisit, hopen, haccepts, ↓reduceIte]
  | duplicate hvisit hopen haccepts =>
      simp only [hvisit, hopen, haccepts, Bool.false_eq_true, ↓reduceIte]

/-- A visit does one thing if the store answers. -/
theorem visit_eq {a : VisitAnswer} (hup : .update ∉ d.store.down) (h : Visits w v d a d') :
    d.visit w v = (a, d') :=
  ((visits_visit w v d).eq_visited hup).symm.trans (h.eq_visited hup)

/-- Answer a wake-up. A failure changes nothing. -/
def tryExpiry (key : String) (now : UInt64) (d : Desk) :
    Except Unavailable (Option SessionRecord) × Desk :=
  match d.handleExpiry key now with
  | .ok (r, d') => (.ok r, d')
  | .error e => (.error e, d)

theorem tryExpiry_cases (key : String) (now : UInt64) (d : Desk) :
    (∃ r d', d.tryExpiry key now = (.ok r, d') ∧ Wakes key now d r d') ∨
      ∃ e, d.tryExpiry key now = (.error e, d) ∧ .removeIf ∈ d.store.down := by
  unfold tryExpiry
  cases hexpiry : d.handleExpiry key now with
  | ok result => exact .inl ⟨result.1, result.2, rfl, handleExpiry_wakes hexpiry⟩
  | error e => exact .inr ⟨e, rfl, handleExpiry_eq_error hexpiry⟩

/-- A wake-up does one thing if the store answers. -/
theorem tryExpiry_eq {key : String} {now : UInt64} {r : Option SessionRecord}
    (hup : .removeIf ∉ d.store.down) (h : Wakes key now d r d') :
    d.tryExpiry key now = (.ok r, d') := by
  obtain ⟨r', d'', hexpiry, hwake⟩ | ⟨e, -, hdown⟩ := tryExpiry_cases key now d
  · obtain ⟨rfl, rfl⟩ := h.unique hwake
    exact hexpiry
  · exact absurd hdown hup

/-- A wake-up is answered after the visits that precede it, which come if its key is looked up. -/
theorem expireAfter_eq (w : Windows) (key : String) (now : UInt64) (before : List VisitOf)
    (d : Desk) :
    d.expireAfter w key now before =
      if isFragmentKey key || isRegionKey key then
        let (answers, d') := d.visitAll w before
        ((some answers, (d'.tryExpiry key now).1), (d'.tryExpiry key now).2)
      else ((none, (d.tryExpiry key now).1), (d.tryExpiry key now).2) := by
  unfold expireAfter tryExpiry
  split
  · dsimp only
    cases (d.visitAll w before).2.handleExpiry key now with
    | ok result => rfl
    | error e => rfl
  · cases d.handleExpiry key now with
    | ok result => rfl
    | error e => rfl

/-- A wake-up that no visits precede. -/
theorem expireAfter_nil (w : Windows) (key : String) (now : UInt64) (d : Desk) :
    d.expireAfter w key now [] =
      ((if isFragmentKey key || isRegionKey key then some [] else none,
        (d.tryExpiry key now).1), (d.tryExpiry key now).2) := by
  rw [expireAfter_eq]
  split
  · rfl
  · rfl

end Desk

end Gatehouse
