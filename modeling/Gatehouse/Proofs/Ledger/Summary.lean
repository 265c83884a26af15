import Gatehouse.Proofs.Ledger.Run

/-!
# Records are faithful summaries

The fragment of a span holds the sum of its visits: the first and the last time, the bytes, and the
greatest number of a report. What a visit is answered is read off that sum.
-/

namespace Gatehouse

/-- Whether a number is reached by the number of a report. -/
def Reaches (seq : Option UInt64) (n : UInt64) : Prop := ∃ m, seq = some m ∧ n ≤ m

theorem reaches_laterSeq {seq seq' : Option UInt64} {n : UInt64} :
    Reaches (Fragment.laterSeq seq seq') n ↔ Reaches seq n ∨ Reaches seq' n := by
  cases seq with
  | none =>
      simp only [Fragment.laterSeq, Reaches, reduceCtorEq, false_and, exists_false, false_or]
  | some a =>
      cases seq' with
      | none =>
          simp only [Fragment.laterSeq, Reaches, reduceCtorEq, false_and, exists_false, or_false]
      | some b =>
          simp only [Fragment.laterSeq, Reaches, Option.some.injEq, exists_eq_left']
          split
          · rename_i hlt
            constructor
            · exact .inl
            · rintro (h | h)
              · exact h
              · exact UInt64.le_trans h (UInt64.le_of_lt hlt)
          · rename_i hlt
            constructor
            · exact .inr
            · rintro (h | h)
              · exact UInt64.le_trans h (UInt64.not_lt.1 hlt)
              · exact h

/-- A report is turned away exactly if its number was reached before. -/
theorem accepts_eq_false_iff {f : Fragment} {seq : Option UInt64} :
    f.accepts seq = false ↔ ∃ n, seq = some n ∧ Reaches f.lastSeq n := by
  unfold Fragment.accepts
  cases seq with
  | none => simp only [Bool.true_eq_false, reduceCtorEq, false_and, exists_false]
  | some n =>
      cases hlast : f.lastSeq with
      | none => simp [Reaches]
      | some m => simp [Reaches, UInt64.not_lt]

/-- The sum of the bytes of some visits. -/
def VisitOf.total : List VisitOf → Nat
  | [] => 0
  | v :: rest => v.visit.bytes.toNat + total rest

theorem VisitOf.total_append (vs ws : List VisitOf) :
    total (vs ++ ws) = total vs + total ws := by
  induction vs with
  | nil => exact (Nat.zero_add _).symm
  | cons v rest ih =>
      rw [List.cons_append, total, total, ih]
      omega

/-- A fragment sums up a span: what it says is what its visits say together. -/
structure Fragment.SumsUp (f : Fragment) (s : Span) : Prop where
  session : f.session = s.first.id.text
  start : f.start = s.first.now
  isPartial : f.isPartial = s.first.visit.isReport
  fields : f.fields = s.first.visit.fields
  latest : ∀ v ∈ s.visits, v.now ≤ f.last
  reached : ∃ v ∈ s.visits, f.last = v.now
  bytes : f.bytes.toNat = min (UInt64.size - 1) (VisitOf.total s.visits)
  seq : ∀ n, Reaches f.lastSeq n ↔ ∃ v ∈ s.visits, Reaches v.visit.seq n

namespace Span

theorem visits_add (s : Span) (v : VisitOf) : (s.add v).visits = s.visits ++ [v] := rfl

theorem mem_visits_singleton {n : Nat} {u v : VisitOf} :
    u ∈ (⟨n, v, []⟩ : Span).visits ↔ u = v := List.mem_singleton

/-- The fragment that a visit opens sums up the visit. -/
theorem sumsUp_opening (w : Windows) (n : Nat) (v : VisitOf) :
    (v.opening w).SumsUp ⟨n, v, []⟩ := by
  rw [VisitOf.opening_eq]
  refine ⟨rfl, rfl, rfl, rfl, ?_, ?_, ?_, ?_⟩
  · intro u hu
    rw [mem_visits_singleton.1 hu]
    exact UInt64.le_refl v.now
  · exact ⟨v, mem_visits_singleton.2 rfl, rfl⟩
  · have hlt : v.visit.bytes.toNat < UInt64.size := v.visit.bytes.toNat_lt_size
    have htotal : VisitOf.total (⟨n, v, []⟩ : Span).visits = v.visit.bytes.toNat := Nat.add_zero _
    change v.visit.bytes.toNat = _
    rw [htotal]
    exact (Nat.min_eq_right (Nat.le_sub_one_of_lt hlt)).symm
  · intro k
    constructor
    · intro hk
      exact ⟨v, mem_visits_singleton.2 rfl, hk⟩
    · rintro ⟨u, hu, hk⟩
      rw [mem_visits_singleton.1 hu] at hk
      exact hk

/-- The fragment that a visit makes of a sum is the sum with the visit. -/
theorem sumsUp_fold {f : Fragment} {s : Span} (w : Windows) (h : f.SumsUp s) (v : VisitOf) :
    (v.fold w f).SumsUp (s.add v) where
  session := h.session
  start := h.start
  isPartial := h.isPartial
  fields := h.fields
  latest := by
    intro u hu
    change u.now ≤ if f.last < v.now then v.now else f.last
    rw [visits_add] at hu
    rcases List.mem_append.1 hu with hu | hu
    · have hle := h.latest u hu
      split
      · rename_i hlt
        exact UInt64.le_trans hle (UInt64.le_of_lt hlt)
      · exact hle
    · rw [List.mem_singleton.1 hu]
      split
      · exact UInt64.le_refl v.now
      · rename_i hlt
        exact UInt64.not_lt.1 hlt
  reached := by
    obtain ⟨u, hu, hlast⟩ := h.reached
    change ∃ u ∈ (s.add v).visits, (if f.last < v.now then v.now else f.last) = u.now
    rw [visits_add]
    split
    · exact ⟨v, List.mem_append_right _ (List.mem_singleton.2 rfl), rfl⟩
    · exact ⟨u, List.mem_append_left _ hu, hlast⟩
  bytes := by
    have hone : VisitOf.total [v] = v.visit.bytes.toNat := Nat.add_zero _
    calc (capped f.bytes v.visit.bytes).toNat
        = min (UInt64.size - 1) (f.bytes.toNat + v.visit.bytes.toNat) := toNat_capped _ _
      _ = min (UInt64.size - 1) (VisitOf.total s.visits + v.visit.bytes.toNat) := by
          rw [h.bytes]
          omega
      _ = min (UInt64.size - 1) (VisitOf.total (s.add v).visits) := by
          rw [visits_add, VisitOf.total_append, hone]
  seq := by
    intro n
    change Reaches (Fragment.laterSeq v.visit.seq f.lastSeq) n ↔ _
    rw [reaches_laterSeq, h.seq, visits_add]
    constructor
    · rintro (hv | ⟨u, hu, hn⟩)
      · exact ⟨v, List.mem_append_right _ (List.mem_singleton.2 rfl), hv⟩
      · exact ⟨u, List.mem_append_left _ hu, hn⟩
    · rintro ⟨u, hu, hn⟩
      rcases List.mem_append.1 hu with hu | hu
      · exact .inr ⟨u, hu, hn⟩
      · rw [List.mem_singleton.1 hu] at hn
        exact .inl hn

theorem sumsUp_foldl {f : Fragment} {s : Span} (w : Windows) (h : f.SumsUp s) (vs : List VisitOf) :
    (vs.foldl (VisitOf.fold w) f).SumsUp { s with later := s.later ++ vs } := by
  induction vs generalizing f s with
  | nil =>
      rw [List.append_nil]
      exact h
  | cons v rest ih =>
      have hrest := ih (sumsUp_fold w h v)
      rw [List.append_cons]
      exact hrest

/-- The fragment of a span sums it up. -/
theorem sumsUp_fragment (w : Windows) (s : Span) : (s.fragment w).SumsUp s :=
  sumsUp_foldl w (sumsUp_opening w s.number s.first) s.later

end Span

/-- A record is a faithful summary of a span: it starts with the first visit and ends with the
latest one, counts the bytes of all visits up to the greatest word, is partial if a report opened
it, and has the fields of the connect and the id of the session in lower case. -/
structure Summarises (r : SessionRecord) (s : Span) : Prop where
  start : r.start = s.first.now
  latest : ∀ v ∈ s.visits, v.now ≤ r.last
  reached : ∃ v ∈ s.visits, r.last = v.now
  ordered : r.start ≤ r.last
  duration : r.duration.toNat = r.last.toNat - r.start.toNat
  bytes : r.bytes.toNat = min (UInt64.size - 1) (VisitOf.total s.visits)
  isPartial : r.isPartial = true ↔ s.first.visit.isReport = true
  fields : r.fields = s.first.visit.fields
  session : ∀ v ∈ s.visits, r.session = v.id.text
  lower : ∀ v ∈ s.visits, ∀ text, SessionId.parse? text = some v.id → r.session = lowered text

theorem summarises_record {s : Span} {log : List Turn} (w : Windows) (h : s.Runs log) :
    Summarises (s.record w) s := by
  have hsum := Span.sumsUp_fragment w s
  have hstart : s.first ∈ s.visits := List.mem_cons_self
  have hsession : ∀ v ∈ s.visits, (s.record w).session = v.id.text := by
    intro v hv
    have hid : v.id = s.first.id := SessionId.fragmentKey_inj (h.key_eq hv)
    rw [hid]
    exact hsum.session
  refine ⟨hsum.start, hsum.latest, hsum.reached, ?_, ?_, hsum.bytes, ?_, hsum.fields, hsession, ?_⟩
  · have hfirst := hsum.latest s.first hstart
    rw [← hsum.start] at hfirst
    exact hfirst
  · exact toNat_excess (s.fragment w).last (s.fragment w).start
  · change (s.fragment w).isPartial = true ↔ _
    rw [hsum.isPartial]
  · intro v hv text htext
    rw [hsession v hv]
    exact SessionId.text_of_parse? htext

/-- How a status or a disconnect is answered after a run with a log: it opens a partial fragment if
none is stored, and it is a duplicate if some visit of the stored fragment has reached its number. A
duplicate changes nothing. -/
structure ReportAnswered (w : Windows) (log : List Turn) (f : Fleet) (v : VisitOf)
    (result : Answer × Fleet) (outcome : ReportOutcome) : Prop where
  answer : result.1 = .visited (.reported outcome)
  openedPartial : outcome = .openedPartial ↔ f.store.table.get? v.id.fragmentKey = none
  duplicate : outcome = .duplicate ↔ ∃ s : Span, s.key = v.id.fragmentKey ∧ s.Runs log ∧
    f.store.table.get? v.id.fragmentKey = some (s.fragment w).encode ∧
      ∃ n, v.visit.seq = some n ∧ ∃ u ∈ s.visits, Reaches u.visit.seq n
  unchanged : outcome = .duplicate → result.2 = f

namespace Balanced

variable {w : Windows} {earlier : List Event} {log : List Turn} {l : Ledger} {d : Desk}
variable {key : String} {f : Fragment}

/-- Whether a report is turned away is decided by the numbers of the visits of the stored
fragment. -/
theorem accepts_iff (h : Balanced w earlier log l d) (hopen : d.fragment? key = some f)
    (seq : Option UInt64) :
    f.accepts seq = false ↔ ∃ s : Span, s.key = key ∧ s.Runs log ∧
      d.look key = some (s.fragment w).encode ∧
        ∃ n, seq = some n ∧ ∃ u ∈ s.visits, Reaches u.visit.seq n := by
  rw [accepts_eq_false_iff]
  constructor
  · rintro ⟨n, hn, hreaches⟩
    obtain ⟨s, hs, rfl⟩ := h.current_of_fragment? hopen
    have hlook : d.look key = some (s.fragment w).encode := by rw [h.stored, hs]; rfl
    refine ⟨s, h.accounts.keyed key s hs, h.accounts.running key s hs, hlook, n, hn, ?_⟩
    exact ((Span.sumsUp_fragment w s).seq n).1 hreaches
  · rintro ⟨s, -, -, hlook, n, hn, hreaches⟩
    rw [Desk.fragment?, hlook, Option.bind_some, Fragment.decode?_encode] at hopen
    cases hopen
    exact ⟨n, hn, ((Span.sumsUp_fragment w s).seq n).2 hreaches⟩

theorem look_of_no_fragment? (h : Balanced w earlier log l d) (hnone : d.fragment? key = none) :
    d.look key = none := by
  rw [h.stored, h.current_of_no_fragment? hnone]
  rfl

/-- A report is answered by what is stored under its key, unless it fails. -/
theorem answered (h : Balanced w earlier log l d) {v : VisitOf} {a : VisitAnswer} {d' : Desk}
    (hvisits : Desk.Visits w v d a d') (hreport : v.visit.isReport = true)
    (hup : .update ∉ d.store.down) :
    ∃ outcome, a = .reported outcome ∧ (outcome = .openedPartial ↔ d.look v.key = none) ∧
      (outcome = .duplicate ↔ ∃ s : Span, s.key = v.key ∧ s.Runs log ∧
        d.look v.key = some (s.fragment w).encode ∧
          ∃ n, v.visit.seq = some n ∧ ∃ u ∈ s.visits, Reaches u.visit.seq n) ∧
      (outcome = .duplicate → d' = d) := by
  cases hvisits with
  | failed e hdown => exact absurd hdown hup
  | opened hconnect hnone =>
      rw [hreport] at hconnect
      cases hconnect
  | reopened hconnect hopen =>
      rw [hreport] at hconnect
      cases hconnect
  | openedPartial _ hnone =>
      have hlook := h.look_of_no_fragment? hnone
      refine ⟨.openedPartial, rfl, iff_of_true rfl hlook, ?_, ?_⟩
      · apply iff_of_false (by decide)
        rintro ⟨s, -, -, hstored, -⟩
        cases hlook.symm.trans hstored
      · intro heq
        cases heq
  | applied _ hopen haccepts =>
      refine ⟨.applied, rfl, ?_, ?_, ?_⟩
      · exact iff_of_false (by decide) (Desk.look_ne_none hopen)
      · apply iff_of_false (by decide)
        intro hreached
        rw [(h.accepts_iff hopen v.visit.seq).2 hreached] at haccepts
        cases haccepts
      · intro heq
        cases heq
  | duplicate _ hopen haccepts =>
      refine ⟨.duplicate, rfl, ?_, ?_, fun _ => rfl⟩
      · exact iff_of_false (by decide) (Desk.look_ne_none hopen)
      · exact iff_of_true rfl ((h.accepts_iff hopen v.visit.seq).1 haccepts)

end Balanced

namespace Fleet

variable {f : Fleet} {steps : List Step}

theorem reportAnswered_step {earlier : List Event} {log : List Turn} {l : Ledger} {i : Nat}
    {v : VisitOf} (h : f.IsAudited earlier log l) (hreport : v.visit.isReport = true)
    (hmember : i < f.members.length) (hup : .update ∉ f.store.down) :
    ∃ outcome, ReportAnswered f.site.windows log f v (f.step (.visit i v)) outcome := by
  have hd : f.desk? i = some (f.deskWith f.members[i].timer) :=
    desk?_of_member (List.getElem?_eq_getElem hmember)
  have hvisits := Desk.visits_visit f.site.windows v (f.deskWith f.members[i].timer)
  obtain ⟨outcome, hanswer, hpartial, hduplicate, hsame⟩ :=
    (h f.members[i].timer).toBalanced.answered hvisits hreport hup
  rw [step_visit_of_desk? hd]
  refine ⟨outcome, congrArg Answer.visited hanswer, hpartial, hduplicate, ?_⟩
  intro heq
  rw [hsame heq]
  exact putDesk_desk? hd

/-- In every run of session accounting over a store that starts empty, the records are those that
the answers hand back, each is a faithful summary of the span that it closes, and every report is
answered by what is stored. -/
theorem records_summarise (hempty : f.store.table.IsEmpty)
    (hsteps : ∀ s ∈ steps, s.isAccounting = true) :
    (f.after steps).events = f.events ++ (f.turns steps).flatMap Turn.emitted ∧
    (∀ m t r, (f.turns steps)[m]? = some t → t.record? = some r →
      ∃ s : Span, s.key = t.key ∧ s.Runs ((f.turns steps).take m) ∧ Summarises r s) ∧
    ∀ i v, v.visit.isReport = true → i < (f.after steps).members.length →
      .update ∉ (f.after steps).store.down →
      ∃ outcome, ReportAnswered f.site.windows (f.turns steps) (f.after steps) v
        ((f.after steps).step (.visit i v)) outcome := by
  have haudit := isAudited_after hsteps (isAudited_of_isEmpty hempty)
  rw [List.nil_append] at haudit
  refine ⟨events_of_isAudited haudit, ?_, ?_⟩
  · intro m t r ht hr
    obtain ⟨s, hkey, hruns, rfl⟩ := told_of_isAudited haudit m t r ht hr
    exact ⟨s, hkey, hruns, summarises_record _ hruns⟩
  · intro i v hreport hmember hup
    have hanswered := reportAnswered_step haudit hreport hmember hup
    rw [site_after hsteps] at hanswered
    exact hanswered

/-- A session that was reported on without a connect, and is flushed on another front end. -/
theorem records_summarise_flushed :
    let id : SessionId := ⟨"a1", by decide, by decide, by decide⟩
    let steps : List Step :=
      [.visit 0 ⟨id, .disconnect 70 (some 4), 9, "x"⟩, .expire 1 id.fragmentKey 10 []]
    pair.store.table.IsEmpty ∧ (∀ s ∈ steps, s.isAccounting = true) ∧
      (pair.turns steps).filterMap Turn.record? =
        [⟨"a1", "x", 9, 9, 0, 70, true, Dict.empty⟩] ∧
      ∀ m t r, (pair.turns steps)[m]? = some t → t.record? = some r →
        ∃ s : Span, s.key = t.key ∧ s.Runs ((pair.turns steps).take m) ∧ Summarises r s := by
  intro id steps
  have hempty : pair.store.table.IsEmpty := Table.isEmpty_memory
  have hsteps : ∀ s ∈ steps, s.isAccounting = true := by decide
  refine ⟨hempty, hsteps, ?_, (records_summarise hempty hsteps).2.1⟩
  decide +kernel

end Fleet

end Gatehouse
