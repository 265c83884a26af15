import Gatehouse.Proofs.Apart.Desk
import Gatehouse.Proofs.Deadline
import Gatehouse.Proofs.Ledger.Summary

/-!
# Reports that are delivered again

A fragment remembers the greatest number that was folded into it, so no number counts twice in it.
What it remembers goes with it: a report that comes again after its fragment was finished is counted
once more, in the next fragment of its session.
-/

namespace Gatehouse

namespace Span

/-- How often a span counts the report with a number. -/
def counts (s : Span) (n : UInt64) : Nat := (s.visits.map fun v => v.visit.seq).count (some n)

/-- Whether a span counts no number twice. -/
def CountsOnce (s : Span) : Prop := ∀ n, s.counts n ≤ 1

variable {w : Windows} {s : Span} {v : VisitOf}

theorem countsOnce_new (n : Nat) (v : VisitOf) : CountsOnce ⟨n, v, []⟩ := fun _ =>
  List.count_le_length

theorem counts_add (s : Span) (v : VisitOf) (n : UInt64) :
    (s.add v).counts n = s.counts n + if v.visit.seq = some n then 1 else 0 := by
  rw [counts, visits_add, List.map_append, List.count_append]
  simp only [List.map_cons, List.map_nil, List.count_singleton, beq_iff_eq]
  rfl

/-- A number that a span counts is reached by the fragment of the span. -/
theorem reaches_of_counts (w : Windows) {n : UInt64} (h : 0 < s.counts n) :
    Reaches (s.fragment w).lastSeq n := by
  obtain ⟨v, hv, hseq⟩ := List.mem_map.1 (List.count_pos_iff.1 h)
  exact ((sumsUp_fragment w s).seq n).2 ⟨v, hv, n, hseq, UInt64.le_refl n⟩

/-- A span that counts a number turns it away. -/
theorem accepts_of_counts (w : Windows) {n : UInt64} (h : 0 < s.counts n) :
    (s.fragment w).accepts (some n) = false :=
  accepts_eq_false_iff.2 ⟨n, rfl, reaches_of_counts w h⟩

/-- A span that counts no number twice goes on so with a report that its fragment accepts. -/
theorem countsOnce_add (h : s.CountsOnce) (haccepts : (s.fragment w).accepts v.visit.seq = true) :
    (s.add v).CountsOnce := by
  intro n
  rw [counts_add]
  by_cases hseq : v.visit.seq = some n
  · have hnew : s.counts n = 0 := by
      apply Nat.eq_zero_of_not_pos
      intro hpos
      rw [hseq, accepts_of_counts w hpos] at haccepts
      cases haccepts
    simp only [hnew, if_pos hseq, Nat.zero_add, Nat.le_refl]
  · rw [if_neg hseq]
    exact h n

end Span

namespace Turn

/-- The visits under a key that a log folds into fragments, in order. -/
def foldedUnder (key : String) (log : List Turn) : List VisitOf :=
  (log.filterMap folded?).filter fun v => v.key == key

theorem foldedUnder_concat (key : String) (log : List Turn) (t : Turn) :
    foldedUnder key (log ++ [t]) =
      foldedUnder key log ++ t.folded?.toList.filter fun v => v.key == key := by
  unfold foldedUnder
  rw [List.filterMap_append, List.filter_append]
  cases ht : t.folded? with
  | none => simp [ht]
  | some v => simp [ht]

end Turn

namespace Ledger

/-- The closed spans of a session in the order of their closing. -/
def closedOf (l : Ledger) (id : SessionId) : List Span :=
  l.closed.filter fun s => s.key == id.fragmentKey

/-- The spans of a session: those that were closed, and then the current one. -/
def spansOf (l : Ledger) (id : SessionId) : List Span :=
  l.closedOf id ++ (l.current.get? id.fragmentKey).toList

/-- The spans of a session share the visits of a log fairly if each visit that was folded in is in
one of them, in order, and none of them counts a number twice. -/
structure Shares (id : SessionId) (log : List Turn) (l : Ledger) : Prop where
  visits : (l.spansOf id).flatMap Span.visits = Turn.foldedUnder id.fragmentKey log
  once : ∀ s ∈ l.spansOf id, s.CountsOnce

variable {id : SessionId} {log : List Turn} {l : Ledger} {t : Turn} {v : VisitOf} {key : String}
variable {s : Span}

/-- A span that begins where none is current is the last one of its session. -/
theorem spansOf_begin (hnone : l.current.get? v.key = none) :
    (l.begin v).turnOver.spansOf id =
      l.spansOf id ++ if v.key = id.fragmentKey then [⟨l.next, v, []⟩] else [] := by
  unfold spansOf closedOf
  simp only [turnOver, begin, Dict.get?_insert]
  by_cases hkey : v.key = id.fragmentKey
  · rw [if_pos hkey.symm, if_pos hkey, ← hkey, hnone]
    simp only [Option.toList_some, Option.toList_none, List.append_nil]
  · rw [if_neg (Ne.symm hkey), if_neg hkey, List.append_nil]

/-- Closing the current span of a session leaves its spans as they were. -/
theorem spansOf_close (haccounts : l.Accounts log) (hs : l.current.get? key = some s) :
    (l.close key).spansOf id = l.spansOf id := by
  rw [Accounts.close_eq hs]
  unfold spansOf closedOf
  simp only [Dict.get?_erase, List.filter_append]
  have hkeyed : s.key = key := haccounts.keyed key s hs
  by_cases hkey : id.fragmentKey = key
  · rw [if_pos hkey, hkey, hs]
    simp [hkeyed]
  · have hother : (s.key == id.fragmentKey) = false := by
      rw [hkeyed]
      exact beq_false_of_ne (Ne.symm hkey)
    rw [if_neg hkey]
    simp [hother]

theorem spansOf_extend (hs : l.current.get? v.key = some s) :
    (l.extend v).turnOver.spansOf id =
      if v.key = id.fragmentKey then l.closedOf id ++ [s.add v] else l.spansOf id := by
  rw [Accounts.extend_eq hs]
  unfold spansOf closedOf
  simp only [turnOver, Dict.get?_insert]
  by_cases hkey : v.key = id.fragmentKey
  · rw [if_pos hkey.symm, if_pos hkey]
    rfl
  · rw [if_neg (Ne.symm hkey), if_neg hkey]

namespace Shares

theorem nil (id : SessionId) : Shares id [] {} where
  visits := rfl
  once := by
    intro s hs
    cases hs

/-- A turn that folds nothing in and leaves the spans as they were goes by. -/
theorem skip {l' : Ledger} (h : l.Shares id log) (ht : t.folded? = none)
    (hspans : l'.spansOf id = l.spansOf id) : l'.Shares id (log ++ [t]) where
  visits := by
    rw [hspans, h.visits, Turn.foldedUnder_concat, ht]
    exact (List.append_nil _).symm
  once := by
    rw [hspans]
    exact h.once

theorem begin (h : l.Shares id log) (ht : t.folded? = some v)
    (hnone : l.current.get? v.key = none) : (l.begin v).turnOver.Shares id (log ++ [t]) := by
  by_cases hkey : v.key = id.fragmentKey
  · refine ⟨?_, ?_⟩
    · rw [spansOf_begin hnone, if_pos hkey, List.flatMap_append, h.visits, Turn.foldedUnder_concat,
        ht]
      simp [hkey, Span.visits]
    · intro s hs
      rw [spansOf_begin hnone, if_pos hkey] at hs
      rcases List.mem_append.1 hs with hs | hs
      · exact h.once s hs
      · rw [List.mem_singleton.1 hs]
        exact Span.countsOnce_new l.next v
  · have hsame : (l.begin v).turnOver.spansOf id = l.spansOf id := by
      rw [spansOf_begin hnone, if_neg hkey, List.append_nil]
    refine ⟨?_, ?_⟩
    · rw [hsame, h.visits, Turn.foldedUnder_concat, ht]
      simp [hkey]
    · rw [hsame]
      exact h.once

theorem extend {w : Windows} (h : l.Shares id log) (ht : t.folded? = some v)
    (hs : l.current.get? v.key = some s) (haccepts : (s.fragment w).accepts v.visit.seq = true) :
    (l.extend v).turnOver.Shares id (log ++ [t]) := by
  by_cases hkey : v.key = id.fragmentKey
  · have hspans : l.spansOf id = l.closedOf id ++ [s] := by
      rw [spansOf, ← hkey, hs]
      rfl
    have hnext : (l.extend v).turnOver.spansOf id = l.closedOf id ++ [s.add v] := by
      rw [spansOf_extend hs, if_pos hkey]
    refine ⟨?_, ?_⟩
    · have hvisits := h.visits
      rw [hspans, List.flatMap_append] at hvisits
      rw [hnext, Turn.foldedUnder_concat, ht, List.flatMap_append, ← hvisits]
      simp [hkey, Span.visits_add]
    · intro s' hs'
      rw [hnext] at hs'
      rcases List.mem_append.1 hs' with hs' | hs'
      · exact h.once s' (by rw [hspans]; exact List.mem_append_left _ hs')
      · rw [List.mem_singleton.1 hs']
        have hold : s.CountsOnce := h.once s (by
          rw [hspans]
          exact List.mem_append_right _ (List.mem_singleton.2 rfl))
        exact Span.countsOnce_add hold haccepts
  · have hsame : (l.extend v).turnOver.spansOf id = l.spansOf id := by
      rw [spansOf_extend hs, if_neg hkey]
    refine ⟨?_, ?_⟩
    · rw [hsame, h.visits, Turn.foldedUnder_concat, ht]
      simp [hkey]
    · rw [hsame]
      exact h.once

end Shares

end Ledger

namespace Balanced

variable {w : Windows} {earlier : List Event} {log : List Turn} {l : Ledger} {d d' : Desk}
variable {v : VisitOf} {a : VisitAnswer} {key : String} {now : UInt64} {r : Option SessionRecord}
variable {id : SessionId}

/-- A visit leaves the visits of a session fairly shared. -/
theorem shares_visit (h : Balanced w earlier log l d) (hshares : l.Shares id log)
    (hvisit : Desk.Visits w v d a d') :
    (l.note (.visit v a)).Shares id (log ++ [.visit v a]) := by
  cases hvisit with
  | failed e hdown => exact hshares.skip rfl rfl
  | opened hconnect hnone => exact hshares.begin rfl (h.current_of_no_fragment? hnone)
  | reopened hconnect hopen =>
      obtain ⟨s, hs, -⟩ := h.current_of_fragment? hopen
      have hclosed : (l.close v.key).Shares id log := by
        have hsame : (l.close v.key).spansOf id = l.spansOf id := Ledger.spansOf_close h.accounts hs
        refine ⟨?_, ?_⟩
        · rw [hsame]
          exact hshares.visits
        · rw [hsame]
          exact hshares.once
      apply hclosed.begin rfl
      rw [Ledger.Accounts.close_eq hs]
      exact Dict.get?_erase_self l.current v.key
  | openedPartial hreport hnone => exact hshares.begin rfl (h.current_of_no_fragment? hnone)
  | applied hreport hopen haccepts =>
      obtain ⟨s, hs, rfl⟩ := h.current_of_fragment? hopen
      exact hshares.extend rfl hs haccepts
  | duplicate hreport hopen haccepts => exact hshares.skip rfl rfl

/-- A wake-up leaves the visits of a session fairly shared. -/
theorem shares_wake (h : Balanced w earlier log l d) (hshares : l.Shares id log)
    (hwake : Desk.Wakes key now d r d') :
    (l.note (.wake key (.ok r))).Shares id (log ++ [.wake key (.ok r)]) := by
  cases hwake with
  | flushed hfragment hopen hdue =>
      obtain ⟨s, hs, -⟩ := h.current_of_fragment? hopen
      exact hshares.skip rfl (Ledger.spansOf_close h.accounts hs)
  | ignored hfragment hregion => exact hshares.skip rfl rfl
  | absent hlook => exact hshares.skip rfl rfl
  | unreadable hfragment hlook hdecode => exact hshares.skip rfl rfl
  | early hfragment hopen hdue => exact hshares.skip rfl rfl
  | stale hregion hlook hleft => exact hshares.skip rfl rfl
  | fresh hregion hlook hleft => exact hshares.skip rfl rfl

end Balanced

namespace Fleet

variable {f : Fleet} {s : Step} {steps : List Step} {earlier : List Event} {log : List Turn}
variable {l : Ledger} {id : SessionId}

theorem shares_step_visit (h : f.IsAudited earlier log l) (hshares : l.Shares id log) (i : Nat)
    (v : VisitOf) :
    let turns := (Step.visit i v).turns (f.step (.visit i v)).1
    (turns.foldl Ledger.note l).Shares id (log ++ turns) := by
  cases hd : f.desk? i with
  | none =>
      rw [step, actDesk_of_none hd]
      dsimp only [Step.turns, List.foldl_nil]
      rw [List.append_nil]
      exact hshares
  | some d =>
      obtain ⟨m, -, rfl⟩ := desk?_eq_some hd
      rw [step_visit_of_desk? hd]
      exact (h m.timer).toBalanced.shares_visit hshares (Desk.visits_visit _ v _)

theorem shares_step_wake (h : f.IsAudited earlier log l) (hshares : l.Shares id log) (i : Nat)
    (key : String) (now : UInt64) :
    let turns := (Step.expire i key now []).turns (f.step (.expire i key now [])).1
    (turns.foldl Ledger.note l).Shares id (log ++ turns) := by
  cases hd : f.desk? i with
  | none =>
      rw [step, actDesk_of_none hd]
      dsimp only [Step.turns, List.foldl_nil]
      rw [List.append_nil]
      exact hshares
  | some d =>
      obtain ⟨m, -, rfl⟩ := desk?_eq_some hd
      rw [step, actDesk_of_desk? hd, Desk.expireAfter_nil]
      dsimp only [Step.turns, List.zipWith_nil_left, List.nil_append, List.foldl_cons,
        List.foldl_nil]
      obtain ⟨r, d', hexpiry, hwake⟩ | ⟨e, hexpiry, -⟩ :=
        Desk.tryExpiry_cases key now (f.deskWith m.timer)
      · rw [hexpiry]
        exact (h m.timer).toBalanced.shares_wake hshares hwake
      · rw [hexpiry]
        exact hshares.skip rfl rfl

/-- Visits that land just before a wake-up looks at the store are shared like those that come in
steps before it. -/
theorem shares_landing (h : f.IsAudited earlier log l) (hshares : l.Shares id log) (i : Nat)
    (key : String) (now : UInt64) (before : List VisitOf) :
    let turns := f.turns (before.map (Step.visit i) ++ [.expire i key now []])
    (turns.foldl Ledger.note l).Shares id (log ++ turns) := by
  induction before generalizing f log l with
  | nil =>
      have hwake := shares_step_wake h hshares i key now
      have hlast (g : Fleet) : g.turns [] = [] := rfl
      rw [List.map_nil, List.nil_append, turns_cons, hlast, List.append_nil]
      exact hwake
  | cons v rest ih =>
      have hvisit := shares_step_visit h hshares i v
      have hrest := ih (isAudited_step (s := .visit i v) rfl h) hvisit
      rw [List.map_cons, List.cons_append, turns_cons]
      dsimp only
      rw [List.foldl_append, ← List.append_assoc]
      exact hrest

/-- Visits do not land before a wake-up whose key is of no kind that is looked up. -/
theorem turns_expire_of_unknown {i : Nat} {key : String} {now : UInt64} (before : List VisitOf)
    (hkey : ¬ (Desk.isFragmentKey key || Desk.isRegionKey key) = true) :
    (Step.expire i key now before).turns (f.step (.expire i key now before)).1 =
      (Step.expire i key now []).turns (f.step (.expire i key now [])).1 := by
  have hstep : f.step (.expire i key now before) = f.step (.expire i key now []) := by
    simp only [step, Desk.expireAfter_eq, hkey, Bool.false_eq_true, ↓reduceIte]
  rw [hstep]
  cases hd : f.desk? i with
  | none =>
      rw [step, actDesk_of_none hd]
      rfl
  | some d =>
      rw [step, actDesk_of_desk? hd, Desk.expireAfter_nil]
      simp only [Step.turns, hkey, Bool.false_eq_true, ↓reduceIte, Option.getD_none,
        List.zipWith_nil_right]

/-- A step of session accounting leaves the visits of a session fairly shared. -/
theorem shares_step (hs : s.isAccounting = true) (h : f.IsAudited earlier log l)
    (hshares : l.Shares id log) :
    ((s.turns (f.step s).1).foldl Ledger.note l).Shares id (log ++ s.turns (f.step s).1) := by
  have hidle : l.Shares id (log ++ []) := by
    rw [List.append_nil]
    exact hshares
  cases s with
  | visit i v => exact shares_step_visit h hshares i v
  | expire i key now before =>
      by_cases hkey : (Desk.isFragmentKey key || Desk.isRegionKey key) = true
      · rw [(step_expire_landing hkey before).2]
        exact shares_landing h hshares i key now before
      · rw [turns_expire_of_unknown before hkey]
        exact shares_step_wake h hshares i key now
  | recover i now => exact hidle
  | outage calls reason => exact hidle
  | _ => cases hs

theorem shares_after (hsteps : ∀ s ∈ steps, s.isAccounting = true)
    (h : f.IsAudited earlier log l) (hshares : l.Shares id log) :
    ((f.turns steps).foldl Ledger.note l).Shares id (log ++ f.turns steps) := by
  induction steps generalizing f log l with
  | nil =>
      rw [show f.turns [] = [] from rfl, List.append_nil]
      exact hshares
  | cons s rest ih =>
      have hs := hsteps s List.mem_cons_self
      have hrest := ih (fun s' hs' => hsteps s' (List.mem_cons_of_mem s hs')) (isAudited_step hs h)
        (shares_step hs h hshares)
      rw [turns_cons, ← List.append_assoc, List.foldl_append]
      exact hrest

end Fleet

namespace Ledger

variable {id : SessionId} {l : Ledger}

/-- A number counts at most as often in some spans as there are spans that count none twice. -/
theorem count_flatMap_visits_le {spans : List Span} (h : ∀ s ∈ spans, s.CountsOnce) (n : UInt64) :
    ((spans.flatMap Span.visits).map fun v => v.visit.seq).count (some n) ≤ spans.length := by
  induction spans with
  | nil => exact Nat.le_refl 0
  | cons s rest ih =>
      rw [List.flatMap_cons, List.map_append, List.count_append, List.length_cons]
      have hfirst : s.counts n ≤ 1 := h s List.mem_cons_self n
      have hrest := ih fun s' hs' => h s' (List.mem_cons_of_mem s hs')
      unfold Span.counts at hfirst
      omega

theorem length_spansOf_le (l : Ledger) (id : SessionId) :
    (l.spansOf id).length ≤ (l.closedOf id).length + 1 := by
  rw [spansOf, List.length_append]
  apply Nat.add_le_add_left
  cases l.current.get? id.fragmentKey with
  | none => exact Nat.zero_le 1
  | some s => exact Nat.le_refl 1

/-- The records of a session are those of its spans. -/
theorem recordsOf_closed (w : Windows) (id : SessionId) (closed : List Span) :
    id.recordsOf (closed.map fun s => .session (s.record w)) =
      (closed.filter fun s => s.key == id.fragmentKey).map (Span.record w) := by
  have hsame (s : Span) : ((s.record w).session == id.text) = (s.key == id.fragmentKey) := by
    have hsession : (s.record w).session = s.first.id.text := (Span.sumsUp_fragment w s).session
    rw [hsession, Bool.eq_iff_iff, beq_iff_eq, beq_iff_eq]
    constructor
    · intro htext
      exact congrArg (SessionId.fragmentStem ++ ·) htext
    · intro hkey
      exact congrArg SessionId.text (SessionId.fragmentKey_inj hkey)
  induction closed with
  | nil => rfl
  | cons s rest ih =>
      rw [SessionId.recordsOf] at ih ⊢
      simp only [List.map_cons, List.filterMap_cons, Event.record?, List.filter_cons, hsame, ih]
      split
      · rfl
      · rfl

end Ledger

/-- In a fleet after a run with a log, the reports of a session count once a fragment: its records,
and the fragment that is stored of it, sum up spans that are made up, in order, of the visits that
the log folded in, and none of them counts a number twice. A report whose number the stored fragment
counts is a duplicate and changes nothing; so a number only counts once more after the fragment that
counted it was finished. -/
structure CountsOnceAFragment (w : Windows) (earlier : List Event) (log : List Turn)
    (id : SessionId) (f : Fleet) : Prop where
  recorded : ∃ new, f.events = earlier ++ new ∧
    id.recordsOf new = ((Ledger.ofLog log).closedOf id).map (Span.record w)
  stored : f.store.table.get? id.fragmentKey =
    ((Ledger.ofLog log).current.get? id.fragmentKey).map fun s => (s.fragment w).encode
  bytes : ∀ s ∈ (Ledger.ofLog log).spansOf id,
    (s.record w).bytes.toNat = min (UInt64.size - 1) (VisitOf.total s.visits)
  visits : ((Ledger.ofLog log).spansOf id).flatMap Span.visits =
    Turn.foldedUnder id.fragmentKey log
  once : ∀ s ∈ (Ledger.ofLog log).spansOf id, ∀ n, s.counts n ≤ 1
  overall : ∀ n, ((Turn.foldedUnder id.fragmentKey log).map fun v => v.visit.seq).count (some n) ≤
    ((Ledger.ofLog log).closedOf id).length + 1
  redelivered : ∀ s i v n, (Ledger.ofLog log).current.get? id.fragmentKey = some s →
    0 < s.counts n → v.id = id → v.visit.isReport = true → v.visit.seq = some n →
    i < f.members.length → .update ∉ f.store.down →
    f.step (.visit i v) = (.visited (.reported .duplicate), f)

namespace Fleet

variable {f : Fleet} {steps : List Step}

/-- A report whose number is counted in the stored fragment of its session changes nothing. -/
theorem step_visit_of_counted {w : Windows} {earlier : List Event} {log : List Turn} {l : Ledger}
    {s : Span} {i : Nat} {v : VisitOf} {n : UInt64}
    (h : Balanced w earlier log l (f.deskWith ⟨0, Dict.empty, [], true⟩))
    (hs : l.current.get? v.key = some s) (hcounts : 0 < s.counts n)
    (hreport : v.visit.isReport = true) (hseq : v.visit.seq = some n)
    (hmember : i < f.members.length) (hup : .update ∉ f.store.down) :
    f.step (.visit i v) = (.visited (.reported .duplicate), f) := by
  have hd : f.desk? i = some (f.deskWith f.members[i].timer) :=
    desk?_of_member (List.getElem?_eq_getElem hmember)
  have hopen : (f.deskWith f.members[i].timer).fragment? v.key = some (s.fragment w) := by
    have hfragment := h.fragment?_eq v.key
    rw [hs] at hfragment
    exact hfragment
  have haccepts : (s.fragment w).accepts v.visit.seq = false := by
    rw [hseq]
    exact Span.accepts_of_counts w hcounts
  rw [step_visit_of_desk? hd, Desk.visit_eq hup (.duplicate hreport hopen haccepts)]
  exact congrArg _ (putDesk_desk? hd)

/-- In every run of session accounting over a store that starts empty, however often and at
whatever moment reports are delivered again, each number counts once a fragment. -/
theorem numbers_count_once_a_fragment (hempty : f.store.table.IsEmpty)
    (hsteps : ∀ s ∈ steps, s.isAccounting = true) (id : SessionId) :
    CountsOnceAFragment f.site.windows f.events (f.turns steps) id (f.after steps) := by
  have hstart : f.IsAudited f.events [] {} := isAudited_of_isEmpty hempty
  have haudit := isAudited_after hsteps hstart
  have hshares := shares_after hsteps hstart (Ledger.Shares.nil id)
  rw [List.nil_append] at haudit hshares
  have hsite : (f.after steps).site = f.site := site_after hsteps
  have hbalanced := (haudit ⟨0, Dict.empty, [], true⟩).toBalanced
  rw [hsite] at hbalanced
  refine ⟨⟨_, hbalanced.emitted, Ledger.recordsOf_closed _ id _⟩, hbalanced.stored _, ?_,
    hshares.visits, hshares.once, ?_, ?_⟩
  · intro s hs
    exact (Span.sumsUp_fragment f.site.windows s).bytes
  · intro n
    rw [← hshares.visits]
    exact Nat.le_trans (Ledger.count_flatMap_visits_le hshares.once n)
      (Ledger.length_spansOf_le _ id)
  · intro s i v n hs hcounts hid hreport hseq hmember hup
    subst hid
    exact step_visit_of_counted hbalanced hs hcounts hreport hseq hmember hup

/-- A session whose report comes once more before and once more after its fragment is flushed. -/
theorem numbers_count_once_a_fragment_flushed :
    let id : SessionId := ⟨"a1", by decide, by decide, by decide⟩
    let report (now : UInt64) (tag : String) : Step := .visit 0 ⟨id, .status 50 (some 1), now, tag⟩
    let steps : List Step :=
      [.visit 0 ⟨id, .connect Dict.empty, 0, "x"⟩, report 10 "y", report 11 "y",
        .expire 1 id.fragmentKey 3000 [], report 3001 "z"]
    pair.store.table.IsEmpty ∧ (∀ s ∈ steps, s.isAccounting = true) ∧
      CountsOnceAFragment pair.site.windows pair.events (pair.turns steps) id
        (pair.after steps) := by
  intro id report steps
  have hempty : pair.store.table.IsEmpty := Table.isEmpty_memory
  have hsteps : ∀ s ∈ steps, s.isAccounting = true := by decide
  exact ⟨hempty, hsteps, numbers_count_once_a_fragment hempty hsteps id⟩

/-- A session that connects once and whose only report is delivered twice, the second time after
its fragment was flushed: the fifty bytes are in its record and in its stored fragment. -/
theorem number_counts_again_after_flush :
    let id : SessionId := ⟨"a1", by decide, by decide, by decide⟩
    let report (now : UInt64) (tag : String) : Step := .visit 0 ⟨id, .status 50 (some 1), now, tag⟩
    let steps : List Step :=
      [.visit 0 ⟨id, .connect Dict.empty, 0, "x"⟩, report 10 "y",
        .expire 0 id.fragmentKey 3000 [], report 3001 "z"]
    pair.store.table.IsEmpty ∧ (∀ s ∈ steps, s.isAccounting = true) ∧
      id.recordsOf (pair.after steps).events =
        [⟨"a1", "x", 0, 10, 10, 50, false, Dict.empty⟩] ∧
      ((pair.after steps).store.table.get? id.fragmentKey).bind Fragment.decode? =
        some ⟨"a1", "z", 3001, 3001, 50, true, some 1, Dict.empty, 3901⟩ ∧
      ¬ ∀ n, ((Turn.foldedUnder id.fragmentKey (pair.turns steps)).map
        fun v => v.visit.seq).count (some n) ≤ 1 := by
  intro id report steps
  have hempty : pair.store.table.IsEmpty := Table.isEmpty_memory
  have hends : id.recordsOf (pair.after steps).events =
        [⟨"a1", "x", 0, 10, 10, 50, false, Dict.empty⟩] ∧
      ((pair.after steps).store.table.get? id.fragmentKey).bind Fragment.decode? =
        some ⟨"a1", "z", 3001, 3001, 50, true, some 1, Dict.empty, 3901⟩ ∧
      ((Turn.foldedUnder id.fragmentKey (pair.turns steps)).map
        fun v => v.visit.seq).count (some 1) = 2 := by
    decide +kernel
  obtain ⟨hrecords, hstored, htwice⟩ := hends
  refine ⟨hempty, by decide, hrecords, hstored, ?_⟩
  intro honce
  have hone := honce 1
  rw [htwice] at hone
  exact absurd hone (by decide)

end Fleet

end Gatehouse
