import Gatehouse.Dict.Lemmas
import Gatehouse.Proofs.Session.Key
import Gatehouse.Proofs.Visit

/-!
# A ledger of spans

A log lists visits and wake-ups with their answers. A ledger is read off a log alone: each answer
says whether a span begins, goes on or closes. Every opening in the log is then either the span that
is current under its key or one closed span, and never both.
-/

namespace Gatehouse

/-- A visit or a wake-up together with its answer. -/
inductive Turn
  | visit (v : VisitOf) (a : VisitAnswer)
  | wake (key : String) (r : Except Unavailable (Option SessionRecord))

namespace Turn

/-- The record that a turn hands back. -/
def record? : Turn → Option SessionRecord
  | .visit _ (.opened flushed) => flushed
  | .wake _ (.ok flushed) => flushed
  | _ => none

/-- The events that a turn tells of. -/
def emitted (t : Turn) : List Event := t.record?.toList.map .session

/-- The visit that opens a fragment in a turn. -/
def opening? : Turn → Option VisitOf
  | .visit v (.opened _) => some v
  | .visit v (.reported .openedPartial) => some v
  | _ => none

/-- The report that is folded into an open fragment in a turn. -/
def applied? : Turn → Option VisitOf
  | .visit v (.reported .applied) => some v
  | _ => none

/-- The key that a turn is about. -/
def key : Turn → String
  | .visit v _ => v.key
  | .wake key _ => key

/-- The reports under a key that are folded into an open fragment in the turns of a log. -/
def applied (key : String) (log : List Turn) : List VisitOf :=
  (log.filterMap applied?).filter fun v => v.key == key

/-- The visit that opens a fragment in turn number `n` of a log. -/
def openingAt (log : List Turn) (n : Nat) : Option VisitOf := log[n]?.bind opening?

variable {log : List Turn} {t : Turn} {n : Nat} {v : VisitOf}

theorem lt_of_openingAt (h : openingAt log n = some v) : n < log.length := by
  obtain ⟨t, ht, -⟩ := Option.bind_eq_some_iff.1 h
  exact (List.getElem?_eq_some_iff.1 ht).1

theorem openingAt_append (h : openingAt log n = some v) : openingAt (log ++ [t]) n = some v := by
  rw [openingAt, List.getElem?_append_left (lt_of_openingAt h)]
  exact h

theorem openingAt_length : openingAt (log ++ [t]) log.length = t.opening? := by
  rw [openingAt, List.getElem?_concat_length]
  rfl

/-- A turn of a longer log is one of the shorter log or the last one. -/
theorem getElem?_concat_cases {u : Turn} (h : (log ++ [t])[n]? = some u) :
    (n < log.length ∧ log[n]? = some u) ∨ (n = log.length ∧ u = t) := by
  have hlt : n < (log ++ [t]).length := (List.getElem?_eq_some_iff.1 h).1
  rw [List.length_append, List.length_singleton] at hlt
  rcases Nat.lt_succ_iff_lt_or_eq.1 hlt with hn | rfl
  · rw [List.getElem?_append_left hn] at h
    exact .inl ⟨hn, h⟩
  · rw [List.getElem?_concat_length] at h
    exact .inr ⟨rfl, (Option.some.inj h).symm⟩

/-- An opening in a longer log is one of the shorter log or the last turn. -/
theorem openingAt_append_cases (h : openingAt (log ++ [t]) n = some v) :
    openingAt log n = some v ∨ n = log.length ∧ t.opening? = some v := by
  obtain ⟨u, hu, hopening⟩ := Option.bind_eq_some_iff.1 h
  rcases getElem?_concat_cases hu with ⟨-, hold⟩ | ⟨hn, rfl⟩
  · exact .inl (Option.bind_eq_some_iff.2 ⟨u, hold, hopening⟩)
  · exact .inr ⟨hn, hopening⟩

theorem applied_concat {key : String} :
    applied key (log ++ [t]) =
      applied key log ++ t.applied?.toList.filter (fun v => v.key == key) := by
  unfold applied
  rw [List.filterMap_append, List.filter_append]
  cases ht : t.applied? with
  | none => simp [ht]
  | some v => simp [ht]

end Turn

/-- The visits that make up one fragment, the first with the number of the turn that opened it. -/
structure Span where
  number : Nat
  first : VisitOf
  later : List VisitOf := []

namespace Span

/-- The visits of a span in order. -/
def visits (s : Span) : List VisitOf := s.first :: s.later

/-- The key of the fragment of a span. -/
def key (s : Span) : String := s.first.key

/-- The fragment that the visits of a span make. -/
def fragment (w : Windows) (s : Span) : Fragment :=
  s.later.foldl (VisitOf.fold w) (s.first.opening w)

/-- The record of a span. -/
def record (w : Windows) (s : Span) : SessionRecord := (s.fragment w).finish

/-- A span that goes on with a visit. -/
def add (s : Span) (v : VisitOf) : Span := { s with later := s.later ++ [v] }

theorem fragment_add (w : Windows) (s : Span) (v : VisitOf) :
    (s.add v).fragment w = v.fold w (s.fragment w) := by
  rw [fragment, add, List.foldl_append]
  rfl

/-- A span runs at the end of a log if its first visit opened a fragment in the turn with its
number, no later turn opened one under its key, and its further visits are the reports that were
folded in since then. -/
structure Runs (s : Span) (log : List Turn) : Prop where
  first : Turn.openingAt log s.number = some s.first
  alone : ∀ k u, s.number < k → Turn.openingAt log k = some u → u.key ≠ s.key
  later : s.later = Turn.applied s.key (log.drop (s.number + 1))
  reports : ∀ u ∈ s.later, u.visit.isReport = true

variable {s : Span} {log : List Turn} {t : Turn} {v : VisitOf}

theorem Runs.number_lt (h : s.Runs log) : s.number < log.length := Turn.lt_of_openingAt h.first

/-- The visits of a span have its key. -/
theorem Runs.key_eq (h : s.Runs log) {u : VisitOf} (hu : u ∈ s.visits) : u.key = s.key := by
  rcases List.mem_cons.1 hu with rfl | hu
  · rfl
  · rw [h.later] at hu
    exact beq_iff_eq.1 (List.mem_filter.1 hu).2

theorem Runs.drop_concat (h : s.Runs log) :
    (log ++ [t]).drop (s.number + 1) = log.drop (s.number + 1) ++ [t] :=
  List.drop_append_of_le_length h.number_lt

/-- A turn that neither opens a fragment under the key of a span nor is folded into one goes by. -/
theorem Runs.concat (h : s.Runs log) (hopening : ∀ u, t.opening? = some u → u.key ≠ s.key)
    (happlied : t.applied? = none) : s.Runs (log ++ [t]) where
  first := Turn.openingAt_append h.first
  alone := by
    intro k u hk hu
    rcases Turn.openingAt_append_cases hu with hold | ⟨-, hnew⟩
    · exact h.alone k u hk hold
    · exact hopening u hnew
  later := by
    rw [h.drop_concat, Turn.applied_concat, happlied, ← h.later]
    exact (List.append_nil s.later).symm
  reports := h.reports

/-- A report that is folded in under another key goes by. -/
theorem Runs.concat_applied_of_ne (h : s.Runs log) (hkey : v.key ≠ s.key) :
    s.Runs (log ++ [.visit v (.reported .applied)]) where
  first := Turn.openingAt_append h.first
  alone := by
    intro k u hk hu
    rcases Turn.openingAt_append_cases hu with hold | ⟨-, hnew⟩
    · exact h.alone k u hk hold
    · cases hnew
  later := by
    have hother : (v.key == s.key) = false := beq_false_of_ne hkey
    rw [h.drop_concat, Turn.applied_concat, ← h.later]
    simp only [Turn.applied?, Option.toList_some, List.filter_cons, hother, Bool.false_eq_true,
      ↓reduceIte, List.filter_nil, List.append_nil]
  reports := h.reports

/-- A report that is folded in under the key of a span is its next visit. -/
theorem Runs.add (h : s.Runs log) (hkey : v.key = s.key) (hreport : v.visit.isReport = true) :
    (s.add v).Runs (log ++ [.visit v (.reported .applied)]) where
  first := Turn.openingAt_append h.first
  alone := by
    intro k u hk hu
    rcases Turn.openingAt_append_cases hu with hold | ⟨-, hnew⟩
    · exact h.alone k u hk hold
    · cases hnew
  later := by
    have hsame : (v.key == s.key) = true := beq_iff_eq.2 hkey
    change s.later ++ [v] = Turn.applied s.key ((log ++ [_]).drop (s.number + 1))
    rw [h.drop_concat, Turn.applied_concat, ← h.later]
    simp only [Turn.applied?, Option.toList_some, List.filter_cons, hsame, ↓reduceIte,
      List.filter_nil]
  reports := by
    intro u hu
    rcases List.mem_append.1 hu with hu | hu
    · exact h.reports u hu
    · rw [List.mem_singleton.1 hu]
      exact hreport

/-- A span that begins with the last turn runs. -/
theorem runs_new (ht : t.opening? = some v) : Runs ⟨log.length, v, []⟩ (log ++ [t]) where
  first := Turn.openingAt_length.trans ht
  alone := by
    intro k u hk hu
    have hlt := Turn.lt_of_openingAt hu
    rw [List.length_append, List.length_singleton] at hlt
    exact absurd hk (Nat.not_lt.2 (Nat.le_of_lt_succ hlt))
  later := by
    have hall : (log ++ [t]).drop (log.length + 1) = [] :=
      List.drop_eq_nil_of_le (Nat.le_of_eq List.length_append)
    change [] = Turn.applied _ ((log ++ [t]).drop (log.length + 1))
    rw [hall]
    rfl
  reports := by
    intro u hu
    cases hu

end Span

/-- The spans of a log: the current one of each key, the closed ones in the order of their closing,
and the number of the next turn. -/
structure Ledger where
  next : Nat := 0
  current : Dict Span := Dict.empty
  closed : List Span := []

namespace Ledger

/-- A new span begins under the key of a visit. -/
def begin (l : Ledger) (v : VisitOf) : Ledger :=
  { l with current := l.current.insert v.key ⟨l.next, v, []⟩ }

/-- The current span under the key of a visit goes on. -/
def extend (l : Ledger) (v : VisitOf) : Ledger :=
  match l.current.get? v.key with
  | some s => { l with current := l.current.insert v.key (s.add v) }
  | none => l

/-- The current span under a key closes. -/
def close (l : Ledger) (key : String) : Ledger :=
  match l.current.get? key with
  | some s => { l with current := l.current.erase key, closed := l.closed ++ [s] }
  | none => l

/-- What the answer of a turn says about spans. A record that is handed back closes the span under
its key. -/
def enter (l : Ledger) : Turn → Ledger
  | .visit v (.opened none) => l.begin v
  | .visit v (.opened (some _)) => (l.close v.key).begin v
  | .visit v (.reported .openedPartial) => l.begin v
  | .visit v (.reported .applied) => l.extend v
  | .wake key (.ok (some _)) => l.close key
  | _ => l

/-- The ledger before the next turn. -/
def turnOver (l : Ledger) : Ledger := { l with next := l.next + 1 }

/-- Note a turn. -/
def note (l : Ledger) (t : Turn) : Ledger := (l.enter t).turnOver

/-- The ledger of a log. -/
def ofLog (log : List Turn) : Ledger := log.foldl note {}

/-- The number of the span that is current under a key. -/
def currentNumber? (l : Ledger) (key : String) : Option Nat := (l.current.get? key).map Span.number

/-- How often a span with a number was closed. -/
def closings (l : Ledger) (n : Nat) : Nat := (l.closed.map Span.number).count n

/-- Whether a span is in a ledger. -/
def Holds (l : Ledger) (s : Span) : Prop := s ∈ l.closed ∨ l.current.get? s.key = some s

/-- A ledger accounts for a log if its spans come from openings of the log, the current ones run,
and each opening is either current and not closed, or not current and closed once. -/
structure Accounts (l : Ledger) (log : List Turn) : Prop where
  next : l.next = log.length
  keyed : ∀ key s, l.current.get? key = some s → s.key = key
  origin : ∀ s, l.Holds s → Turn.openingAt log s.number = some s.first
  running : ∀ key s, l.current.get? key = some s → s.Runs log
  once : ∀ n v, Turn.openingAt log n = some v →
    (l.currentNumber? v.key = some n ∧ l.closings n = 0) ∨
      (l.currentNumber? v.key ≠ some n ∧ l.closings n = 1)

namespace Accounts

variable {l : Ledger} {log : List Turn} {t : Turn} {v : VisitOf} {key : String} {s : Span}

/-- A ledger without spans accounts for the empty log. -/
theorem nil : Accounts {} [] where
  next := rfl
  keyed := by
    intro key s h
    cases h
  origin := by
    rintro s (h | h)
    · cases h
    · cases h
  running := by
    intro key s h
    cases h
  once := by
    intro n v h
    cases h

theorem holds_of_current (h : l.Accounts log) (hs : l.current.get? key = some s) : l.Holds s := by
  have hkey := h.keyed key s hs
  subst hkey
  exact .inr hs

/-- Current spans are under keys of fragments. -/
theorem isFragmentKey_of_current (h : l.Accounts log) (hs : l.current.get? key = some s) :
    Desk.isFragmentKey key = true := by
  rw [← h.keyed key s hs]
  exact Desk.isFragmentKey_fragmentKey s.first.id

theorem number_lt (h : l.Accounts log) (hs : l.Holds s) : s.number < log.length :=
  Turn.lt_of_openingAt (h.origin s hs)

/-- The number of the next turn has not been closed. -/
theorem closings_next (h : l.Accounts log) : l.closings log.length = 0 := by
  apply List.count_eq_zero.2
  intro hmem
  obtain ⟨s, hs, hnumber⟩ := List.mem_map.1 hmem
  have hlt := h.number_lt (.inl hs)
  omega

theorem next_concat (h : l.Accounts log) : l.turnOver.next = (log ++ [t]).length := by
  rw [List.length_append, List.length_singleton, ← h.next]
  rfl

/-- A turn that opens nothing and folds nothing in leaves a ledger in order. -/
theorem skip (h : l.Accounts log) (hopening : t.opening? = none) (happlied : t.applied? = none) :
    l.turnOver.Accounts (log ++ [t]) where
  next := h.next_concat
  keyed := h.keyed
  origin := by
    intro s hs
    exact Turn.openingAt_append (h.origin s hs)
  running := by
    intro key s hs
    apply (h.running key s hs).concat _ happlied
    intro u hu
    rw [hopening] at hu
    cases hu
  once := by
    intro n v hat
    rcases Turn.openingAt_append_cases hat with hold | ⟨-, hnew⟩
    · exact h.once n v hold
    · rw [hopening] at hnew
      cases hnew

/-- The current spans after a span begins. -/
theorem current_begin (h : l.Accounts log) (key : String) :
    (l.begin v).turnOver.current.get? key =
      if key = v.key then some ⟨log.length, v, []⟩ else l.current.get? key := by
  simp only [Ledger.turnOver, Ledger.begin, Dict.get?_insert, h.next]

theorem currentNumber?_begin (h : l.Accounts log) (key : String) :
    (l.begin v).turnOver.currentNumber? key =
      if key = v.key then some log.length else l.currentNumber? key := by
  rw [Ledger.currentNumber?, h.current_begin]
  split
  · rfl
  · rfl

/-- Each opening is current or was closed once after a span begins where none is current. -/
theorem once_begin (h : l.Accounts log) (hopening : t.opening? = some v)
    (hnone : l.current.get? v.key = none) {n : Nat} {u : VisitOf}
    (hat : Turn.openingAt (log ++ [t]) n = some u) :
    ((l.begin v).turnOver.currentNumber? u.key = some n ∧ l.closings n = 0) ∨
      ((l.begin v).turnOver.currentNumber? u.key ≠ some n ∧ l.closings n = 1) := by
  rw [h.currentNumber?_begin]
  rcases Turn.openingAt_append_cases hat with hold | ⟨rfl, hnew⟩
  · by_cases hkey : u.key = v.key
    · -- the new span takes the place of none, so the older opening was closed before
      rw [if_pos hkey]
      right
      constructor
      · intro heq
        have hlt := Turn.lt_of_openingAt hold
        exact absurd (Option.some.inj heq) (Nat.ne_of_gt hlt)
      · rcases h.once n u hold with ⟨hopen, -⟩ | ⟨-, hclosed⟩
        · rw [Ledger.currentNumber?, hkey, hnone] at hopen
          cases hopen
        · exact hclosed
    · rw [if_neg hkey]
      exact h.once n u hold
  · rw [hopening] at hnew
    cases hnew
    rw [if_pos rfl]
    exact .inl ⟨rfl, h.closings_next⟩

/-- A turn that opens a fragment where none is current leaves a ledger in order. -/
theorem begin (h : l.Accounts log) (hopening : t.opening? = some v) (happlied : t.applied? = none)
    (hnone : l.current.get? v.key = none) : (l.begin v).turnOver.Accounts (log ++ [t]) where
  next := h.next_concat
  keyed := by
    intro key s hs
    rw [h.current_begin] at hs
    split at hs
    · rename_i hkey
      cases hs
      exact hkey.symm
    · exact h.keyed key s hs
  origin := by
    rintro s (hs | hs)
    · exact Turn.openingAt_append (h.origin s (.inl hs))
    · rw [h.current_begin] at hs
      split at hs
      · cases hs
        exact Turn.openingAt_length.trans hopening
      · exact Turn.openingAt_append (h.origin s (.inr hs))
  running := by
    intro key s hs
    rw [h.current_begin] at hs
    split at hs
    · cases hs
      exact Span.runs_new hopening
    · rename_i hkey
      apply (h.running key s hs).concat _ happlied
      intro u hu
      rw [hopening] at hu
      cases hu
      rw [h.keyed key s hs]
      exact Ne.symm hkey
  once := fun _ _ hat => h.once_begin hopening hnone hat

theorem close_eq (hs : l.current.get? key = some s) :
    l.close key = { l with current := l.current.erase key, closed := l.closed ++ [s] } := by
  rw [Ledger.close, hs]

theorem currentNumber?_close (hs : l.current.get? key = some s) (key' : String) :
    (l.close key).currentNumber? key' = if key' = key then none else l.currentNumber? key' := by
  rw [close_eq hs]
  simp only [Ledger.currentNumber?, Dict.get?_erase]
  split
  · rfl
  · rfl

theorem closings_close (hs : l.current.get? key = some s) (n : Nat) :
    (l.close key).closings n = l.closings n + if s.number = n then 1 else 0 := by
  rw [close_eq hs]
  simp only [Ledger.closings, List.map_append, List.count_append, List.map_cons, List.map_nil,
    List.count_singleton, beq_iff_eq]

/-- Closing a span adds no span. -/
theorem holds_of_close (h : l.Accounts log) (hs : l.current.get? key = some s) {s' : Span}
    (hs' : (l.close key).Holds s') : l.Holds s' := by
  rw [close_eq hs] at hs'
  rcases hs' with hs' | hs'
  · rcases List.mem_append.1 hs' with hs' | hs'
    · exact .inl hs'
    · rw [List.mem_singleton.1 hs']
      exact h.holds_of_current hs
  · simp only [Dict.get?_erase] at hs'
    split at hs'
    · cases hs'
    · exact .inr hs'

theorem current_of_close (hs : l.current.get? key = some s) {key' : String} {s' : Span}
    (hs' : (l.close key).current.get? key' = some s') : l.current.get? key' = some s' := by
  rw [close_eq hs] at hs'
  simp only [Dict.get?_erase] at hs'
  split at hs'
  · cases hs'
  · exact hs'

/-- Each opening is current or was closed once after a current span closes. -/
theorem once_close (h : l.Accounts log) (hs : l.current.get? key = some s) {n : Nat}
    (hat : Turn.openingAt log n = some v) :
    ((l.close key).currentNumber? v.key = some n ∧ (l.close key).closings n = 0) ∨
      ((l.close key).currentNumber? v.key ≠ some n ∧ (l.close key).closings n = 1) := by
  rw [currentNumber?_close hs, closings_close hs]
  by_cases hn : s.number = n
  · -- the span that closes is the one that was opened in turn `n`
    have hfirst := h.origin s (h.holds_of_current hs)
    rw [hn, hat] at hfirst
    cases hfirst
    have hkey : s.first.key = key := h.keyed key s hs
    rw [if_pos hkey, if_pos hn]
    rcases h.once n s.first hat with ⟨-, hclosed⟩ | ⟨hopen, -⟩
    · rw [hclosed]
      exact .inr ⟨(Option.some_ne_none n).symm, rfl⟩
    · refine absurd ?_ hopen
      rw [Ledger.currentNumber?, hkey, hs, Option.map_some, hn]
  · rw [if_neg hn, Nat.add_zero]
    by_cases hkey : v.key = key
    · rw [if_pos hkey]
      rcases h.once n v hat with ⟨hopen, -⟩ | ⟨-, hclosed⟩
      · rw [Ledger.currentNumber?, hkey, hs] at hopen
        exact absurd (Option.some.inj hopen) hn
      · exact .inr ⟨(Option.some_ne_none n).symm, hclosed⟩
    · rw [if_neg hkey]
      exact h.once n v hat

/-- Closing a current span leaves a ledger in order. -/
theorem close (h : l.Accounts log) (hs : l.current.get? key = some s) :
    (l.close key).Accounts log where
  next := by
    rw [close_eq hs]
    exact h.next
  keyed := fun key' s' hs' => h.keyed key' s' (current_of_close hs hs')
  origin := fun s' hs' => h.origin s' (h.holds_of_close hs hs')
  running := fun key' s' hs' => h.running key' s' (current_of_close hs hs')
  once := fun _ _ hat => h.once_close hs hat

theorem extend_eq (hs : l.current.get? v.key = some s) :
    l.extend v = { l with current := l.current.insert v.key (s.add v) } := by
  rw [Ledger.extend, hs]

theorem current_extend (hs : l.current.get? v.key = some s) (key : String) :
    (l.extend v).turnOver.current.get? key =
      if key = v.key then some (s.add v) else l.current.get? key := by
  simp only [extend_eq hs, Ledger.turnOver, Dict.get?_insert]

/-- A report that is folded into a current span leaves a ledger in order. -/
theorem extend (h : l.Accounts log) (hs : l.current.get? v.key = some s)
    (hreport : v.visit.isReport = true) :
    (l.extend v).turnOver.Accounts (log ++ [.visit v (.reported .applied)]) where
  next := by
    rw [extend_eq hs]
    exact h.next_concat
  keyed := by
    intro key s' hs'
    rw [current_extend hs] at hs'
    split at hs'
    · rename_i hkey
      cases hs'
      exact (h.keyed v.key s hs).trans hkey.symm
    · exact h.keyed key s' hs'
  origin := by
    rintro s' (hs' | hs')
    · rw [extend_eq hs] at hs'
      exact Turn.openingAt_append (h.origin s' (.inl hs'))
    · rw [current_extend hs] at hs'
      split at hs'
      · cases hs'
        exact Turn.openingAt_append (h.origin s (h.holds_of_current hs))
      · exact Turn.openingAt_append (h.origin s' (.inr hs'))
  running := by
    intro key s' hs'
    rw [current_extend hs] at hs'
    split at hs'
    · cases hs'
      exact (h.running v.key s hs).add (h.keyed v.key s hs).symm hreport
    · rename_i hkey
      apply (h.running key s' hs').concat_applied_of_ne
      rw [h.keyed key s' hs']
      exact Ne.symm hkey
  once := by
    intro n u hat
    have hcurrent : (l.extend v).turnOver.currentNumber? u.key = l.currentNumber? u.key := by
      rw [Ledger.currentNumber?, current_extend hs]
      split
      · rename_i hu
        rw [Ledger.currentNumber?, hu, hs]
        rfl
      · rfl
    have hcount : (l.extend v).turnOver.closings n = l.closings n := by
      rw [extend_eq hs]
      rfl
    rw [hcurrent, hcount]
    rcases Turn.openingAt_append_cases hat with hold | ⟨-, hnew⟩
    · exact h.once n u hold
    · cases hnew

end Accounts

end Ledger

end Gatehouse
