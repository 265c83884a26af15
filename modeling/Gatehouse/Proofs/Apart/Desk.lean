import Gatehouse.Proofs.Apart.Timer
import Gatehouse.Proofs.Visit

/-!
# A desk seen through one session

A session has two keys, and no other session has either of them. Of a desk at which many sessions
are served it sees what is stored and armed under its own keys and the records that are its own.
What is done for the session does the same to what it sees, and what is done for another one goes
unseen.
-/

namespace Gatehouse

namespace SessionId

/-- Whether a key is one of the two keys of a session. -/
def owns (s : SessionId) (key : String) : Bool := key == s.fragmentKey || key == s.regionKey

variable {s id : SessionId}

theorem owns_fragmentKey : s.owns id.fragmentKey = (id == s) := by
  have hregion : (id.fragmentKey == s.regionKey) = false :=
    beq_false_of_ne (fragmentKey_ne_regionKey id s)
  rw [owns, hregion, Bool.or_false]
  by_cases h : id = s
  · rw [h, beq_self_eq_true, beq_self_eq_true]
  · rw [beq_false_of_ne h]
    exact beq_false_of_ne fun hkey => h (fragmentKey_inj hkey)

theorem owns_regionKey : s.owns id.regionKey = (id == s) := by
  have hfragment : (id.regionKey == s.fragmentKey) = false :=
    beq_false_of_ne (Ne.symm (fragmentKey_ne_regionKey s id))
  rw [owns, hfragment, Bool.false_or]
  by_cases h : id = s
  · rw [h, beq_self_eq_true, beq_self_eq_true]
  · rw [beq_false_of_ne h]
    exact beq_false_of_ne fun hkey => h (regionKey_inj hkey)

/-- The records of a session among some events. -/
def recordsOf (s : SessionId) (es : List Event) : List SessionRecord :=
  (es.filterMap Event.record?).filter fun r => r.session == s.text

theorem recordsOf_append (s : SessionId) (es es' : List Event) :
    s.recordsOf (es ++ es') = s.recordsOf es ++ s.recordsOf es' := by
  rw [recordsOf, List.filterMap_append, List.filter_append]
  rfl

theorem recordsOf_session_of_ne {r : SessionRecord} (h : r.session ≠ s.text) :
    s.recordsOf [.session r] = [] := by
  have hother : ¬ (r.session == s.text) = true := fun heq => h (beq_iff_eq.1 heq)
  exact List.filter_cons_of_neg hother

end SessionId

namespace Desk

/-- What a session sees of a desk is another desk. -/
structure Shows (s : SessionId) (d d' : Desk) : Prop where
  up : d.store.down = []
  up' : d'.store.down = []
  look : ∀ key, d'.look key = if s.owns key then d.look key else none
  timer : d'.timer = d.timer.only s.owns
  records : s.recordsOf d'.events = s.recordsOf d.events

namespace Shows

variable {s : SessionId} {d d' e : Desk} {key : String} {value : Bytes} {seconds now : UInt64}
variable {w : Windows} {v : VisitOf} {a : VisitAnswer} {r : Option SessionRecord}

theorem look_eq (h : Shows s d d') (hkey : s.owns key = true) : d'.look key = d.look key := by
  rw [h.look, if_pos hkey]

theorem fragment?_eq (h : Shows s d d') (hkey : s.owns key = true) :
    d'.fragment? key = d.fragment? key := by
  rw [fragment?, h.look_eq hkey]
  rfl

theorem answers (h : Shows s d d') (c : StoreCall) : c ∉ d.store.down := Store.not_down_of_nil h.up c

theorem answers' (h : Shows s d d') (c : StoreCall) : c ∉ d'.store.down :=
  Store.not_down_of_nil h.up' c

/-! What is done under a key of the session is seen. -/

theorem holding (h : Shows s d d') (hkey : s.owns key = true) (value : Bytes) :
    Shows s (d.holding key value) (d'.holding key value) where
  up := h.up
  up' := h.up'
  look := by
    intro key'
    rw [look_holding, look_holding, h.look]
    by_cases heq : key' = key
    · rw [if_pos heq, if_pos heq, heq, if_pos hkey]
    · rw [if_neg heq, if_neg heq]
  timer := h.timer
  records := h.records

theorem without (h : Shows s d d') (key : String) : Shows s (d.without key) (d'.without key) where
  up := h.up
  up' := h.up'
  look := by
    intro key'
    rw [look_without, look_without, h.look]
    by_cases heq : key' = key
    · rw [if_pos heq, if_pos heq, ite_self]
    · rw [if_neg heq, if_neg heq]
  timer := h.timer
  records := h.records

theorem arm (h : Shows s d d') (hkey : s.owns key = true) (seconds : UInt64) :
    Shows s (d.arm key seconds) (d'.arm key seconds) where
  up := h.up
  up' := h.up'
  look := h.look
  timer := by
    rw [Desk.arm, Desk.arm, h.timer]
    exact (Timer.only_armSeconds hkey).symm
  records := h.records

theorem disarm (h : Shows s d d') (hkey : s.owns key = true) :
    Shows s (d.disarm key) (d'.disarm key) where
  up := h.up
  up' := h.up'
  look := h.look
  timer := by
    rw [Desk.disarm, Desk.disarm, h.timer]
    exact (Timer.only_disarm hkey).symm
  records := h.records

theorem emit (h : Shows s d d') (e : Event) : Shows s (d.emit e) (d'.emit e) where
  up := h.up
  up' := h.up'
  look := h.look
  timer := h.timer
  records := by
    rw [events_emit, events_emit, SessionId.recordsOf_append, SessionId.recordsOf_append, h.records]

theorem keeping (h : Shows s d d') (hkey : s.owns key = true) (f : Fragment) (window : UInt64) :
    Shows s (d.keeping key f window) (d'.keeping key f window) :=
  (h.holding hkey f.encode).arm hkey window

/-! What is done under another key is not. -/

theorem holding_unseen (h : Shows s d d') (hkey : s.owns key = false) (value : Bytes) :
    Shows s (d.holding key value) d' where
  up := h.up
  up' := h.up'
  look := by
    intro key'
    rw [look_holding, h.look]
    by_cases heq : key' = key
    · rw [heq, hkey]
      rfl
    · rw [if_neg heq]
  timer := h.timer
  records := h.records

theorem without_unseen (h : Shows s d d') (hkey : s.owns key = false) :
    Shows s (d.without key) d' where
  up := h.up
  up' := h.up'
  look := by
    intro key'
    rw [look_without, h.look]
    by_cases heq : key' = key
    · rw [heq, hkey]
      rfl
    · rw [if_neg heq]
  timer := h.timer
  records := h.records

theorem arm_unseen (h : Shows s d d') (hkey : s.owns key = false) (seconds : UInt64) :
    Shows s (d.arm key seconds) d' where
  up := h.up
  up' := h.up'
  look := h.look
  timer := h.timer.trans (Timer.only_armSeconds_of_hidden hkey).symm
  records := h.records

theorem disarm_unseen (h : Shows s d d') (hkey : s.owns key = false) :
    Shows s (d.disarm key) d' where
  up := h.up
  up' := h.up'
  look := h.look
  timer := h.timer.trans (Timer.only_disarm_of_hidden hkey).symm
  records := h.records

theorem emit_unseen (h : Shows s d d') {r : SessionRecord} (hr : r.session ≠ s.text) :
    Shows s (d.emit (.session r)) d' where
  up := h.up
  up' := h.up'
  look := h.look
  timer := h.timer
  records := by
    rw [events_emit, SessionId.recordsOf_append, SessionId.recordsOf_session_of_ne hr,
      List.append_nil]
    exact h.records

theorem keeping_unseen (h : Shows s d d') (hkey : s.owns key = false) (f : Fragment)
    (window : UInt64) : Shows s (d.keeping key f window) d' :=
  (h.holding_unseen hkey f.encode).arm_unseen hkey window

/-- A visit of the session does the same to what it sees. -/
theorem visits (h : Shows s d d') (hkey : s.owns v.key = true) (hvisit : Visits w v d a e) :
    ∃ e', Visits w v d' a e' ∧ Shows s e e' := by
  have hsame := h.fragment?_eq hkey
  cases hvisit with
  | failed e hdown => exact absurd hdown (h.answers _)
  | opened hconnect hnone =>
      exact ⟨_, .opened hconnect (hsame.trans hnone), h.keeping hkey _ _⟩
  | reopened hconnect hopen =>
      exact ⟨_, .reopened hconnect (hsame.trans hopen), (h.keeping hkey _ _).emit _⟩
  | openedPartial hreport hnone =>
      exact ⟨_, .openedPartial hreport (hsame.trans hnone), h.keeping hkey _ _⟩
  | applied hreport hopen haccepts =>
      exact ⟨_, .applied hreport (hsame.trans hopen) haccepts, h.keeping hkey _ _⟩
  | duplicate hreport hopen haccepts =>
      exact ⟨_, .duplicate hreport (hsame.trans hopen) haccepts, h⟩

/-- A visit of another session goes unseen, if what it finds open is not of the session. -/
theorem visits_unseen (h : Shows s d d') (hkey : s.owns v.key = false)
    (hother : ∀ f, d.fragment? v.key = some f → f.session ≠ s.text) (hvisit : Visits w v d a e) :
    Shows s e d' := by
  cases hvisit with
  | failed e hdown => exact h
  | opened hconnect hnone => exact h.keeping_unseen hkey _ _
  | reopened hconnect hopen => exact (h.keeping_unseen hkey _ _).emit_unseen (hother _ hopen)
  | openedPartial hreport hnone => exact h.keeping_unseen hkey _ _
  | applied hreport hopen haccepts => exact h.keeping_unseen hkey _ _
  | duplicate hreport hopen haccepts => exact h

/-- A wake-up for a key of the session does the same to what it sees. -/
theorem wakes (h : Shows s d d') (hkey : s.owns key = true) (hwake : Wakes key now d r e) :
    ∃ e', Wakes key now d' r e' ∧ Shows s e e' := by
  have hlook := h.look_eq hkey
  have hfragment := h.fragment?_eq hkey
  cases hwake with
  | ignored hf hr => exact ⟨_, .ignored hf hr, h⟩
  | absent hnone => exact ⟨_, .absent (hlook.trans hnone), h⟩
  | unreadable hf hsome hdecode =>
      exact ⟨_, .unreadable hf (hlook.trans hsome) hdecode, h.without key⟩
  | flushed hf hopen hdue =>
      exact ⟨_, .flushed hf (hfragment.trans hopen) hdue, (h.without key).emit _⟩
  | early hf hopen hdue => exact ⟨_, .early hf (hfragment.trans hopen) hdue, h.arm hkey _⟩
  | stale hr hsome hleft => exact ⟨_, .stale hr (hlook.trans hsome) hleft, h.without key⟩
  | fresh hr hsome hleft => exact ⟨_, .fresh hr (hlook.trans hsome) hleft, h.arm hkey _⟩

/-- A wake-up for another key goes unseen, if what it finds open is not of the session. -/
theorem wakes_unseen (h : Shows s d d') (hkey : s.owns key = false)
    (hother : isFragmentKey key = true → ∀ f, d.fragment? key = some f → f.session ≠ s.text)
    (hwake : Wakes key now d r e) : Shows s e d' := by
  cases hwake with
  | ignored hf hr => exact h
  | absent hnone => exact h
  | unreadable hf hsome hdecode => exact h.without_unseen hkey
  | flushed hf hopen hdue => exact (h.without_unseen hkey).emit_unseen (hother hf _ hopen)
  | early hf hopen hdue => exact h.arm_unseen hkey _
  | stale hr hsome hleft => exact h.without_unseen hkey
  | fresh hr hsome hleft => exact h.arm_unseen hkey _

/-- A visit of the session is answered by what it sees. -/
theorem visit (h : Shows s d d') (w : Windows) (hkey : s.owns v.key = true) :
    (d'.visit w v).1 = (d.visit w v).1 ∧ Shows s (d.visit w v).2 (d'.visit w v).2 := by
  obtain ⟨e', hvisit, hshows⟩ := h.visits hkey (visits_visit w v d)
  rw [visit_eq (h.answers' _) hvisit]
  exact ⟨rfl, hshows⟩

/-- A wake-up is answered if the store is up. -/
theorem tryExpiry_wakes (hup : d.store.down = []) (key : String) (now : UInt64) :
    ∃ r e, d.tryExpiry key now = (.ok r, e) ∧ Wakes key now d r e := by
  obtain ⟨r, e, hexpiry, hwake⟩ | ⟨e, -, hdown⟩ := tryExpiry_cases key now d
  · exact ⟨r, e, hexpiry, hwake⟩
  · exact absurd hdown (Store.not_down_of_nil hup _)

/-- A wake-up for a key of the session is answered by what it sees. -/
theorem tryExpiry (h : Shows s d d') (hkey : s.owns key = true) (now : UInt64) :
    (d'.tryExpiry key now).1 = (d.tryExpiry key now).1 ∧
      Shows s (d.tryExpiry key now).2 (d'.tryExpiry key now).2 := by
  obtain ⟨r, e, hexpiry, hwake⟩ := tryExpiry_wakes h.up key now
  obtain ⟨e', hwake', hshows⟩ := h.wakes hkey hwake
  rw [hexpiry, tryExpiry_eq (h.answers' _) hwake']
  exact ⟨rfl, hshows⟩

theorem tryExpiry_unseen (h : Shows s d d') (hkey : s.owns key = false)
    (hother : isFragmentKey key = true → ∀ f, d.fragment? key = some f → f.session ≠ s.text)
    (now : UInt64) : Shows s (d.tryExpiry key now).2 d' := by
  obtain ⟨r, e, hexpiry, hwake⟩ := tryExpiry_wakes h.up key now
  rw [hexpiry]
  exact h.wakes_unseen hkey hother hwake

end Shows

section Regions

variable {s id : SessionId} {d d' : Desk}

/-- A region that is noted for the session is noted alike in what it sees. -/
theorem Shows.noteRegion (h : Shows s d d') (window : UInt64) (region : String) (now : UInt64) :
    ∃ e e', d.noteRegion window s region now = .ok e ∧ d'.noteRegion window s region now = .ok e' ∧
      Shows s e e' := by
  have hkey : s.owns s.regionKey = true := SessionId.owns_regionKey.trans (beq_self_eq_true s)
  exact ⟨_, _, noteRegion_of_up (h.answers .set), noteRegion_of_up (h.answers' .set),
    (h.holding hkey _).arm hkey _⟩

theorem Shows.noteRegion_unseen (h : Shows s d d') (hid : id ≠ s) (window : UInt64)
    (region : String) (now : UInt64) :
    ∃ e, d.noteRegion window id region now = .ok e ∧ Shows s e d' := by
  have hkey : s.owns id.regionKey = false := SessionId.owns_regionKey.trans (beq_false_of_ne hid)
  exact ⟨_, noteRegion_of_up (h.answers .set), (h.holding_unseen hkey _).arm_unseen hkey _⟩

theorem Shows.forgetRegion (h : Shows s d d') :
    ∃ e e', d.forgetRegion s = .ok e ∧ d'.forgetRegion s = .ok e' ∧ Shows s e e' := by
  have hkey : s.owns s.regionKey = true := SessionId.owns_regionKey.trans (beq_self_eq_true s)
  exact ⟨_, _, forgetRegion_of_up (h.answers .delete), forgetRegion_of_up (h.answers' .delete),
    (h.without _).disarm hkey⟩

theorem Shows.forgetRegion_unseen (h : Shows s d d') (hid : id ≠ s) :
    ∃ e, d.forgetRegion id = .ok e ∧ Shows s e d' := by
  have hkey : s.owns id.regionKey = false := SessionId.owns_regionKey.trans (beq_false_of_ne hid)
  exact ⟨_, forgetRegion_of_up (h.answers .delete), (h.without_unseen hkey).disarm_unseen hkey⟩

theorem Shows.region? (h : Shows s d d') (now : UInt64) :
    ∃ r, d.region? s now = .ok r ∧ d'.region? s now = .ok r := by
  have hkey : s.owns s.regionKey = true := SessionId.owns_regionKey.trans (beq_self_eq_true s)
  refine ⟨_, region?_of_up (h.answers .get), ?_⟩
  rw [region?_of_up (h.answers' .get), h.look_eq hkey]

end Regions

/-- A desk drops the keys for which `gone` holds, with their wake-ups, and changes nothing else. -/
structure Drops (gone : String → Bool) (d e : Desk) : Prop where
  down : e.store.down = d.store.down
  look : ∀ key, e.look key = if gone key then none else d.look key
  armed : ∀ key, e.timer.armed.get? key = if gone key then none else d.timer.armed.get? key
  clock : e.timer.clock = d.timer.clock
  announced : e.timer.announced = d.timer.announced
  heard : e.timer.heard = d.timer.heard
  events : e.events = d.events

namespace Drops

variable {gone gone' : String → Bool} {d e e' : Desk}

theorem refl (d : Desk) : Drops (fun _ => false) d d :=
  ⟨rfl, fun _ => rfl, fun _ => rfl, rfl, rfl, rfl, rfl⟩

theorem one (d : Desk) (key : String) :
    Drops (fun key' => key' == key) d ((d.without key).disarm key) where
  down := rfl
  look := by
    intro key'
    rw [show ((d.without key).disarm key).look key' = (d.without key).look key' from rfl,
      look_without]
    simp only [beq_iff_eq]
  armed := by
    intro key'
    refine (Timer.armed_disarm d.timer key key').trans ?_
    simp only [beq_iff_eq]
  clock := rfl
  announced := rfl
  heard := rfl
  events := rfl

theorem trans (h : Drops gone d e) (h' : Drops gone' e e') :
    Drops (fun key => gone key || gone' key) d e' where
  down := h'.down.trans h.down
  look := by
    intro key
    rw [h'.look, h.look]
    cases gone key with
    | true => cases gone' key with | true => rfl | false => rfl
    | false => rfl
  armed := by
    intro key
    rw [h'.armed, h.armed]
    cases gone key with
    | true => cases gone' key with | true => rfl | false => rfl
    | false => rfl
  clock := h'.clock.trans h.clock
  announced := h'.announced.trans h.announced
  heard := h'.heard.trans h.heard
  events := h'.events.trans h.events

theorem congr (h : Drops gone d e) (hgone : ∀ key, gone' key = gone key) : Drops gone' d e := by
  rw [show gone' = gone from funext hgone]
  exact h

end Drops

/-- A purge drops those of some keys whose entries are stale. -/
theorem purgeKeys_drops {d : Desk} (now : UInt64) (keys : List String) (hup : d.store.down = []) :
    ∃ n e, purgeKeys now keys d = .ok (n, e) ∧
      Drops (fun key => keys.contains key && (d.look key).any (isStale now)) d e := by
  induction keys generalizing d with
  | nil => exact ⟨0, d, rfl, .refl d⟩
  | cons key rest ih =>
      obtain ⟨found, store, hremove⟩ : ∃ found store,
          d.store.removeIf key (isStale now) = .ok (found, store) := by
        cases hremove : d.store.removeIf key (isStale now) with
        | ok result => exact ⟨_, _, rfl⟩
        | error e => exact absurd (Store.removeIf_eq_error hremove) (Store.not_down_of_nil hup _)
      obtain ⟨hfound, ⟨hstale, hstore⟩ | ⟨hstale, hstore⟩⟩ := removeIf_cases hremove
      · rw [hfound] at hstale
        obtain ⟨n, e, hrest, hdrops⟩ := ih (d := (d.without key).disarm key) hup
        refine ⟨n + 1, e, ?_, ?_⟩
        · simp only [purgeKeys, hremove, hfound, hstale, ↓reduceIte, hstore, hrest]
        · apply ((Drops.one d key).trans hdrops).congr
          intro key'
          rw [List.contains_cons, (Drops.one d key).look]
          by_cases heq : key' = key
          · rw [heq, hstale, beq_self_eq_true]
            rfl
          · rw [beq_false_of_ne heq]
            rfl
      · rw [hfound] at hstale
        obtain ⟨n, e, hrest, hdrops⟩ := ih hup
        refine ⟨n, e, ?_, ?_⟩
        · simp only [purgeKeys, hremove, hfound, hstale, Bool.false_eq_true, ↓reduceIte, hstore,
            hrest]
        · apply hdrops.congr
          intro key'
          rw [List.contains_cons]
          by_cases heq : key' = key
          · rw [heq, hstale, Bool.and_false, Bool.and_false]
          · rw [beq_false_of_ne heq, Bool.false_or]

/-- A purge drops the region entries that are stale. -/
theorem purgeRegions_drops {d : Desk} (now : UInt64) (hup : d.store.down = []) :
    ∃ n e, d.purgeRegions now = .ok (n, e) ∧
      Drops (fun key => isRegionKey key && (d.look key).any (isStale now)) d e := by
  have hkeys : d.store.keys SessionId.regionStem =
      .ok (d.store.table.keys SessionId.regionStem) :=
    Store.answer_of_up (Store.not_down_of_nil hup _) _
  obtain ⟨n, e, hpurge, hdrops⟩ :=
    purgeKeys_drops now (d.store.table.keys SessionId.regionStem) hup
  refine ⟨n, e, ?_, ?_⟩
  · rw [purgeRegions, hkeys]
    exact hpurge
  · apply hdrops.congr
    intro key
    cases hlook : d.look key with
    | none => rw [Option.any_none, Bool.and_false, Bool.and_false]
    | some bytes =>
        congr 1
        rw [Bool.eq_iff_iff, List.contains_iff_mem, mem_keys_regionStem, hlook]
        exact ⟨fun hregion => ⟨rfl, hregion⟩, And.right⟩

namespace Shows

variable {s : SessionId} {d d' : Desk}

/-- A session sees of a purge what it would see of a purge without the others. -/
theorem purgeRegions (h : Shows s d d') (now : UInt64) :
    ∃ n e n' e', d.purgeRegions now = .ok (n, e) ∧ d'.purgeRegions now = .ok (n', e') ∧
      Shows s e e' := by
  obtain ⟨n, e, hpurge, hdrops⟩ := purgeRegions_drops now h.up
  obtain ⟨n', e', hpurge', hdrops'⟩ := purgeRegions_drops now h.up'
  refine ⟨n, e, n', e', hpurge, hpurge', hdrops.down.trans h.up, hdrops'.down.trans h.up', ?_, ?_,
    ?_⟩
  · intro key
    rw [hdrops'.look, hdrops.look, h.look]
    cases s.owns key with
    | true => rfl
    | false => exact ite_self _
  · apply Timer.ext_armed
    · rw [hdrops'.clock, h.timer]
      exact hdrops.clock.symm
    · intro key
      rw [Timer.armed_only, hdrops'.armed, hdrops.armed, h.timer, Timer.armed_only, h.look]
      cases s.owns key with
      | true => rfl
      | false => exact ite_self _
    · rw [hdrops'.announced, h.timer]
      exact congrArg (List.filter s.owns) hdrops.announced.symm
    · rw [hdrops'.heard, h.timer]
      exact hdrops.heard.symm
  · rw [hdrops'.events, hdrops.events]
    exact h.records

/-- A session sees of a recovery what it would see of a recovery without the others. -/
theorem recover (h : Shows s d d') (now : UInt64) :
    ∃ n e n' e', d.recover now = .ok (n, e) ∧ d'.recover now = .ok (n', e') ∧ Shows s e e' := by
  obtain ⟨n, hrecover⟩ := recover_of_up (h.answers _) (h.answers _) now
  obtain ⟨n', hrecover'⟩ := recover_of_up (h.answers' _) (h.answers' _) now
  refine ⟨n, _, n', _, hrecover, hrecover', h.up, h.up', h.look, ?_, h.records⟩
  have hstored : ∀ key, ((d'.look key).isSome = true) ↔
      s.owns key = true ∧ (d.look key).isSome = true := by
    intro key
    rw [h.look]
    cases s.owns key with
    | true => exact ⟨fun hsome => ⟨rfl, hsome⟩, And.right⟩
    | false =>
        rw [if_neg Bool.false_ne_true]
        constructor
        · intro hsome
          cases hsome
        · rintro ⟨howned, -⟩
          cases howned
  dsimp only
  rw [h.timer]
  symm
  rw [Timer.only_armEach, Timer.only_armEach]
  · intro key
    rw [mem_keys_fragmentStem, mem_keys_fragmentStem, hstored, and_assoc]
  · intro key hkey
    rw [h.look_eq hkey]
  · intro key
    rw [mem_keys_regionStem, mem_keys_regionStem, hstored, and_assoc]
  · intro key hkey
    rw [h.look_eq hkey]

end Shows

end Desk

end Gatehouse
