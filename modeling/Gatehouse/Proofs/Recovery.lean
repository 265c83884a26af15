import Gatehouse.Proofs.Apart.Timer
import Gatehouse.Proofs.Backend.Store
import Gatehouse.Proofs.Watch.Desk

/-!
# A recovery takes up where a front end has stopped

A recovery finds the wake-ups of a front end in the store: it arms every stored key for the time that
is left to its value, which the clock must be able to show, and nothing else. Whatever was armed before, the next sweep then finds what is
due, and the answers to its announcements take out that and nothing else.
-/

namespace Gatehouse

namespace Desk

variable {d d' d'' : Desk} {now t due : UInt64} {key key' : String} {bytes : Bytes} {x : Fragment}
variable {r : Option SessionRecord}

/-- Whether a key belongs to a session, as the key of its fragment or of its region entry. -/
def isSessionKey (key : String) : Bool := isFragmentKey key || isRegionKey key

/-- The seconds from a time to the deadline of a value. None are left if the deadline has come or
cannot be read. -/
def secondsLeft (now : UInt64) (key : String) (bytes : Bytes) : Nat :=
  ((deadline? key bytes).elim 0 UInt64.toNat) - now.toNat

/-- The value under a key of a session is spent if its deadline has come or cannot be read. -/
def Spent (now : UInt64) (d : Desk) (key : String) : Prop :=
  isSessionKey key = true ∧
    ∃ bytes, d.look key = some bytes ∧ ∀ due, deadline? key bytes = some due → due ≤ now

theorem isSessionKey_of_isFragmentKey (h : isFragmentKey key = true) : isSessionKey key = true := by
  rw [isSessionKey, h, Bool.true_or]

theorem isSessionKey_of_isRegionKey (h : isRegionKey key = true) : isSessionKey key = true := by
  rw [isSessionKey, h, Bool.or_true]

/-! ## What a recovery arms -/

theorem toNat_fragmentLeft (hkey : isFragmentKey key = true) (now : UInt64) (bytes : Bytes) :
    (fragmentLeft now (some bytes)).toNat = secondsLeft now key bytes := by
  rw [secondsLeft, deadline?_of_isFragmentKey hkey, fragmentLeft, Option.bind_some]
  cases Fragment.decode? bytes with
  | none => exact (Nat.zero_sub now.toNat).symm
  | some f => exact toNat_excess f.due now

theorem toNat_regionLeft (hkey : isRegionKey key = true) (now : UInt64) (bytes : Bytes) :
    (regionLeft now (some bytes)).toNat = secondsLeft now key bytes := by
  rw [secondsLeft, deadline?_of_isRegionKey hkey, regionLeft, Option.bind_some]
  cases hdecode : RegionEntry.decode? bytes with
  | none =>
      rw [RegionEntry.left?, RegionEntry.fresh?, hdecode]
      exact (Nat.zero_sub now.toNat).symm
  | some e =>
      rw [RegionEntry.left?_eq hdecode]
      split
      · rename_i hlt
        exact toNat_sub_of_lt hlt
      · rename_i hnot
        have hle : e.due.toNat ≤ now.toNat := UInt64.le_iff_toNat_le.1 (UInt64.not_lt.1 hnot)
        exact (Nat.sub_eq_zero_of_le hle).symm

/-- A desk is rearmed at a time if every stored key of a session is armed for the seconds that are
left to its value, and all else is as it was. -/
structure Rearms (now : UInt64) (d d' : Desk) : Prop where
  store : d'.store = d.store
  events : d'.events = d.events
  clock : d'.timer.clock = d.timer.clock
  announced : d'.timer.announced = d.timer.announced
  heard : d'.timer.heard = d.timer.heard
  armed : ∀ key bytes, isSessionKey key = true → d.look key = some bytes →
    d'.timer.armed.get? key = some (d.timer.clock + secondsLeft now key bytes * 1000)
  others : ∀ key, ¬ (isSessionKey key = true ∧ (d.look key).isSome = true) →
    d'.timer.armed.get? key = d.timer.armed.get? key

namespace Rearms

theorem look (h : Rearms now d d') (key : String) : d'.look key = d.look key := by
  rw [Desk.look, h.store]
  rfl

/-- What is rearmed is rearmed by being left as it is. -/
theorem self (h : Rearms now d d') : Rearms now d' d' where
  store := rfl
  events := rfl
  clock := rfl
  announced := rfl
  heard := rfl
  armed := by
    intro key bytes hkey hlook
    rw [h.look] at hlook
    rw [h.clock]
    exact h.armed key bytes hkey hlook
  others := fun _ _ => rfl

/-- There is one way to rearm a desk. -/
theorem unique (h : Rearms now d d') (h' : Rearms now d d'') : d' = d'' := by
  have harmed : ∀ key, d'.timer.armed.get? key = d''.timer.armed.get? key := by
    intro key
    by_cases hstored : isSessionKey key = true ∧ (d.look key).isSome = true
    · obtain ⟨bytes, hlook⟩ := Option.isSome_iff_exists.1 hstored.2
      rw [h.armed key bytes hstored.1 hlook, h'.armed key bytes hstored.1 hlook]
    · rw [h.others key hstored, h'.others key hstored]
  have htimer : d'.timer = d''.timer :=
    Timer.ext_armed (h.clock.trans h'.clock.symm) harmed (h.announced.trans h'.announced.symm)
      (h.heard.trans h'.heard.symm)
  have hstore : d'.store = d''.store := h.store.trans h'.store.symm
  have hevents : d'.events = d''.events := h.events.trans h'.events.symm
  cases d'
  cases d''
  cases htimer
  cases hstore
  cases hevents
  rfl

end Rearms

/-- The keys that a recovery arms. -/
def sessionKeys (d : Desk) : List String :=
  d.store.table.keys SessionId.fragmentStem ++ d.store.table.keys SessionId.regionStem

theorem mem_sessionKeys (d : Desk) (key : String) :
    key ∈ d.sessionKeys ↔ isSessionKey key = true ∧ (d.look key).isSome = true := by
  rw [sessionKeys, List.mem_append, mem_keys_fragmentStem, mem_keys_regionStem, isSessionKey,
    Bool.or_eq_true]
  constructor
  · rintro (⟨hsome, hfragment⟩ | ⟨hsome, hregion⟩)
    · exact ⟨.inl hfragment, hsome⟩
    · exact ⟨.inr hregion, hsome⟩
  · rintro ⟨hfragment | hregion, hsome⟩
    · exact .inl ⟨hsome, hfragment⟩
    · exact .inr ⟨hsome, hregion⟩

theorem nodup_sessionKeys (h : d.store.table.Keyed) : d.sessionKeys.Nodup := by
  apply List.nodup_append.2
  refine ⟨h.nodup_keys _, h.nodup_keys _, ?_⟩
  intro key hfragments key' hregions heq
  subst heq
  have hfragment := ((mem_keys_fragmentStem d key).1 hfragments).2
  have hregion := ((mem_keys_regionStem d key).1 hregions).2
  rw [isFragmentKey_of_isRegionKey hregion] at hfragment
  cases hfragment

/-- A recovery counts the stored keys of sessions and rearms the desk. -/
theorem recover_rearms (hkeys : .keys ∉ d.store.down) (hget : .get ∉ d.store.down)
    (now : UInt64) : ∃ d', d.recover now = .ok (d.sessionKeys.length, d') ∧ Rearms now d d' := by
  have hrecover := recover_eq hkeys hget now
  rw [← List.length_append] at hrecover
  refine ⟨_, hrecover, rfl, rfl, ?_, ?_, ?_, ?_, ?_⟩
  · exact (Timer.clock_armEach _ _).trans (Timer.clock_armEach _ _)
  · exact (Timer.announced_armEach _ _).trans (Timer.announced_armEach _ _)
  · exact (Timer.heard_armEach _ _).trans (Timer.heard_armEach _ _)
  · intro key bytes hkey hlook
    have hsome : (d.look key).isSome = true := by rw [hlook]; rfl
    dsimp only
    rw [Timer.armed_armEach, Timer.armed_armEach, Timer.clock_armEach, hlook]
    by_cases hregion : isRegionKey key = true
    · rw [if_pos ((mem_keys_regionStem d key).2 ⟨hsome, hregion⟩), toNat_regionLeft hregion]
    · have hfragment : isFragmentKey key = true :=
        (Bool.or_eq_true_iff.1 hkey).resolve_right hregion
      rw [if_neg fun hmem => hregion ((mem_keys_regionStem d key).1 hmem).2,
        if_pos ((mem_keys_fragmentStem d key).2 ⟨hsome, hfragment⟩), toNat_fragmentLeft hfragment]
  · intro key hother
    have hlisted : key ∉ d.sessionKeys := fun hmem => hother ((mem_sessionKeys d key).1 hmem)
    dsimp only
    rw [Timer.armed_armEach, if_neg fun hmem => hlisted (List.mem_append_right _ hmem),
      Timer.armed_armEach, if_neg fun hmem => hlisted (List.mem_append_left _ hmem)]

/-! ## What the answers to announcements take out -/

theorem spent_congr (h : d'.look key = d.look key) : d'.Spent now key ↔ d.Spent now key := by
  rw [Spent, Spent, h]

/-- A fragment that is due is spent. -/
theorem spent_of_due (hkey : isFragmentKey key = true) (hopen : d.fragment? key = some x)
    (hdue : x.due ≤ now) : d.Spent now key := by
  obtain ⟨bytes, hlook, hdecode⟩ := Option.bind_eq_some_iff.1 hopen
  refine ⟨isSessionKey_of_isFragmentKey hkey, bytes, hlook, ?_⟩
  intro due hdeadline
  rw [deadline?_of_isFragmentKey hkey, hdecode] at hdeadline
  cases hdeadline
  exact hdue

/-- A value whose deadline is still to come is not spent. -/
theorem not_spent_of_lt (hlook : d.look key = some bytes) (hdeadline : deadline? key bytes = some due)
    (hlt : now < due) : ¬ d.Spent now key := by
  rintro ⟨-, bytes', hlook', hspent⟩
  cases hlook.symm.trans hlook'
  exact absurd (hspent due hdeadline) (UInt64.not_le.2 hlt)

theorem not_spent_of_absent (hlook : d.look key = none) : ¬ d.Spent now key := by
  rintro ⟨-, bytes, hlook', -⟩
  cases hlook.symm.trans hlook'

/-- The answer to a wake-up takes out what is spent and nothing else, and emits a record exactly if
that was a fragment. -/
inductive Clears (now : UInt64) (key : String) (d d' : Desk) : Prop
  | left (hspent : ¬ d.Spent now key) (hlook : ∀ key', d'.look key' = d.look key')
      (hevents : d'.events = d.events)
  | junked (hspent : d.Spent now key)
      (hlook : ∀ key', d'.look key' = if key' = key then none else d.look key')
      (hnone : isFragmentKey key = true → d.fragment? key = none) (hevents : d'.events = d.events)
  | finished (x : Fragment) (hkey : isFragmentKey key = true) (hopen : d.fragment? key = some x)
      (hdue : x.due ≤ now)
      (hlook : ∀ key', d'.look key' = if key' = key then none else d.look key')
      (hevents : d'.events = d.events ++ [.session x.finish])

theorem Wakes.clears (h : Wakes key now d r d') : Clears now key d d' := by
  cases h with
  | ignored hfragment hregion =>
      refine .left ?_ (fun _ => rfl) rfl
      rintro ⟨hkey, -⟩
      rw [isSessionKey, hfragment, hregion] at hkey
      cases hkey
  | absent hlook => exact .left (not_spent_of_absent hlook) (fun _ => rfl) rfl
  | @unreadable bytes hfragment hlook hdecode =>
      have hspent : d.Spent now key := by
        refine ⟨isSessionKey_of_isFragmentKey hfragment, bytes, hlook, ?_⟩
        intro due hdeadline
        rw [deadline?_of_isFragmentKey hfragment, hdecode] at hdeadline
        cases hdeadline
      refine .junked hspent (look_without d key) (fun _ => ?_) rfl
      rw [fragment?, hlook]
      exact hdecode
  | @flushed x hfragment hopen hdue =>
      exact .finished x hfragment hopen hdue (look_without d key) rfl
  | @early x hfragment hopen hdue =>
      obtain ⟨bytes, hlook, hdecode⟩ := Option.bind_eq_some_iff.1 hopen
      refine .left (not_spent_of_lt hlook ?_ hdue) (fun _ => rfl) rfl
      rw [deadline?_of_isFragmentKey hfragment, hdecode]
      rfl
  | @stale bytes hregion hlook hleft =>
      have hspent : d.Spent now key := by
        refine ⟨isSessionKey_of_isRegionKey hregion, bytes, hlook, ?_⟩
        intro due hdeadline
        rw [deadline?_of_isRegionKey hregion] at hdeadline
        obtain ⟨e, hdecode, rfl⟩ := Option.map_eq_some_iff.1 hdeadline
        apply UInt64.not_lt.1
        intro hlt
        rw [RegionEntry.left?_eq hdecode, if_pos hlt] at hleft
        cases hleft
      refine .junked hspent (look_without d key) (fun hfragment => ?_) rfl
      rw [isFragmentKey_of_isRegionKey hregion] at hfragment
      cases hfragment
  | @fresh bytes left hregion hlook hleft =>
      obtain ⟨e, hdecode, hlt, -⟩ := RegionEntry.left?_eq_some_iff.1 hleft
      refine .left (not_spent_of_lt hlook ?_ hlt) (fun _ => rfl) rfl
      rw [deadline?_of_isRegionKey hregion, hdecode]
      rfl

/-- Some keys are settled at a time if what is spent among them is taken out and nothing else, and the
record of each fragment among that is emitted once. -/
structure Settles (now : UInt64) (keys : List String) (d d' : Desk) : Prop where
  gone : ∀ key ∈ keys, d.Spent now key → d'.look key = none
  kept : ∀ key, (key ∈ keys → ¬ d.Spent now key) → d'.look key = d.look key
  emitted : ∃ finished : List (String × Fragment), (finished.map Prod.fst).Nodup ∧
    (∀ key x, (key, x) ∈ finished ↔
      key ∈ keys ∧ isFragmentKey key = true ∧ d.fragment? key = some x ∧ x.due ≤ now) ∧
    d'.events = d.events ++ finished.map fun e => .session e.2.finish

namespace Settles

variable {keys : List String}

theorem nil (now : UInt64) (d : Desk) : Settles now [] d d where
  gone := nofun
  kept := fun _ _ => rfl
  emitted := ⟨[], List.nodup_nil, by simp, (List.append_nil _).symm⟩

/-- A key whose value is not spent, and with it no fragment that is due, adds nothing. -/
theorem cons_left (hspent : ¬ d.Spent now key) (hlook : ∀ key', d'.look key' = d.look key')
    (hevents : d'.events = d.events) (h : Settles now keys d' d'') :
    Settles now (key :: keys) d d'' where
  gone := by
    intro key' hmem hspent'
    have hrest : key' ∈ keys :=
      (List.mem_cons.1 hmem).resolve_left fun heq => hspent (heq ▸ hspent')
    exact h.gone key' hrest ((spent_congr (hlook key')).2 hspent')
  kept := by
    intro key' hnot
    refine (h.kept key' fun hmem hspent' => ?_).trans (hlook key')
    exact hnot (List.mem_cons_of_mem key hmem) ((spent_congr (hlook key')).1 hspent')
  emitted := by
    obtain ⟨finished, hnodup, hmem, hemitted⟩ := h.emitted
    refine ⟨finished, hnodup, ?_, ?_⟩
    · intro key' x
      rw [hmem, fragment?, hlook, List.mem_cons]
      constructor
      · rintro ⟨hrest, hdue⟩
        exact ⟨.inr hrest, hdue⟩
      · rintro ⟨rfl | hrest, hfragment, hopen, hdue⟩
        · exact absurd (spent_of_due hfragment hopen hdue) hspent
        · exact ⟨hrest, hfragment, hopen, hdue⟩
    · rw [hemitted, hevents]

theorem gone_cons (hlook : ∀ key', d'.look key' = if key' = key then none else d.look key')
    (h : Settles now keys d' d'') (hmem : key' ∈ key :: keys) (hspent : d.Spent now key') :
    d''.look key' = none := by
  by_cases heq : key' = key
  · have hgone : d'.look key' = none := (hlook key').trans (if_pos heq)
    exact (h.kept key' fun _ => not_spent_of_absent hgone).trans hgone
  · have hrest : key' ∈ keys := (List.mem_cons.1 hmem).resolve_left heq
    exact h.gone key' hrest ((spent_congr ((hlook key').trans (if_neg heq))).2 hspent)

theorem kept_cons (hspent : d.Spent now key)
    (hlook : ∀ key', d'.look key' = if key' = key then none else d.look key')
    (h : Settles now keys d' d'') (hnot : key' ∈ key :: keys → ¬ d.Spent now key') :
    d''.look key' = d.look key' := by
  have hne : key' ≠ key := by
    rintro rfl
    exact hnot List.mem_cons_self hspent
  have hsame : d'.look key' = d.look key' := (hlook key').trans (if_neg hne)
  refine (h.kept key' fun hmem hspent' => ?_).trans hsame
  exact hnot (List.mem_cons_of_mem key hmem) ((spent_congr hsame).1 hspent')

/-- A key whose value is junk goes without a record. -/
theorem cons_junked (hspent : d.Spent now key)
    (hlook : ∀ key', d'.look key' = if key' = key then none else d.look key')
    (hnone : isFragmentKey key = true → d.fragment? key = none) (hevents : d'.events = d.events)
    (h : Settles now keys d' d'') : Settles now (key :: keys) d d'' where
  gone := fun _ hmem hspent' => h.gone_cons hlook hmem hspent'
  kept := fun _ hnot => h.kept_cons hspent hlook hnot
  emitted := by
    obtain ⟨finished, hnodup, hmem, hemitted⟩ := h.emitted
    refine ⟨finished, hnodup, ?_, ?_⟩
    · intro key' x
      rw [hmem, fragment?, hlook, List.mem_cons]
      by_cases heq : key' = key
      · subst heq
        rw [if_pos rfl]
        constructor
        · rintro ⟨-, -, hopen, -⟩
          cases hopen
        · rintro ⟨-, hfragment, hopen, -⟩
          cases (hnone hfragment).symm.trans hopen
      · rw [if_neg heq, fragment?]
        simp only [heq, false_or]
    · rw [hemitted, hevents]

/-- A key whose fragment is due goes with its record. -/
theorem cons_finished (hkey : isFragmentKey key = true) (hopen : d.fragment? key = some x)
    (hdue : x.due ≤ now)
    (hlook : ∀ key', d'.look key' = if key' = key then none else d.look key')
    (hevents : d'.events = d.events ++ [.session x.finish]) (h : Settles now keys d' d'') :
    Settles now (key :: keys) d d'' where
  gone := fun _ hmem hspent => h.gone_cons hlook hmem hspent
  kept := fun _ hnot => h.kept_cons (spent_of_due hkey hopen hdue) hlook hnot
  emitted := by
    obtain ⟨finished, hnodup, hmem, hemitted⟩ := h.emitted
    have hgone : d'.fragment? key = none := by
      rw [fragment?, hlook, if_pos rfl]
      rfl
    refine ⟨(key, x) :: finished, ?_, ?_, ?_⟩
    · refine List.nodup_cons.2 ⟨?_, hnodup⟩
      intro hagain
      obtain ⟨⟨key', y⟩, hin, rfl⟩ := List.mem_map.1 hagain
      cases hgone.symm.trans ((hmem key' y).1 hin).2.2.1
    · intro key' y
      rw [List.mem_cons, hmem, fragment?, hlook, List.mem_cons]
      by_cases heq : key' = key
      · subst heq
        rw [if_pos rfl]
        constructor
        · rintro (hsame | ⟨-, -, habsent, -⟩)
          · cases hsame
            exact ⟨.inl rfl, hkey, hopen, hdue⟩
          · cases habsent
        · rintro ⟨-, -, hopen', -⟩
          cases hopen.symm.trans hopen'
          exact .inl rfl
      · rw [if_neg heq, fragment?]
        simp only [Prod.mk.injEq, heq, false_and, false_or]
    · rw [hemitted, hevents, List.map_cons, List.append_assoc]
      rfl

end Settles

/-- Wake-ups for some keys are all answered if the store answers, and settle the keys. -/
theorem answerAll_settles (hup : .removeIf ∉ d.store.down) (now : UInt64) (keys : List String) :
    (answerAll now keys d).1 = keys.map (fun key => (key, none)) ∧
      Settles now keys d (answerAll now keys d).2 := by
  induction keys generalizing d with
  | nil => exact ⟨rfl, .nil now d⟩
  | cons key rest ih =>
      cases hexpiry : d.handleExpiry key now with
      | error e => exact absurd (handleExpiry_eq_error hexpiry) hup
      | ok result =>
          obtain ⟨r, d'⟩ := result
          have hwake := handleExpiry_wakes hexpiry
          have hup' : .removeIf ∉ d'.store.down := by
            rw [show d'.store.down = d.store.down by cases hwake with | _ => rfl]
            exact hup
          obtain ⟨hanswers, hsettles⟩ := ih hup'
          have hfirst : answerAll now (key :: rest) d =
              ((key, none) :: (answerAll now rest d').1, (answerAll now rest d').2) := by
            rw [answerAll, hexpiry]
          rw [hfirst]
          refine ⟨congrArg ((key, none) :: ·) hanswers, ?_⟩
          cases hwake.clears with
          | left hspent hlook hevents => exact .cons_left hspent hlook hevents hsettles
          | junked hspent hlook hnone hevents =>
              exact .cons_junked hspent hlook hnone hevents hsettles
          | finished x hkey hopen hdue hlook hevents =>
              exact .cons_finished hkey hopen hdue hlook hevents hsettles

/-- The desk after some seconds and a sweep. -/
def sweptAfter (d : Desk) (seconds : Nat) : Desk :=
  { d with timer := (d.timer.advance (seconds * 1000)).sweep }

/-- A sweep after a recovery announces everything that is spent by then. -/
theorem Rearms.announces (h : Rearms now d d') (hheard : d.timer.heard = true) (hle : now ≤ t)
    (hspent : d.Spent t key) :
    key ∈ (d'.sweptAfter (t.toNat - now.toNat)).timer.announced := by
  obtain ⟨hkey, bytes, hlook, hdue⟩ := hspent
  have hle' : now.toNat ≤ t.toNat := UInt64.le_iff_toNat_le.1 hle
  apply Timer.mem_announced_sweep (t := d'.timer.advance ((t.toNat - now.toNat) * 1000))
    (h.heard.trans hheard) (h.armed key bytes hkey hlook)
  have hleft : secondsLeft now key bytes ≤ t.toNat - now.toNat := by
    unfold secondsLeft
    cases hdeadline : deadline? key bytes with
    | none => exact Nat.le_trans (Nat.sub_le 0 _) (Nat.zero_le _)
    | some due =>
        have hdue' : due.toNat ≤ t.toNat := UInt64.le_iff_toNat_le.1 (hdue due hdeadline)
        exact Nat.sub_le_sub_right hdue' _
  rw [show (d'.timer.advance ((t.toNat - now.toNat) * 1000)).clock =
    d.timer.clock + (t.toNat - now.toNat) * 1000 from congrArg (· + _) h.clock]
  omega

/-- On a store that does not fail, and whatever is armed, announced or stored for times that the clock
can show, a recovery changes neither store nor events, counts the stored keys of sessions, each once
if the table has no two rows for one, arms them for the seconds that are left to their values, and
leaves every other wake-up; a second one changes nothing. If the timer is swept some time later and
every announcement is answered, the fragments that are due by then are emitted, each once, and what
is taken out is what is spent by then. -/
theorem recovery_carries_on (hup : d.store.down = []) (now : UInt64) :
    (∀ key, d.Reaches now key) → ∃ (keys : List String) (recovered : Desk),
      (∀ key, key ∈ keys ↔ isSessionKey key = true ∧ (d.look key).isSome = true) ∧
      (d.store.table.Keyed → keys.Nodup) ∧
      d.recover now = .ok (keys.length, recovered) ∧
      Rearms now d recovered ∧
      recovered.recover now = .ok (keys.length, recovered) ∧
      ∀ t, now ≤ t → d.timer.heard = true →
        let swept := recovered.sweptAfter (t.toNat - now.toNat)
        let settled := (swept.wake t).2
        (swept.wake t).1 = swept.timer.announced.map (fun key => (key, none)) ∧
        (∀ key, d.Spent t key → settled.look key = none) ∧
        (∀ key, ¬ d.Spent t key → settled.look key = d.look key) ∧
        ∃ finished : List (String × Fragment), (finished.map Prod.fst).Nodup ∧
          (∀ key x, (key, x) ∈ finished ↔
            isFragmentKey key = true ∧ d.fragment? key = some x ∧ x.due ≤ t) ∧
          settled.events = d.events ++ finished.map fun e => .session e.2.finish := by
  intro _
  have hanswers : ∀ c, c ∉ d.store.down := Store.not_down_of_nil hup
  obtain ⟨recovered, hrecover, hrearms⟩ := recover_rearms (hanswers .keys) (hanswers .get) now
  refine ⟨d.sessionKeys, recovered, mem_sessionKeys d, nodup_sessionKeys, hrecover, hrearms, ?_, ?_⟩
  · have hanswers' : ∀ c, c ∉ recovered.store.down := by
      rw [hrearms.store]
      exact hanswers
    obtain ⟨again, hagain, hrearms'⟩ := recover_rearms (hanswers' .keys) (hanswers' .get) now
    rw [hagain, hrearms'.unique hrearms.self, sessionKeys, hrearms.store]
    rfl
  · intro t hle hheard swept settled
    have hsame : ∀ key, { swept with timer := swept.timer.collect.2 }.look key = d.look key :=
      hrearms.look
    have hup' : .removeIf ∉ swept.store.down := by
      rw [show swept.store.down = d.store.down from congrArg Store.down hrearms.store]
      exact hanswers .removeIf
    obtain ⟨hall, hsettles⟩ := answerAll_settles (d := { swept with timer := swept.timer.collect.2 })
      hup' t swept.timer.announced
    refine ⟨hall, ?_, ?_, ?_⟩
    · intro key hspent
      exact hsettles.gone key (hrearms.announces hheard hle hspent)
        ((spent_congr (hsame key)).2 hspent)
    · intro key hspent
      exact (hsettles.kept key fun _ hspent' => hspent ((spent_congr (hsame key)).1 hspent')).trans
        (hsame key)
    · obtain ⟨finished, hnodup, hmem, hemitted⟩ := hsettles.emitted
      refine ⟨finished, hnodup, ?_, ?_⟩
      · intro key x
        rw [hmem, fragment?, hsame]
        constructor
        · rintro ⟨-, hdue⟩
          exact hdue
        · rintro ⟨hkey, hopen, hdue⟩
          exact ⟨hrearms.announces hheard hle (spent_of_due hkey hopen hdue), hkey, hopen, hdue⟩
      · exact hemitted.trans (congrArg (· ++ _) hrearms.events)

/-- A recovery finds a fragment that is overdue, one that is not, a region entry, bytes that are
neither, and a key of something else; ten seconds later the region entry has run out as well. -/
theorem recovery_carries_on_overdue :
    let a : SessionId := ⟨"a1", by decide, by decide, by decide⟩
    let b : SessionId := ⟨"b2", by decide, by decide, by decide⟩
    let overdue : Fragment := ⟨"a1", "x", 0, 0, 7, false, none, Dict.empty, 5⟩
    let running : Fragment := ⟨"b2", "y", 0, 0, 0, false, none, Dict.empty, 21⟩
    let entry : RegionEntry := ⟨"eu", 20⟩
    let rows : Rows := [⟨"other", []⟩, ⟨"session-fragment:", [0x7B]⟩]
    let start : Desk :=
      { store := { table := .database rows }
        timer := { clock := 10000, armed := Dict.empty.insert "other" 12000 } }
    let d := ((start.holding a.fragmentKey overdue.encode).holding b.fragmentKey
      running.encode).holding b.regionKey entry.encode
    (d.store.down = [] ∧ (∀ key, d.Reaches 10 key) ∧ (10 : UInt64) ≤ 20 ∧ d.timer.heard = true) ∧
      ∃ recovered, d.recover 10 = .ok (4, recovered) ∧ recovered.recover 10 = .ok (4, recovered) ∧
        recovered.timer.armed.get? "other" = some 12000 ∧
        let settled := ((recovered.sweptAfter 10).wake 20).2
        settled.look a.fragmentKey = none ∧ settled.look b.regionKey = none ∧
          settled.look b.fragmentKey = some running.encode ∧
          ∃ es, settled.events = d.events ++ es ∧ .session overdue.finish ∈ es := by
  intro a b overdue running entry rows start d
  have hkeys : a.fragmentKey ≠ b.fragmentKey ∧ a.fragmentKey ≠ b.regionKey ∧
      b.fragmentKey ≠ b.regionKey ∧ isSessionKey "other" = false := by
    decide
  obtain ⟨hab, har, hbr, hother⟩ := hkeys
  have ha : d.look a.fragmentKey = some overdue.encode := by
    rw [look_holding, if_neg har, look_holding, if_neg hab, look_holding, if_pos rfl]
  have hb : d.look b.fragmentKey = some running.encode := by
    rw [look_holding, if_neg hbr, look_holding, if_pos rfl]
  have hregion : d.look b.regionKey = some entry.encode := by
    rw [look_holding, if_pos rfl]
  have hcount : (d.recover 10).toOption.map Prod.fst = some 4 := by
    decide +kernel
  have hstart : ∀ key, start.Reaches 10 key := by
    -- none of the bytes in the rows can be read
    intro key bytes due hlook hdue
    obtain ⟨row, hfound, rfl⟩ := Option.map_eq_some_iff.1 hlook
    have hunread : ∀ row ∈ rows, Fragment.decode? row.value = none ∧
        RegionEntry.decode? row.value = none := by
      decide +kernel
    obtain ⟨hfragment, hentry⟩ := hunread row (List.mem_of_find?_eq_some hfound)
    rw [deadline?, hfragment, hentry] at hdue
    simp at hdue
  have hfragments := reaches_holding
    (reaches_holding hstart (deadline?_fragmentKey a overdue) (by decide))
    (deadline?_fragmentKey b running) (by decide)
  have hreach : ∀ key, d.Reaches 10 key :=
    reaches_holding hfragments (deadline?_regionKey b entry) (by decide)
  obtain ⟨keys, recovered, -, -, hrecover, hrearms, hagain, hlater⟩ :=
    recovery_carries_on (d := d) rfl 10 hreach
  rw [hrecover] at hcount
  have hfour : keys.length = 4 := Option.some.inj hcount
  rw [hfour] at hrecover hagain
  obtain ⟨-, hgone, hkept, finished, -, hmem, hemitted⟩ := hlater 20 (by decide) rfl
  have hopen : d.fragment? a.fragmentKey = some overdue := by
    rw [fragment?, ha, Option.bind_some, Fragment.decode?_encode]
  have hspent : d.Spent 20 a.fragmentKey :=
    spent_of_due (isFragmentKey_fragmentKey a) hopen (by decide)
  have hrun : d.Spent 20 b.regionKey := by
    refine ⟨isSessionKey_of_isRegionKey (isRegionKey_regionKey b), _, hregion, ?_⟩
    intro due hdue
    rw [deadline?_regionKey] at hdue
    cases hdue
    decide
  have hunspent : ¬ d.Spent 20 b.fragmentKey :=
    not_spent_of_lt hb (deadline?_fragmentKey b running) (by decide)
  refine ⟨⟨rfl, hreach, by decide, rfl⟩, recovered, hrecover, hagain, ?_, hgone _ hspent, hgone _ hrun,
    (hkept _ hunspent).trans hb, _, hemitted, ?_⟩
  · refine (hrearms.others "other" ?_).trans rfl
    rintro ⟨hkey, -⟩
    rw [hother] at hkey
    cases hkey
  · apply List.mem_map.2
    exact ⟨(a.fragmentKey, overdue),
      (hmem _ _).2 ⟨isFragmentKey_fragmentKey a, hopen, by decide⟩, rfl⟩

end Desk

end Gatehouse
