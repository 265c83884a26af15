import Gatehouse.Proofs.Provenance
import Gatehouse.Proofs.Recovery

/-!
# Bytes that hold no fragment

Whatever lies under the key of a session's fragment, the session goes on: bytes that cannot be read
count as no fragment. The next visit puts a fragment in their place, the next wake-up removes them, a
recovery wakes up for them at once, and no record is ever made of them.
-/

namespace Gatehouse

namespace Desk

variable {d d' : Desk} {id : SessionId} {key : String} {x : Fragment} {bytes : Bytes}

/-- A fragment lies under a key, as bytes that can be read; nothing was emitted, and nothing else was
stored or taken out. -/
structure Mends (key : String) (x : Fragment) (d d' : Desk) : Prop where
  stored : d'.look key = some x.encode
  readable : d'.fragment? key = some x
  events : d'.events = d.events
  others : ∀ key', key' ≠ key → d'.look key' = d.look key'

theorem mends_keeping (d : Desk) (key : String) (x : Fragment) (window : UInt64) :
    Mends key x d (d.keeping key x window) where
  stored := (look_keeping key x).trans (if_pos rfl)
  readable := fragment?_keeping d key x window
  events := rfl
  others := fun key' hne => (look_keeping key' x).trans (if_neg hne)

/-- A key holds nothing any more, and all else is as it was. -/
structure Discards (key : String) (d d' : Desk) : Prop where
  gone : d'.look key = none
  others : ∀ key', key' ≠ key → d'.look key' = d.look key'
  down : d'.store.down = d.store.down
  reason : d'.store.reason = d.store.reason
  events : d'.events = d.events
  timer : d'.timer = d.timer

theorem discards_without (d : Desk) (key : String) : Discards key d (d.without key) where
  gone := (look_without d key key).trans (if_pos rfl)
  others := fun key' hne => (look_without d key key').trans (if_neg hne)
  down := rfl
  reason := rfl
  events := rfl
  timer := rfl

/-- A desk heals a session: its connect hands back nothing and opens a fragment, its reports open a
partial one of what they say, its wake-up discards what is stored and does nothing else, and a
recovery wakes up for it at once. -/
structure Heals (id : SessionId) (d : Desk) : Prop where
  connect : ∀ w tag fields now, ∃ d', d.connect w id tag fields now = .ok (none, d') ∧
    Mends id.fragmentKey
      { session := id.text, tag := tag, start := now, last := now, bytes := 0, isPartial := false
        lastSeq := none, fields := fields, due := capped now w.fragment } d d'
  status : ∀ w tag bytes seq now, ∃ d',
    d.status w id tag bytes seq now = .ok (.openedPartial, d') ∧
    Mends id.fragmentKey
      { session := id.text, tag := tag, start := now, last := now, bytes := bytes, isPartial := true
        lastSeq := seq, fields := Dict.empty, due := capped now w.fragment } d d'
  disconnect : ∀ w tag bytes seq now, ∃ d',
    d.disconnect w id tag bytes seq now = .ok (.openedPartial, d') ∧
    Mends id.fragmentKey
      { session := id.text, tag := tag, start := now, last := now, bytes := bytes, isPartial := true
        lastSeq := seq, fields := Dict.empty, due := capped now w.disconnect } d d'
  expiry : ∀ now, d.handleExpiry id.fragmentKey now = .ok (none, d.without id.fragmentKey)
  discards : Discards id.fragmentKey d (d.without id.fragmentKey)
  recover : ∀ now, ∃ n d', d.recover now = .ok (n, d') ∧ d'.store = d.store ∧
    d'.events = d.events ∧ d'.timer.armed.get? id.fragmentKey = some d.timer.clock

theorem connect_of_unreadable (hup : .update ∉ d.store.down)
    (hnone : d.fragment? id.fragmentKey = none) (w : Windows) (tag : String) (fields : Dict String)
    (now : UInt64) :
    d.connect w id tag fields now = .ok (none, d.keeping id.fragmentKey
      ((Fragment.opened id.text tag fields now).extend now w.fragment) w.fragment) := by
  cases hconnect : d.connect w id tag fields now with
  | error e => exact absurd (connect_eq_error hconnect) hup
  | ok result =>
      obtain ⟨flushed, d'⟩ := result
      obtain ⟨-, rfl, rfl⟩ | ⟨f, hopen, -, -⟩ := connect_cases hconnect
      · rfl
      · cases hnone.symm.trans hopen

theorem report_of_unreadable (hup : .update ∉ d.store.down)
    (hnone : d.fragment? id.fragmentKey = none) (tag : String) (r : Report) :
    d.report id tag r = .ok (.openedPartial, d.keeping id.fragmentKey
      ((Fragment.openedPartial id.text tag r.now r.bytes r.seq).extend r.now r.window) r.window) := by
  cases hreport : d.report id tag r with
  | error e => exact absurd (report_eq_error hreport) hup
  | ok result =>
      obtain ⟨outcome, d'⟩ := result
      obtain ⟨-, rfl, rfl⟩ | ⟨f, hopen, -⟩ := report_cases hreport
      · rfl
      · cases hnone.symm.trans hopen

theorem handleExpiry_of_unreadable (hup : .removeIf ∉ d.store.down)
    (hlook : d.look id.fragmentKey = some bytes) (hdecode : Fragment.decode? bytes = none)
    (now : UInt64) :
    d.handleExpiry id.fragmentKey now = .ok (none, d.without id.fragmentKey) := by
  have hwake : Wakes id.fragmentKey now d none (d.without id.fragmentKey) :=
    .unreadable (isFragmentKey_fragmentKey id) hlook hdecode
  rw [handleExpiry_of_up hup, hwake.eq_wakened]

theorem secondsLeft_of_unreadable (hdecode : Fragment.decode? bytes = none) (now : UInt64) :
    secondsLeft now id.fragmentKey bytes = 0 := by
  rw [secondsLeft, deadline?_of_isFragmentKey (isFragmentKey_fragmentKey id), hdecode]
  exact Nat.zero_sub now.toNat

/-- Bytes that hold no fragment are healed by whatever comes first. -/
theorem heals_of_unreadable (hup : d.store.down = []) (hlook : d.look id.fragmentKey = some bytes)
    (hdecode : Fragment.decode? bytes = none) : Heals id d := by
  have hanswers : ∀ c, c ∉ d.store.down := Store.not_down_of_nil hup
  have hnone : d.fragment? id.fragmentKey = none := by
    rw [fragment?, hlook]
    exact hdecode
  refine ⟨?_, ?_, ?_, ?_, discards_without d id.fragmentKey, ?_⟩
  · intro w tag fields now
    exact ⟨_, connect_of_unreadable (hanswers _) hnone w tag fields now, mends_keeping _ _ _ _⟩
  · intro w tag bytes seq now
    exact ⟨_, report_of_unreadable (hanswers _) hnone tag ⟨now, bytes, seq, w.fragment⟩,
      mends_keeping _ _ _ _⟩
  · intro w tag bytes seq now
    exact ⟨_, report_of_unreadable (hanswers _) hnone tag ⟨now, bytes, seq, w.disconnect⟩,
      mends_keeping _ _ _ _⟩
  · exact handleExpiry_of_unreadable (hanswers _) hlook hdecode
  · intro now
    obtain ⟨d', hrecover, hrearms⟩ := recover_rearms (hanswers .keys) (hanswers .get) now
    refine ⟨_, d', hrecover, hrearms.store, hrearms.events, ?_⟩
    rw [hrearms.armed _ _ (isSessionKey_of_isFragmentKey (isFragmentKey_fragmentKey id)) hlook,
      secondsLeft_of_unreadable hdecode, Nat.zero_mul, Nat.add_zero]

end Desk

/-- Whatever is stored, bytes under the key of a fragment that hold none are healed; and in every
history from any fleet, each record that is emitted is that of a fragment that was read from bytes
that the store held, under the key of a fragment, at one of its moments. -/
theorem unreadable_heals_unreported :
    (∀ (d : Desk) (id : SessionId) (bytes : Bytes), d.store.down = [] →
      d.look id.fragmentKey = some bytes → Fragment.decode? bytes = none → d.Heals id) ∧
    ∀ (f : Fleet) (steps : List Step), ∃ news, (f.after steps).events = f.events ++ news ∧
      ∀ r, .session r ∈ news → ∃ g ∈ f.passed steps, ∃ key bytes x,
        Desk.isFragmentKey key = true ∧ g.store.table.get? key = some bytes ∧
        Fragment.decode? bytes = some x ∧ r = x.finish :=
  ⟨fun _ _ _ hup hlook hdecode => Desk.heals_of_unreadable hup hlook hdecode,
    fun f steps => f.after_drawsFrom steps⟩

/-- A session finds bytes that are no fragment, connects nevertheless, and is flushed by a wake-up on
the other front end; the record is that of the fragment of its connect. -/
theorem unreadable_heals_on_connect :
    let id : SessionId := ⟨"a1", by decide, by decide, by decide⟩
    let f : Fleet := { Fleet.pair with
      store := { table := .memory (Dict.empty.insert id.fragmentKey [0x7B]) } }
    let steps : List Step :=
      [.visit 0 ⟨id, .connect Dict.empty, 5, "x"⟩, .expire 1 id.fragmentKey 3000 []]
    let d := f.deskWith { clock := 0 }
    (d.store.down = [] ∧ d.look id.fragmentKey = some [0x7B] ∧ Fragment.decode? [0x7B] = none) ∧
      d.Heals id ∧
      (f.after steps).events =
        [.session ⟨"a1", "x", 5, 5, 0, 0, false, Dict.empty⟩] ∧
      ∃ g ∈ f.passed steps, g.store.table.Holds ⟨"a1", "x", 5, 5, 0, 0, false, Dict.empty⟩ := by
  intro id f steps d
  have hrun : d.look id.fragmentKey = some [0x7B] ∧ Fragment.decode? [0x7B] = none ∧
      (f.after steps).events = [.session ⟨"a1", "x", 5, 5, 0, 0, false, Dict.empty⟩] := by
    decide +kernel
  obtain ⟨hlook, hdecode, hevents⟩ := hrun
  obtain ⟨news, hnews, hheld⟩ := unreadable_heals_unreported.2 f steps
  have hmem : .session ⟨"a1", "x", 5, 5, 0, 0, false, Dict.empty⟩ ∈ news := by
    have hsame : news = (f.after steps).events := hnews.symm
    rw [hsame, hevents]
    exact List.mem_cons_self
  exact ⟨⟨rfl, hlook, hdecode⟩, unreadable_heals_unreported.1 d id _ rfl hlook hdecode, hevents,
    hheld _ hmem⟩

end Gatehouse
