import Gatehouse.Proofs.Session.Codec
import Gatehouse.Proofs.Session.Key
import Gatehouse.Proofs.Store
import Gatehouse.Proofs.Timer
import Gatehouse.Tracker

/-!
# What each tracker operation does

An operation that succeeds does one of a few things to the store, the timer and the events. The
cases are listed here once, guards included, so that later arguments about runs need no operation's
text.
-/

namespace Gatehouse

namespace Desk

/-- The desk after a value was put under a key of its store. -/
def holding (d : Desk) (key : String) (value : Bytes) : Desk :=
  { d with store := { d.store with table := d.store.table.put key value } }

/-- The desk after a key was taken out of its store. -/
def without (d : Desk) (key : String) : Desk :=
  { d with store := { d.store with table := d.store.table.remove key } }

/-- The value under a key of a desk's store. -/
def look (d : Desk) (key : String) : Option Bytes := d.store.table.get? key

section Views

variable (d : Desk) (key key' : String) (value : Bytes) (seconds : UInt64) (e : Event)

@[simp] theorem look_holding :
    (d.holding key value).look key' = if key' = key then some value else d.look key' :=
  Table.get?_put d.store.table key key' value

@[simp] theorem look_without :
    (d.without key).look key' = if key' = key then none else d.look key' :=
  Table.get?_remove d.store.table key key'

@[simp] theorem look_arm : (d.arm key seconds).look key' = d.look key' := rfl

@[simp] theorem look_emit : (d.emit e).look key' = d.look key' := rfl

@[simp] theorem events_without : (d.without key).events = d.events := rfl

@[simp] theorem events_emit : (d.emit e).events = d.events ++ [e] := rfl

end Views

/-- The fragment that is open under a key of a desk's store. -/
def fragment? (d : Desk) (key : String) : Option Fragment := (d.look key).bind Fragment.decode?

/-- The desk after a fragment was put under a key and a wake-up was armed for it. -/
def keeping (d : Desk) (key : String) (f : Fragment) (window : UInt64) : Desk :=
  (d.holding key f.encode).arm key window

variable {d d' : Desk} {w : Windows} {id : SessionId} {tag key region : String}
variable {fields : Dict String} {now window : UInt64} {flushed : Option SessionRecord}
variable {r : Report} {outcome : ReportOutcome}

theorem look_ne_none {f : Fragment} (hopen : d.fragment? key = some f) : d.look key ≠ none := by
  intro hnone
  rw [fragment?, hnone] at hopen
  cases hopen

@[simp] theorem look_keeping (key' : String) (f : Fragment) :
    (d.keeping key f window).look key' = if key' = key then some f.encode else d.look key' :=
  look_holding d key key' f.encode

theorem fragment?_keeping (d : Desk) (key : String) (f : Fragment) (window : UInt64) :
    (d.keeping key f window).fragment? key = some f := by
  rw [fragment?, look_keeping, if_pos rfl]
  exact Fragment.decode?_encode f

theorem fragment?_without (d : Desk) (key : String) : (d.without key).fragment? key = none := by
  rw [fragment?, look_without, if_pos rfl]
  rfl

theorem finish_of_decode {bytes : Bytes} {f : Fragment} (h : Fragment.decode? bytes = some f) :
    d.finish bytes = (some f.finish, d.emit (.session f.finish)) := by
  simp only [finish, h]

theorem finish_of_not_decode {bytes : Bytes} (h : Fragment.decode? bytes = none) :
    d.finish bytes = (none, d) := by
  simp only [finish, h]

/-- A connect puts a new fragment in place, wakes up at its deadline, and finishes the fragment that
was there. -/
theorem connect_cases (h : d.connect w id tag fields now = .ok (flushed, d')) :
    let fresh := (Fragment.opened id.text tag fields now).extend now w.fragment
    (d.fragment? id.fragmentKey = none ∧ flushed = none ∧
      d' = d.keeping id.fragmentKey fresh w.fragment) ∨
    ∃ f, d.fragment? id.fragmentKey = some f ∧ flushed = some f.finish ∧
      d' = (d.keeping id.fragmentKey fresh w.fragment).emit (.session f.finish) := by
  simp only [connect] at h
  split at h
  · cases h
  · rename_i found store hupdate
    obtain ⟨-, rfl, rfl⟩ := Store.update_eq_ok hupdate
    unfold fragment? look
    cases hfound : d.store.table.get? id.fragmentKey with
    | none =>
        simp only [hfound] at h
        cases h
        exact .inl ⟨rfl, rfl, rfl⟩
    | some bytes =>
        simp only [hfound] at h
        cases hdecode : Fragment.decode? bytes with
        | none =>
            rw [finish_of_not_decode hdecode] at h
            cases h
            exact .inl ⟨hdecode, rfl, rfl⟩
        | some f =>
            rw [finish_of_decode hdecode] at h
            cases h
            exact .inr ⟨f, hdecode, rfl, rfl⟩

theorem connect_eq_error {e : Unavailable} (h : d.connect w id tag fields now = .error e) :
    .update ∈ d.store.down := by
  simp only [connect] at h
  split at h
  · rename_i hupdate
    exact (Store.update_eq_error hupdate).1
  · split at h
    · cases h
    · cases h

/-- A report opens a partial fragment, is folded into the open one, or leaves the desk as it was. -/
theorem report_cases (h : d.report id tag r = .ok (outcome, d')) :
    (d.fragment? id.fragmentKey = none ∧ outcome = .openedPartial ∧
      d' = d.keeping id.fragmentKey
        ((Fragment.openedPartial id.text tag r.now r.bytes r.seq).extend r.now r.window) r.window) ∨
    ∃ f, d.fragment? id.fragmentKey = some f ∧
      ((f.accepts r.seq = true ∧ outcome = .applied ∧
        d' = d.keeping id.fragmentKey
          ((f.apply r.now r.bytes r.seq).extend r.now r.window) r.window) ∨
      (f.accepts r.seq = false ∧ outcome = .duplicate ∧ d' = d)) := by
  unfold report at h
  split at h
  · cases h
  · rename_i found store hupdate
    obtain ⟨-, hfound, rfl⟩ := Store.update_eq_ok hupdate
    have hfragment : d.fragment? id.fragmentKey = found.bind Fragment.decode? := by
      rw [hfound]
      rfl
    rw [hfragment]
    cases hf : found.bind Fragment.decode? with
    | none =>
        simp only [Report.fold, hf, Option.map_some, Store.change] at h
        cases h
        exact .inl ⟨rfl, rfl, rfl⟩
    | some f =>
        refine .inr ⟨f, rfl, ?_⟩
        cases haccepts : f.accepts r.seq with
        | true =>
            simp only [Report.fold, hf, haccepts, ↓reduceIte, Option.map_some, Store.change] at h
            cases h
            exact .inl ⟨rfl, rfl, rfl⟩
        | false =>
            simp only [Report.fold, hf, haccepts, Bool.false_eq_true, ↓reduceIte, Option.map_none,
              Store.change] at h
            cases h
            exact .inr ⟨rfl, rfl, rfl⟩

theorem report_eq_error {e : Unavailable} (h : d.report id tag r = .error e) :
    .update ∈ d.store.down := by
  unfold report at h
  split at h
  · rename_i hupdate
    exact (Store.update_eq_error hupdate).1
  · split at h
    · cases h
    · cases h

/-- What the wake-up for a key does: it is ignored or finds nothing, or it takes out what is due or
unreadable, or it is armed again for the time left. -/
inductive Wakes (key : String) (now : UInt64) (d : Desk) : Option SessionRecord → Desk → Prop
  | ignored (hfragment : isFragmentKey key = false) (hregion : isRegionKey key = false) :
      Wakes key now d none d
  | absent (hlook : d.look key = none) : Wakes key now d none d
  | unreadable {bytes : Bytes} (hfragment : isFragmentKey key = true)
      (hlook : d.look key = some bytes) (hdecode : Fragment.decode? bytes = none) :
      Wakes key now d none (d.without key)
  | flushed {f : Fragment} (hfragment : isFragmentKey key = true)
      (hopen : d.fragment? key = some f) (hdue : f.due ≤ now) :
      Wakes key now d (some f.finish) ((d.without key).emit (.session f.finish))
  | early {f : Fragment} (hfragment : isFragmentKey key = true)
      (hopen : d.fragment? key = some f) (hdue : now < f.due) :
      Wakes key now d none (d.arm key (f.due - now))
  | stale {bytes : Bytes} (hregion : isRegionKey key = true) (hlook : d.look key = some bytes)
      (hleft : RegionEntry.left? bytes now = none) :
      Wakes key now d none (d.without key)
  | fresh {bytes : Bytes} {left : UInt64} (hregion : isRegionKey key = true)
      (hlook : d.look key = some bytes) (hleft : RegionEntry.left? bytes now = some left) :
      Wakes key now d none (d.arm key left)

/-- What the wake-up for a key finds under it tells what it does. -/
def wakened (key : String) (now : UInt64) (d : Desk) : Option SessionRecord × Desk :=
  match d.look key with
  | none => (none, d)
  | some bytes =>
      if isFragmentKey key then
        match Fragment.decode? bytes with
        | none => (none, d.without key)
        | some f =>
            if f.due ≤ now then (some f.finish, (d.without key).emit (.session f.finish))
            else (none, d.arm key (f.due - now))
      else if isRegionKey key then
        match RegionEntry.left? bytes now with
        | none => (none, d.without key)
        | some left => (none, d.arm key left)
      else (none, d)

theorem Wakes.eq_wakened (h : Wakes key now d flushed d') : d.wakened key now = (flushed, d') := by
  unfold wakened
  cases h with
  | ignored hfragment hregion =>
      rw [hfragment, hregion]
      cases d.look key with
      | none => rfl
      | some bytes => rfl
  | absent hlook => rw [hlook]
  | unreadable hfragment hlook hdecode => simp only [hlook, hfragment, ↓reduceIte, hdecode]
  | flushed hfragment hopen hdue =>
      obtain ⟨bytes, hlook, hdecode⟩ := Option.bind_eq_some_iff.1 hopen
      simp only [hlook, hfragment, ↓reduceIte, hdecode, hdue]
  | early hfragment hopen hdue =>
      obtain ⟨bytes, hlook, hdecode⟩ := Option.bind_eq_some_iff.1 hopen
      simp only [hlook, hfragment, ↓reduceIte, hdecode, UInt64.not_le.2 hdue]
  | stale hregion hlook hleft =>
      simp only [hlook, isFragmentKey_of_isRegionKey hregion, Bool.false_eq_true, ↓reduceIte,
        hregion, hleft]
  | fresh hregion hlook hleft =>
      simp only [hlook, isFragmentKey_of_isRegionKey hregion, Bool.false_eq_true, ↓reduceIte,
        hregion, hleft]

/-- A wake-up does one thing. -/
theorem Wakes.unique {flushed' : Option SessionRecord} {d'' : Desk}
    (h : Wakes key now d flushed d') (h' : Wakes key now d flushed' d'') :
    flushed = flushed' ∧ d' = d'' := by
  have hsame := h.eq_wakened.symm.trans h'.eq_wakened
  cases hsame
  exact ⟨rfl, rfl⟩

/-- A wake-up leaves what is stored under other keys than its own. -/
theorem look_of_wakes {key' : String} (h : Wakes key now d flushed d') (hne : key' ≠ key) :
    d'.look key' = d.look key' := by
  cases h with
  | unreadable hfragment hlook hdecode => exact (look_without d key key').trans (if_neg hne)
  | flushed hfragment hopen hdue => exact (look_without d key key').trans (if_neg hne)
  | stale hregion hlook hleft => exact (look_without d key key').trans (if_neg hne)
  | _ => rfl

/-- A value that passes the test of a removal is taken out. -/
theorem removal_of_test {test : Bytes → Bool} {bytes : Bytes} (hlook : d.look key = some bytes)
    (htest : test bytes = true) :
    ({ d with store := { d.store with table := Store.removal d.store.table key test } } : Desk) =
      d.without key := by
  unfold Store.removal
  rw [show d.store.table.get? key = some bytes from hlook]
  simp only [Option.any_some, htest, ↓reduceIte]
  rfl

/-- A value that does not pass the test of a removal stays. -/
theorem removal_of_not_test {test : Bytes → Bool} (h : (d.look key).any test = false) :
    ({ d with store := { d.store with table := Store.removal d.store.table key test } } : Desk) =
      d := by
  unfold Store.removal
  rw [show (d.store.table.get? key).any test = false from h]
  rfl

theorem flushIfDue_wakes (hkey : isFragmentKey key = true)
    (h : d.flushIfDue key now = .ok (flushed, d')) : Wakes key now d flushed d' := by
  unfold flushIfDue at h
  split at h
  · cases h
  · rename_i store hremove
    obtain ⟨-, hfound, rfl⟩ := Store.removeIf_eq_ok hremove
    have hlook : d.look key = none := hfound.symm
    rw [removal_of_not_test (by rw [hlook]; rfl)] at h
    cases h
    exact .absent hlook
  · rename_i bytes store hremove
    obtain ⟨-, hfound, rfl⟩ := Store.removeIf_eq_ok hremove
    have hlook : d.look key = some bytes := hfound.symm
    split at h
    · rename_i hdecode
      have hfinal : isFinal now bytes = true := by simp only [isFinal, hdecode]
      rw [removal_of_test hlook hfinal] at h
      cases h
      exact .unreadable hkey hlook hdecode
    · rename_i f hdecode
      have hopen : d.fragment? key = some f := by rw [fragment?, hlook]; exact hdecode
      split at h
      · rename_i hdue
        have hfinal : isFinal now bytes = true := by simp only [isFinal, hdecode, hdue]
        rw [removal_of_test hlook hfinal, finish_of_decode hdecode] at h
        cases h
        exact .flushed hkey hopen (of_decide_eq_true hdue)
      · rename_i hdue
        have hfinal : (d.look key).any (isFinal now) = false := by
          simp only [hlook, Option.any_some, isFinal, hdecode]
          exact Bool.eq_false_iff.2 hdue
        rw [removal_of_not_test hfinal] at h
        cases h
        have hlater : ¬ f.due ≤ now := fun hle => hdue (decide_eq_true hle)
        exact .early hkey hopen (UInt64.not_le.1 hlater)

theorem dropIfStale_wakes (hkey : isRegionKey key = true) (h : d.dropIfStale key now = .ok d') :
    Wakes key now d none d' := by
  unfold dropIfStale at h
  split at h
  · cases h
  · rename_i found store hremove
    obtain ⟨-, hfound, rfl⟩ := Store.removeIf_eq_ok hremove
    have hlook : d.look key = found := hfound.symm
    cases hf : found with
    | none =>
        rw [hf] at hlook
        rw [removal_of_not_test (by rw [hlook]; rfl), hf] at h
        cases h
        exact .absent hlook
    | some bytes =>
        rw [hf] at hlook
        simp only [hf, Option.bind_some] at h
        cases hleft : RegionEntry.left? bytes now with
        | none =>
            have hstale : isStale now bytes = true := by
              simp only [isStale, hleft, Option.isNone_none]
            rw [removal_of_test hlook hstale] at h
            simp only [hleft] at h
            cases h
            exact .stale hkey hlook hleft
        | some left =>
            have hfresh : (d.look key).any (isStale now) = false := by
              simp only [hlook, Option.any_some, isStale, hleft, Option.isNone_some]
            rw [removal_of_not_test hfresh] at h
            simp only [hleft] at h
            cases h
            exact .fresh hkey hlook hleft

theorem handleExpiry_wakes (h : d.handleExpiry key now = .ok (flushed, d')) :
    Wakes key now d flushed d' := by
  unfold handleExpiry at h
  split at h
  · rename_i hkey
    exact flushIfDue_wakes hkey h
  · rename_i hfragment
    split at h
    · rename_i hkey
      split at h
      · cases h
      · rename_i hdrop
        cases h
        exact dropIfStale_wakes hkey hdrop
    · rename_i hregion
      cases h
      exact .ignored (Bool.eq_false_iff.2 hfragment) (Bool.eq_false_iff.2 hregion)

theorem handleExpiry_eq_error {e : Unavailable} (h : d.handleExpiry key now = .error e) :
    .removeIf ∈ d.store.down := by
  unfold handleExpiry at h
  split at h
  · unfold flushIfDue at h
    split at h
    · rename_i hremove
      exact Store.removeIf_eq_error hremove
    · cases h
    · split at h
      · cases h
      · split at h
        · cases h
        · cases h
  · split at h
    · split at h
      · rename_i hdrop
        unfold dropIfStale at hdrop
        split at hdrop
        · rename_i hremove
          exact Store.removeIf_eq_error hremove
        · split at hdrop
          · cases hdrop
          · cases hdrop
      · cases h
    · cases h

/-- If the store answers, a wake-up does what it finds under its key. -/
theorem handleExpiry_of_up (hup : .removeIf ∉ d.store.down) (key : String) (now : UInt64) :
    d.handleExpiry key now = .ok (d.wakened key now) := by
  cases hexpiry : d.handleExpiry key now with
  | error e => exact absurd (handleExpiry_eq_error hexpiry) hup
  | ok result =>
      obtain ⟨flushed, d'⟩ := result
      rw [(handleExpiry_wakes hexpiry).eq_wakened]

theorem noteRegion_eq_ok (h : d.noteRegion window id region now = .ok d') :
    d' = (d.holding id.regionKey (RegionEntry.encode ⟨region, now + window⟩)).arm
      id.regionKey window := by
  unfold noteRegion at h
  split at h
  · cases h
  · rename_i store hset
    obtain ⟨-, rfl⟩ := Store.set_eq_ok hset
    cases h
    rfl

theorem forgetRegion_eq_ok (h : d.forgetRegion id = .ok d') :
    d' = (d.without id.regionKey).disarm id.regionKey := by
  unfold forgetRegion at h
  split at h
  · cases h
  · rename_i found store hdelete
    obtain ⟨-, -, rfl⟩ := Store.delete_eq_ok hdelete
    cases h
    rfl

theorem noteRegion_of_up (hup : .set ∉ d.store.down) :
    d.noteRegion window id region now = .ok ((d.holding id.regionKey
      (RegionEntry.encode ⟨region, now + window⟩)).arm id.regionKey window) := by
  have hset : ∀ value, d.store.set id.regionKey value =
      .ok { d.store with table := d.store.table.put id.regionKey value } :=
    fun _ => Store.answer_of_up hup _
  rw [noteRegion, hset]
  rfl

theorem noteRegion_of_down (hdown : .set ∈ d.store.down) :
    d.noteRegion window id region now = .error ⟨d.store.reason⟩ := by
  have hset : ∀ value, d.store.set id.regionKey value = .error ⟨d.store.reason⟩ :=
    fun _ => Store.answer_of_down hdown _
  rw [noteRegion, hset]

theorem forgetRegion_of_up (hup : .delete ∉ d.store.down) :
    d.forgetRegion id = .ok ((d.without id.regionKey).disarm id.regionKey) := by
  have hdelete : d.store.delete id.regionKey = .ok (d.look id.regionKey,
      { d.store with table := d.store.table.remove id.regionKey }) :=
    Store.answer_of_up hup _
  rw [forgetRegion, hdelete]
  rfl

theorem region?_of_up (hup : .get ∉ d.store.down) :
    d.region? id now = .ok (((d.look id.regionKey).bind fun b =>
      RegionEntry.fresh? b now).map RegionEntry.region) := by
  have hget : d.store.get id.regionKey = .ok (d.look id.regionKey) := Store.answer_of_up hup _
  rw [region?, hget]

/-- A removal that succeeds takes out a value that passes its test, and nothing else. -/
theorem removeIf_cases {test : Bytes → Bool} {found : Option Bytes} {store : Store}
    (h : d.store.removeIf key test = .ok (found, store)) :
    found = d.look key ∧
      (found.any test = true ∧ ({ d with store := store } : Desk) = d.without key ∨
        found.any test = false ∧ ({ d with store := store } : Desk) = d) := by
  obtain ⟨-, rfl, rfl⟩ := Store.removeIf_eq_ok h
  refine ⟨rfl, ?_⟩
  cases hlook : d.look key with
  | none =>
      have hlook' : d.store.table.get? key = none := hlook
      rw [hlook']
      exact .inr ⟨rfl, removal_of_not_test (by rw [hlook]; rfl)⟩
  | some bytes =>
      have hlook' : d.store.table.get? key = some bytes := hlook
      rw [hlook']
      cases htest : test bytes with
      | true => exact .inl ⟨htest, removal_of_test hlook htest⟩
      | false => exact .inr ⟨htest, removal_of_not_test (by rw [hlook]; exact htest)⟩

/-- What every removal of a stale key together with its wake-up keeps true, a purge keeps true. -/
theorem purgeKeys_invariant {P : Desk → Prop} {keys : List String} {n : Nat}
    (hdrop : ∀ d key, key ∈ keys → (d.look key).any (isStale now) = true → P d →
      P ((d.without key).disarm key))
    (h : P d) (hpurge : purgeKeys now keys d = .ok (n, d')) : P d' := by
  induction keys generalizing d n with
  | nil =>
      cases hpurge
      exact h
  | cons key rest ih =>
      have hrest : ∀ d key', key' ∈ rest → (d.look key').any (isStale now) = true → P d →
          P ((d.without key').disarm key') :=
        fun d key' hmem => hdrop d key' (List.mem_cons_of_mem key hmem)
      unfold purgeKeys at hpurge
      split at hpurge
      · cases hpurge
      · rename_i found store hremove
        obtain ⟨hfound, ⟨hstale, hstore⟩ | ⟨hstale, hstore⟩⟩ := removeIf_cases hremove
        · rw [hstale, if_pos rfl] at hpurge
          split at hpurge
          · cases hpurge
          · rename_i n' d'' hpurged
            cases hpurge
            apply ih hrest _ hpurged
            rw [hstore]
            exact hdrop d key List.mem_cons_self (hfound ▸ hstale) h
        · rw [hstale, if_neg Bool.false_ne_true, hstore] at hpurge
          exact ih hrest h hpurge

/-- The keys that a stem lists are those of the stored values of its kind. -/
theorem mem_keys_fragmentStem (d : Desk) (key : String) :
    key ∈ d.store.table.keys SessionId.fragmentStem ↔
      (d.look key).isSome = true ∧ isFragmentKey key = true := by
  have hstem : ∀ c ∈ SessionId.fragmentStem.toList, (c != '\x00') = true := by
    simp [SessionId.fragmentStem]
  rw [Table.mem_keys_iff hstem, isFragmentKey, RegionTable.starts_iff]
  rfl

theorem mem_keys_regionStem (d : Desk) (key : String) :
    key ∈ d.store.table.keys SessionId.regionStem ↔
      (d.look key).isSome = true ∧ isRegionKey key = true := by
  have hstem : ∀ c ∈ SessionId.regionStem.toList, (c != '\x00') = true := by
    simp [SessionId.regionStem]
  rw [Table.mem_keys_iff hstem, isRegionKey, RegionTable.starts_iff]
  rfl

/-- A purge removes stale region entries and nothing else. -/
theorem purgeRegions_stale {P : Desk → Prop} {n : Nat}
    (hdrop : ∀ d key, isRegionKey key = true → (d.look key).any (isStale now) = true → P d →
      P ((d.without key).disarm key))
    (h : P d) (hpurge : d.purgeRegions now = .ok (n, d')) : P d' := by
  unfold purgeRegions at hpurge
  split at hpurge
  · cases hpurge
  · rename_i keys hkeys
    obtain ⟨-, rfl⟩ := Store.answer_eq_ok hkeys
    apply purgeKeys_invariant _ h hpurge
    intro e key hmem
    exact hdrop e key ((mem_keys_regionStem d key).1 hmem).2

/-- What every removal of a key together with its wake-up keeps true, a purge keeps true. -/
theorem purgeRegions_invariant {P : Desk → Prop}
    (hdrop : ∀ d key, P d → P ((d.without key).disarm key)) {n : Nat} (h : P d)
    (hpurge : d.purgeRegions now = .ok (n, d')) : P d' :=
  purgeRegions_stale (fun d key _ _ => hdrop d key) h hpurge

/-- Wake-ups for stored keys are armed by their values. -/
theorem armStored_of_up (h : .get ∉ d.store.down) (left : Option Bytes → UInt64)
    (keys : List String) :
    d.armStored left keys =
      .ok { d with timer := d.timer.armEach (fun key => left (d.look key)) keys } := by
  induction keys generalizing d with
  | nil => rfl
  | cons key rest ih =>
      have hget : d.store.get key = .ok (d.look key) := Store.answer_of_up h _
      unfold armStored
      rw [hget]
      exact ih (d := d.arm key (left (d.look key))) h

/-- A recovery arms a wake-up for every listed key, counts the keys, and changes nothing else. -/
theorem recover_eq (hkeys : .keys ∉ d.store.down) (hget : .get ∉ d.store.down) (now : UInt64) :
    d.recover now = .ok ((d.store.table.keys SessionId.fragmentStem).length +
        (d.store.table.keys SessionId.regionStem).length,
      { d with
        timer := (d.timer.armEach (fun key => fragmentLeft now (d.look key))
          (d.store.table.keys SessionId.fragmentStem)).armEach
            (fun key => regionLeft now (d.look key))
              (d.store.table.keys SessionId.regionStem) }) := by
  have hfragments : d.store.keys SessionId.fragmentStem =
      .ok (d.store.table.keys SessionId.fragmentStem) := Store.answer_of_up hkeys _
  have hregions : d.store.keys SessionId.regionStem =
      .ok (d.store.table.keys SessionId.regionStem) := Store.answer_of_up hkeys _
  have harm : ∀ (t : Timer) (left : Option Bytes → UInt64) (keys : List String),
      ({ d with timer := t } : Desk).armStored left keys =
        .ok { d with timer := t.armEach (fun key => left (d.look key)) keys } := by
    intro t left keys
    exact armStored_of_up (d := { d with timer := t }) hget left keys
  unfold recover
  rw [hfragments, hregions]
  dsimp only
  rw [armStored_of_up hget]
  dsimp only
  rw [harm]

theorem recover_of_up (hkeys : .keys ∉ d.store.down) (hget : .get ∉ d.store.down) (now : UInt64) :
    ∃ n, d.recover now = .ok (n,
      { d with
        timer := (d.timer.armEach (fun key => fragmentLeft now (d.look key))
          (d.store.table.keys SessionId.fragmentStem)).armEach
            (fun key => regionLeft now (d.look key))
              (d.store.table.keys SessionId.regionStem) }) :=
  ⟨_, recover_eq hkeys hget now⟩

/-- Arming wake-ups for stored keys changes the timer alone. -/
theorem armStored_frame {left : Option Bytes → UInt64} {keys : List String}
    (h : d.armStored left keys = .ok d') : d'.store = d.store ∧ d'.events = d.events := by
  induction keys generalizing d with
  | nil =>
      cases h
      exact ⟨rfl, rfl⟩
  | cons key rest ih =>
      unfold armStored at h
      split at h
      · cases h
      · have hrest := ih h
        exact hrest

/-- A recovery changes the timer alone. -/
theorem recover_frame {n : Nat} (h : d.recover now = .ok (n, d')) :
    d'.store = d.store ∧ d'.events = d.events := by
  unfold recover at h
  split at h
  · cases h
  · split at h
    · cases h
    · split at h
      · cases h
      · rename_i hfragments
        split at h
        · cases h
        · rename_i hregions
          cases h
          obtain ⟨hstore, hevents⟩ := armStored_frame hfragments
          obtain ⟨hstore', hevents'⟩ := armStored_frame hregions
          exact ⟨hstore'.trans hstore, hevents'.trans hevents⟩

end Desk

end Gatehouse
