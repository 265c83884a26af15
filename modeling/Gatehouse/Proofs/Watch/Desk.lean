import Gatehouse.Proofs.Session.Codec
import Gatehouse.Proofs.Session.Key
import Gatehouse.Proofs.Visit

/-!
# Everything stored at a desk is watched

What is stored under a key is due at some time, and a wake-up for the key is on its way that comes
by then, at this desk or elsewhere. A desk may be steady but for one key, while a value is put under
it or a wake-up for it is answered, and is steady again once the key is armed or taken out.
-/

namespace Gatehouse

namespace Desk

/-- The time at which a stored value is due, if it can be read as what its key says. -/
def deadline? (key : String) (bytes : Bytes) : Option UInt64 :=
  if isFragmentKey key then (Fragment.decode? bytes).map Fragment.due
  else if isRegionKey key then (RegionEntry.decode? bytes).map RegionEntry.due
  else none

/-- The clock of a desk can show the time at which the value under a key is due. -/
def Reaches (now : UInt64) (d : Desk) (key : String) : Prop :=
  ∀ bytes due, d.look key = some bytes → deadline? key bytes = some due →
    d.timer.Reaches ((due.toNat - now.toNat) * 1000)

/-- The last moment, in milliseconds, for the wake-up of a value that is due at a time. -/
def limit (clock due : UInt64) : Nat := max due.toNat clock.toNat * 1000

/-- A desk is steady if its store answers, its timer runs on the clock and is listened to, and a
wake-up in time is on its way for everything stored, here or elsewhere. -/
structure Steady (elsewhere : String → Nat → Prop) (clock : UInt64) (d : Desk) : Prop where
  up : d.store.down = []
  onTime : d.timer.clock = clock.toNat * 1000
  heard : d.timer.heard = true
  watched : ∀ key bytes, d.look key = some bytes → ∃ due, deadline? key bytes = some due ∧
    (elsewhere key (limit clock due) ∨ d.timer.Awake key (limit clock due))

/-- Wake-ups elsewhere, if one key counts as watched in any case. -/
def but (elsewhere : String → Nat → Prop) (key : String) : String → Nat → Prop :=
  fun key' n => key' = key ∨ elsewhere key' n

section Deadlines

variable {key : String} {bytes : Bytes}

theorem deadline?_of_isFragmentKey (h : isFragmentKey key = true) :
    deadline? key bytes = (Fragment.decode? bytes).map Fragment.due := by
  rw [deadline?, if_pos h]

theorem deadline?_of_isRegionKey (h : isRegionKey key = true) :
    deadline? key bytes = (RegionEntry.decode? bytes).map RegionEntry.due := by
  rw [deadline?, isFragmentKey_of_isRegionKey h, if_neg Bool.false_ne_true, if_pos h]

theorem deadline?_fragmentKey (id : SessionId) (f : Fragment) :
    deadline? id.fragmentKey f.encode = some f.due := by
  rw [deadline?_of_isFragmentKey (isFragmentKey_fragmentKey id), Fragment.decode?_encode]
  rfl

theorem deadline?_regionKey (id : SessionId) (e : RegionEntry) :
    deadline? id.regionKey e.encode = some e.due := by
  rw [deadline?_of_isRegionKey (isRegionKey_regionKey id), RegionEntry.decode?_encode]
  rfl

/-- A stored value is within reach if its time is. -/
theorem reaches_of_look {d : Desk} {now due : UInt64} (hlook : d.look key = some bytes)
    (hdue : deadline? key bytes = some due)
    (h : d.timer.Reaches ((due.toNat - now.toNat) * 1000)) : d.Reaches now key := by
  intro bytes' due' hlook' hdue'
  cases hlook.symm.trans hlook'
  cases hdue.symm.trans hdue'
  exact h

/-- What is put under a key is within reach, as everything else at the desk, if its time is. -/
theorem reaches_holding {d : Desk} {now due : UInt64} (h : ∀ key, d.Reaches now key)
    (hdue : deadline? key bytes = some due)
    (hreach : d.timer.Reaches ((due.toNat - now.toNat) * 1000)) (key' : String) :
    (d.holding key bytes).Reaches now key' := by
  by_cases heq : key' = key
  · subst heq
    exact reaches_of_look (by rw [look_holding, if_pos rfl]) hdue hreach
  · intro bytes' due' hlook hdue'
    rw [look_holding, if_neg heq] at hlook
    exact h key' bytes' due' hlook hdue'

/-- Only values under the two kinds of keys are ever due. -/
theorem kind_of_deadline? {due : UInt64} (h : deadline? key bytes = some due) :
    isFragmentKey key = true ∨ isRegionKey key = true := by
  unfold deadline? at h
  split at h
  · rename_i hfragment
    exact .inl hfragment
  · split at h
    · rename_i hregion
      exact .inr hregion
    · cases h

/-- The seconds that are left of a fragment lead up to its deadline. -/
theorem fragmentLeft_le (now : UInt64) {due : UInt64} (hkey : isFragmentKey key = true)
    (h : deadline? key bytes = some due) :
    now.toNat + (fragmentLeft now (some bytes)).toNat ≤ max due.toNat now.toNat := by
  rw [deadline?_of_isFragmentKey hkey] at h
  obtain ⟨f, hf, rfl⟩ := Option.map_eq_some_iff.1 h
  simp only [fragmentLeft, Option.bind_some, hf, toNat_excess]
  omega

theorem toNat_sub_of_lt {a b : UInt64} (h : a < b) : (b - a).toNat = b.toNat - a.toNat :=
  UInt64.toNat_sub_of_le _ _ (UInt64.le_of_lt h)

/-- The seconds that are left of a region entry lead up to its deadline. -/
theorem left?_le {now due left : UInt64} (hkey : isRegionKey key = true)
    (h : deadline? key bytes = some due) (hleft : RegionEntry.left? bytes now = some left) :
    now.toNat + left.toNat ≤ max due.toNat now.toNat := by
  rw [deadline?_of_isRegionKey hkey] at h
  obtain ⟨e, he, rfl⟩ := Option.map_eq_some_iff.1 h
  rw [RegionEntry.left?_eq he] at hleft
  split at hleft
  · rename_i hlt
    cases hleft
    rw [toNat_sub_of_lt hlt]
    omega
  · cases hleft

theorem left?_pos {now left : UInt64} (hleft : RegionEntry.left? bytes now = some left) :
    0 < left.toNat := by
  cases he : RegionEntry.decode? bytes with
  | none => simp [RegionEntry.left?, RegionEntry.fresh?, he] at hleft
  | some e =>
      rw [RegionEntry.left?_eq he] at hleft
      split at hleft
      · rename_i hlt
        cases hleft
        have hlt' : now.toNat < e.due.toNat := UInt64.lt_iff_toNat_lt.1 hlt
        rw [toNat_sub_of_lt hlt]
        omega
      · cases hleft

theorem regionLeft_le (now : UInt64) {due : UInt64} (hkey : isRegionKey key = true)
    (h : deadline? key bytes = some due) :
    now.toNat + (regionLeft now (some bytes)).toNat ≤ max due.toNat now.toNat := by
  simp only [regionLeft, Option.bind_some]
  cases hleft : RegionEntry.left? bytes now with
  | none =>
      have hzero : ((none : Option UInt64).getD 0).toNat = 0 := rfl
      omega
  | some left => exact left?_le hkey h hleft

end Deadlines

/-- The answer to a wake-up arms nothing that is due already. -/
theorem quiet_of_wakes {key : String} {now : UInt64} {d d' : Desk} {r : Option SessionRecord}
    (hwake : Wakes key now d r d') (h : d.timer.Quiet) : d'.timer.Quiet := by
  cases hwake with
  | @early f hfragment hopen hdue =>
      apply Timer.quiet_armSeconds h
      have hlt : now.toNat < f.due.toNat := UInt64.lt_iff_toNat_lt.1 hdue
      rw [toNat_sub_of_lt hdue]
      omega
  | fresh hregion hlook hleft => exact Timer.quiet_armSeconds h (left?_pos hleft)
  | _ => exact h

/-- The answer to a wake-up announces nothing. -/
theorem announced_of_wakes {key : String} {now : UInt64} {d d' : Desk} {r : Option SessionRecord}
    (hwake : Wakes key now d r d') : d'.timer.announced = d.timer.announced := by
  cases hwake with
  | _ => rfl

/-- The answer to a wake-up that no visits precede announces nothing and arms nothing that is
due. -/
theorem timer_expireAfter (w : Windows) (key : String) (now : UInt64) (d : Desk) :
    (d.expireAfter w key now []).2.timer.announced = d.timer.announced ∧
      (d.timer.Quiet → (d.expireAfter w key now []).2.timer.Quiet) := by
  have hexpire : (d.expireAfter w key now []).2 = (d.tryExpiry key now).2 := by
    rw [expireAfter_eq]
    split
    · rfl
    · rfl
  rw [hexpire]
  obtain ⟨r, d', hexpiry, hwake⟩ | ⟨e, hexpiry, -⟩ := tryExpiry_cases key now d
  · rw [hexpiry]
    exact ⟨announced_of_wakes hwake, quiet_of_wakes hwake⟩
  · rw [hexpiry]
    exact ⟨rfl, id⟩

namespace Steady

variable {elsewhere : String → Nat → Prop} {clock : UInt64} {d d' : Desk} {key : String}
variable {value : Bytes} {seconds due : UInt64}

/-- The store of a steady desk answers every call. -/
theorem answers (h : Steady elsewhere clock d) (c : StoreCall) : c ∉ d.store.down :=
  Store.not_down_of_nil h.up c

/-- A steady desk is steady but for any key. -/
theorem mono (h : Steady elsewhere clock d) (key : String) :
    Steady (but elsewhere key) clock d where
  up := h.up
  onTime := h.onTime
  heard := h.heard
  watched := by
    intro key' bytes hlook
    obtain ⟨due, hdue, hwatched⟩ := h.watched key' bytes hlook
    exact ⟨due, hdue, hwatched.imp_left .inr⟩

/-- A desk that is steady but for a key is steady if nothing is stored under the key. -/
theorem of_absent (h : Steady (but elsewhere key) clock d) (hlook : d.look key = none) :
    Steady elsewhere clock d where
  up := h.up
  onTime := h.onTime
  heard := h.heard
  watched := by
    intro key' bytes hlook'
    obtain ⟨due, hdue, (rfl | hwatched) | hawake⟩ := h.watched key' bytes hlook'
    · cases hlook.symm.trans hlook'
    · exact ⟨due, hdue, .inl hwatched⟩
    · exact ⟨due, hdue, .inr hawake⟩

theorem without (h : Steady (but elsewhere key) clock d) :
    Steady elsewhere clock (d.without key) := by
  have hbut : Steady (but elsewhere key) clock (d.without key) := by
    refine ⟨h.up, h.onTime, h.heard, ?_⟩
    intro key' bytes hlook
    rw [look_without] at hlook
    split at hlook
    · cases hlook
    · exact h.watched key' bytes hlook
  apply hbut.of_absent
  rw [look_without, if_pos rfl]

/-- Nothing needs the wake-up of a key under which nothing is stored. -/
theorem disarm (h : Steady elsewhere clock d) (hlook : d.look key = none) :
    Steady elsewhere clock (d.disarm key) where
  up := h.up
  onTime := h.onTime
  heard := h.heard
  watched := by
    intro key' bytes hlook'
    obtain ⟨due, hdue, hwatched⟩ := h.watched key' bytes hlook'
    refine ⟨due, hdue, hwatched.imp_right ?_⟩
    intro hawake
    apply Timer.awake_disarm_of_ne hawake
    rintro rfl
    cases hlook.symm.trans hlook'

theorem emit (h : Steady elsewhere clock d) (e : Event) : Steady elsewhere clock (d.emit e) :=
  ⟨h.up, h.onTime, h.heard, h.watched⟩

/-- A value that is due at some time may be put under the key that does not matter. -/
theorem holding (h : Steady (but elsewhere key) clock d) (hdue : deadline? key value = some due) :
    Steady (but elsewhere key) clock (d.holding key value) where
  up := h.up
  onTime := h.onTime
  heard := h.heard
  watched := by
    intro key' bytes hlook
    rw [look_holding] at hlook
    split at hlook
    · rename_i hkey
      cases hlook
      subst hkey
      exact ⟨due, hdue, .inl (.inl rfl)⟩
    · exact h.watched key' bytes hlook

/-- A wake-up that comes by the deadline of the stored value makes a desk steady again. -/
theorem arm (h : Steady (but elsewhere key) clock d)
    (hseconds : ∀ bytes due, d.look key = some bytes → deadline? key bytes = some due →
      clock.toNat + seconds.toNat ≤ max due.toNat clock.toNat) :
    Steady elsewhere clock (d.arm key seconds) where
  up := h.up
  onTime := h.onTime
  heard := h.heard
  watched := by
    intro key' bytes hlook
    rw [look_arm] at hlook
    obtain ⟨due, hdue, hwatched⟩ := h.watched key' bytes hlook
    refine ⟨due, hdue, ?_⟩
    by_cases hkey : key' = key
    · subst hkey
      right
      apply Timer.awake_armSeconds
      rw [h.onTime, limit]
      have hle := hseconds bytes due hlook hdue
      omega
    · rcases hwatched with (heq | hwatched) | hawake
      · exact absurd heq hkey
      · exact .inl hwatched
      · exact .inr (Timer.awake_armSeconds_of_ne hawake hkey)

/-- Putting a value under a key with a wake-up that comes by its deadline keeps a desk steady. -/
theorem storing (h : Steady elsewhere clock d) (hdue : deadline? key value = some due)
    (hseconds : clock.toNat + seconds.toNat ≤ max due.toNat clock.toNat) :
    Steady elsewhere clock ((d.holding key value).arm key seconds) := by
  apply ((h.mono key).holding hdue).arm
  intro bytes due' hlook hdue'
  rw [look_holding, if_pos rfl] at hlook
  cases Option.some.inj hlook
  cases hdue.symm.trans hdue'
  exact hseconds

/-- Taking out what is under a key together with its wake-up keeps a desk steady. -/
theorem dropping (h : Steady elsewhere clock d) (key : String) :
    Steady elsewhere clock ((d.without key).disarm key) := by
  apply (h.mono key).without.disarm
  rw [look_without, if_pos rfl]

/-- Putting a fragment in place with a wake-up for its deadline keeps a desk steady. -/
theorem keeping (h : Steady elsewhere clock d) {id : SessionId} {f : Fragment} {window : UInt64}
    (hdue : f.due = capped clock window) (hroom : clock.toNat + window.toNat < UInt64.size) :
    Steady elsewhere clock (d.keeping id.fragmentKey f window) := by
  apply h.storing (deadline?_fragmentKey id f)
  rw [hdue, toNat_capped]
  omega

/-- A visit at the time of the clock keeps a desk steady. -/
theorem visit {w : Windows} {v : VisitOf} {a : VisitAnswer} (h : Steady elsewhere clock d)
    (hnow : v.now = clock) (hroom : clock.toNat + (v.visit.window w).toNat < UInt64.size)
    (hvisit : Visits w v d a d') : Steady elsewhere clock d' := by
  subst hnow
  have hopening : (v.opening w).due = capped v.now (v.visit.window w) := rfl
  cases hvisit with
  | failed e hdown => exact h
  | opened hconnect hnone => exact h.keeping hopening hroom
  | reopened hconnect hopen => exact (h.keeping hopening hroom).emit _
  | openedPartial hreport hnone => exact h.keeping hopening hroom
  | applied hreport hopen haccepts => exact h.keeping rfl hroom
  | duplicate hreport hopen haccepts => exact h

/-- The answer to a wake-up makes a desk steady that was steady but for the key. -/
theorem wake {r : Option SessionRecord} (h : Steady (but elsewhere key) clock d)
    (hwake : Wakes key clock d r d') : Steady elsewhere clock d' := by
  cases hwake with
  | ignored hfragment hregion =>
      apply h.of_absent
      cases hlook : d.look key with
      | none => rfl
      | some bytes =>
          obtain ⟨due, hdue, -⟩ := h.watched key bytes hlook
          rcases kind_of_deadline? hdue with hkind | hkind
          · rw [hfragment] at hkind
            cases hkind
          · rw [hregion] at hkind
            cases hkind
  | absent hlook => exact h.of_absent hlook
  | unreadable hfragment hlook hdecode => exact h.without
  | flushed hfragment hopen hdue => exact h.without.emit _
  | @early f hfragment hopen hdue =>
      apply h.arm
      intro bytes due hlook hdeadline
      rw [fragment?, hlook, Option.bind_some] at hopen
      rw [deadline?_of_isFragmentKey hfragment, hopen] at hdeadline
      cases hdeadline
      rw [toNat_sub_of_lt hdue]
      omega
  | stale hregion hlook hleft => exact h.without
  | @fresh bytes left hregion hlook hleft =>
      apply h.arm
      intro bytes' due hlook' hdeadline
      cases hlook.symm.trans hlook'
      exact left?_le hregion hdeadline hleft

/-- Visits at the time of the clock keep a desk steady. -/
theorem visitAll {w : Windows} {vs : List VisitOf} (h : Steady elsewhere clock d)
    (hvisits : ∀ v ∈ vs, v.now = clock ∧ clock.toNat + (v.visit.window w).toNat < UInt64.size) :
    Steady elsewhere clock (d.visitAll w vs).2 := by
  induction vs generalizing d with
  | nil => exact h
  | cons v rest ih =>
      obtain ⟨hnow, hroom⟩ := hvisits v List.mem_cons_self
      apply ih (h.visit hnow hroom (visits_visit w v d))
      intro u hu
      exact hvisits u (List.mem_cons_of_mem v hu)

/-- A wake-up makes a desk steady that was steady but for the key, since the store answers. -/
theorem tryExpiry (h : Steady (but elsewhere key) clock d) :
    Steady elsewhere clock (d.tryExpiry key clock).2 := by
  obtain ⟨r, d', hexpiry, hwake⟩ | ⟨e, -, hdown⟩ := tryExpiry_cases key clock d
  · rw [hexpiry]
    exact h.wake hwake
  · exact absurd hdown (h.answers .removeIf)

/-- The answer to a wake-up that visits precede makes a desk steady that was steady but for the
key. -/
theorem expireAfter {w : Windows} {before : List VisitOf} (h : Steady (but elsewhere key) clock d)
    (hbefore : ∀ v ∈ before, v.now = clock ∧
      clock.toNat + (v.visit.window w).toNat < UInt64.size) :
    Steady elsewhere clock (d.expireAfter w key clock before).2 := by
  rw [expireAfter_eq]
  split
  · exact (h.visitAll hbefore).tryExpiry
  · exact h.tryExpiry

theorem noteRegion {window : UInt64} {id : SessionId} {region : String}
    (h : Steady elsewhere clock d) (hroom : clock.toNat + window.toNat < UInt64.size)
    (hnote : d.noteRegion window id region clock = .ok d') : Steady elsewhere clock d' := by
  have hsum : (clock + window).toNat = clock.toNat + window.toNat := by
    rw [UInt64.toNat_add]
    exact Nat.mod_eq_of_lt hroom
  rw [noteRegion_eq_ok hnote]
  apply h.storing (deadline?_regionKey id _)
  rw [hsum]
  omega

theorem forgetRegion {id : SessionId} (h : Steady elsewhere clock d)
    (hforget : d.forgetRegion id = .ok d') : Steady elsewhere clock d' := by
  rw [forgetRegion_eq_ok hforget]
  exact h.dropping id.regionKey

theorem purgeRegions {n : Nat} (h : Steady elsewhere clock d)
    (hpurge : d.purgeRegions clock = .ok (n, d')) : Steady elsewhere clock d' :=
  purgeRegions_invariant (fun _ key h => h.dropping key) h hpurge

/-- A sweep keeps a desk steady. -/
theorem sweep (h : Steady elsewhere clock d) :
    Steady elsewhere clock { d with timer := d.timer.sweep } where
  up := h.up
  onTime := h.onTime
  heard := h.heard
  watched := by
    intro key bytes hlook
    obtain ⟨due, hdue, hwatched⟩ := h.watched key bytes hlook
    refine ⟨due, hdue, hwatched.imp_right ?_⟩
    intro hawake
    exact Timer.awake_sweep hawake h.heard

/-- A desk is steady but for a key that is handed over. -/
theorem next {rest : List String} (h : Steady elsewhere clock d)
    (hannounced : d.timer.announced = key :: rest) :
    Steady (but elsewhere key) clock { d with timer := d.timer.next } where
  up := h.up
  onTime := h.onTime
  heard := h.heard
  watched := by
    intro key' bytes hlook
    obtain ⟨due, hdue, hwatched | hawake⟩ := h.watched key' bytes hlook
    · exact ⟨due, hdue, .inl (.inr hwatched)⟩
    · by_cases hkey : key' = key
      · exact ⟨due, hdue, .inl (.inl hkey)⟩
      · exact ⟨due, hdue, .inr (Timer.awake_next_of_ne hannounced hawake hkey)⟩

/-- After a recovery a wake-up for everything stored is armed here, whatever was lost. -/
theorem recover {n : Nat} (h : Steady (fun _ _ => True) clock d)
    (hrecover : d.recover clock = .ok (n, d')) : Steady elsewhere clock d' := by
  obtain ⟨n', hrecover'⟩ := recover_of_up (h.answers .keys) (h.answers .get) clock
  rw [hrecover'] at hrecover
  cases hrecover
  refine ⟨h.up, ?_, ?_, ?_⟩
  · rw [Timer.clock_armEach, Timer.clock_armEach]
    exact h.onTime
  · rw [Timer.heard_armEach, Timer.heard_armEach]
    exact h.heard
  · intro key bytes hlook
    have hlook' : d.look key = some bytes := hlook
    have hsome : (d.look key).isSome = true := by rw [hlook']; rfl
    obtain ⟨due, hdue, -⟩ := h.watched key bytes hlook'
    refine ⟨due, hdue, .inr (.inl ?_)⟩
    rw [Timer.armed_armEach, Timer.armed_armEach, Timer.clock_armEach, h.onTime, hlook', limit]
    rcases kind_of_deadline? hdue with hfragment | hregion
    · have hleft := fragmentLeft_le clock hfragment hdue
      have hother : ¬ key ∈ d.store.table.keys SessionId.regionStem := by
        intro hmem
        have hregion := ((mem_keys_regionStem d key).1 hmem).2
        rw [isFragmentKey_of_isRegionKey hregion] at hfragment
        cases hfragment
      rw [if_neg hother, if_pos ((mem_keys_fragmentStem d key).2 ⟨hsome, hfragment⟩)]
      exact ⟨_, rfl, by omega⟩
    · have hleft := regionLeft_le clock hregion hdue
      rw [if_pos ((mem_keys_regionStem d key).2 ⟨hsome, hregion⟩)]
      exact ⟨_, rfl, by omega⟩

end Steady

end Desk

end Gatehouse
