import Gatehouse.Proofs.Deadline

/-!
# Wake-ups during an outage

A wake-up that the store fails is reported and not tried again: its announcement is used up, and
nothing else changes. The fragment stays, and the next wake-up for its key that the store answers
flushes it, whether it was on its way already or comes from a recovery.
-/

namespace Gatehouse

namespace Desk

variable {d : Desk} {key key' : String} {now : UInt64}

/-- The wake-up for a fragment fails while the store removes nothing. -/
theorem tryExpiry_of_down (hkey : isFragmentKey key = true) (hdown : .removeIf ∈ d.store.down) :
    d.tryExpiry key now = (.error ⟨d.store.reason⟩, d) := by
  rw [tryExpiry, handleExpiry, if_pos hkey, flushIfDue, Store.removeIf_of_down hdown]

/-- A wake-up for one key leaves what is stored under another one, and the outage, as they were. -/
theorem tryExpiry_other (hne : key' ≠ key) (now : UInt64) (d : Desk) :
    (d.tryExpiry key now).2.look key' = d.look key' ∧
      (d.tryExpiry key now).2.store.down = d.store.down := by
  obtain ⟨r, d', hexpiry, hwake⟩ | ⟨e, hexpiry, -⟩ := tryExpiry_cases key now d
  · rw [hexpiry]
    refine ⟨look_of_wakes hwake hne, ?_⟩
    cases hwake with
    | _ => rfl
  · rw [hexpiry]
    exact ⟨rfl, rfl⟩

end Desk

namespace Fleet

/-- Whether some front end has a wake-up for a key armed or announced. -/
def Expects (f : Fleet) (key : String) : Prop :=
  ∃ (j : Nat) (m : Member), f.members[j]? = some m ∧
    ((m.timer.armed.get? key).isSome = true ∨ key ∈ m.timer.announced)

/-- Front end `j`, answering the keys that wait in its line at a time, comes to the key of a fragment
and takes the fragment out. -/
def FlushesInTurn (f : Fleet) (j : Nat) (key : String) (x : Fragment) (now : UInt64) : Prop :=
  ∃ (m : Member) (before after : List String), f.members[j]? = some m ∧
    m.timer.announced = before ++ key :: after ∧ key ∉ before ∧
      let turn := (f.course (before.map fun k => .deliver j k now [])).2
      (turn.onTimer j Timer.next).TakesOut key x (turn.meet (.deliver j key now []))

variable {f : Fleet} {i j : Nat} {m : Member} {d : Desk} {key : String} {now t : UInt64}
variable {x : Fragment} {e : Unavailable} {answers : Option (List VisitAnswer)}
variable {calls : List StoreCall} {reason : String}

/-- A listener that takes a key answers the wake-up at its desk, from whose line the key is gone. -/
theorem meet_deliver_eq (hd : f.desk? i = some d) (key : String) (now : UInt64) :
    let d' : Desk := { d with timer := d.timer.next }
    ∃ answers, f.meet (.deliver i key now []) =
      (.expired answers (d'.tryExpiry key now).1, f.putDesk i (d'.tryExpiry key now).2) := by
  intro d'
  have hd' : (f.putDesk i d').desk? i = some d' := desk?_putDesk hd
  rw [meet, onTimer_of_desk? hd, step, actDesk_of_desk? hd', putDesk_putDesk, Desk.expireAfter_nil]
  exact ⟨_, rfl⟩

/-- The delivery of a fragment's key fails while the store removes nothing. -/
theorem meet_deliver_of_down (hm : f.members[i]? = some m) (hkey : Desk.isFragmentKey key = true)
    (hdown : .removeIf ∈ f.store.down) :
    (f.meet (.deliver i key now [])).1 = .expired (some []) (.error ⟨f.store.reason⟩) := by
  have hd : (f.onTimer i Timer.next).desk? i = some (f.deskWith m.timer.next) := by
    rw [onTimer_of_desk? (desk?_of_member hm)]
    exact desk?_putDesk (desk?_of_member hm)
  have hdown' : .removeIf ∈ (f.deskWith m.timer.next).store.down := hdown
  rw [meet, step, actDesk_of_desk? hd, Desk.expireAfter_nil, Desk.tryExpiry_of_down hkey hdown',
    hkey]
  rfl

/-- A delivery that fails uses up the announcement and changes nothing else. -/
theorem meet_deliver_of_error
    (h : (f.meet (.deliver i key now [])).1 = .expired answers (.error e)) :
    (f.meet (.deliver i key now [])).2 = f.onTimer i Timer.next := by
  cases hd : f.desk? i with
  | none =>
      have hd' : (f.onTimer i Timer.next).desk? i = none := by
        rw [onTimer_of_none hd]
        exact hd
      rw [meet, step, actDesk_of_none hd']
  | some d =>
      obtain ⟨answers', hdeliver⟩ := meet_deliver_eq hd key now
      rw [hdeliver] at h ⊢
      rw [onTimer_of_desk? hd]
      obtain ⟨r, d', hexpiry, -⟩ | ⟨e', hexpiry, -⟩ :=
        Desk.tryExpiry_cases key now { d with timer := d.timer.next }
      · rw [hexpiry] at h
        cases h
      · rw [hexpiry]

/-- The keys ahead in the line of a front end are answered, and a fragment under another key and the
desk's store are as they were. -/
theorem desk?_after_others (hd : f.desk? j = some d) (now : UInt64) (keys : List String)
    (hkeys : key ∉ keys) :
    ∃ d', (f.course (keys.map fun k => .deliver j k now [])).2.desk? j = some d' ∧
      d'.look key = d.look key ∧ d'.store.down = d.store.down := by
  induction keys generalizing f d with
  | nil => exact ⟨d, hd, rfl, rfl⟩
  | cons first rest ih =>
      obtain ⟨answers, hdeliver⟩ := meet_deliver_eq hd first now
      have hne : key ≠ first := fun heq => hkeys (heq ▸ List.mem_cons_self)
      obtain ⟨hlook, hdown⟩ := Desk.tryExpiry_other hne now { d with timer := d.timer.next }
      have hnext : (f.meet (.deliver j first now [])).2.desk? j =
          some (Desk.tryExpiry first now { d with timer := d.timer.next }).2 := by
        rw [hdeliver]
        exact desk?_putDesk hd
      obtain ⟨d', hd', hlook', hdown'⟩ := ih hnext fun hmem => hkeys (List.mem_cons_of_mem first hmem)
      exact ⟨d', hd', hlook'.trans hlook, hdown'.trans hdown⟩

/-- A fragment that is due, and whose key waits in the line of a front end, is taken out in its
turn. -/
theorem flushesInTurn_of_announced (hm : f.members[j]? = some m)
    (hannounced : key ∈ m.timer.announced) (hup : .removeIf ∉ f.store.down)
    (hkey : Desk.isFragmentKey key = true)
    (hopen : (f.store.table.get? key).bind Fragment.decode? = some x) (hdue : x.due ≤ now) :
    f.FlushesInTurn j key x now := by
  obtain ⟨before, after, hline, hbefore⟩ := List.eq_append_cons_of_mem hannounced
  refine ⟨m, before, after, hm, hline, hbefore, ?_⟩
  intro turn
  obtain ⟨d, hd, hlook, hdown⟩ :=
    desk?_after_others (desk?_of_member hm) now before hbefore
  obtain ⟨answers, hdeliver⟩ := meet_deliver_eq hd key now
  have hnext : (turn.onTimer j Timer.next).desk? j = some { d with timer := d.timer.next } := by
    rw [onTimer_of_desk? hd]
    exact desk?_putDesk hd
  have hfragment : ({ d with timer := d.timer.next } : Desk).fragment? key = some x := by
    change (d.look key).bind Fragment.decode? = some x
    rw [hlook]
    exact hopen
  have hanswers : .removeIf ∉ d.store.down := by
    rw [hdown]
    exact hup
  have htakes : (turn.onTimer j Timer.next).TakesOut key x (.expired answers _, _) :=
    takesOut_of_due hnext hanswers hkey hfragment hdue
  rw [onTimer_of_desk? hd, putDesk_putDesk, ← hdeliver, ← onTimer_of_desk? hd] at htakes
  exact htakes

/-- A key whose deadline comes is announced when its front end sweeps. -/
theorem announced_after_sweep {deadline : Nat} (hm : f.members[j]? = some m)
    (hheard : m.timer.heard = true) (harmed : m.timer.armed.get? key = some deadline)
    (hdeadline : deadline ≤ m.timer.clock + (t.toNat - f.clock.toNat) * 1000) :
    let swept := (f.course [.pass t, .sweep j]).2
    ∃ m', swept.members[j]? = some m' ∧ key ∈ m'.timer.announced ∧ swept.store = f.store := by
  have hmoved : (f.moveTo t).members[j]? =
      some { m with timer := m.timer.advance ((t.toNat - f.clock.toNat) * 1000) } := by
    rw [moveTo, List.getElem?_map, hm]
    rfl
  have hswept : (f.course [.pass t, .sweep j]).2 =
      ((f.moveTo t).onTimer j fun t => t.fire.2).rouse j := by
    rw [course, course, course, meet, meet, step, hmoved]
  obtain ⟨chores, hrouse⟩ := rouse_eq ((f.moveTo t).onTimer j fun t => t.fire.2) j
  dsimp only
  rw [hswept, hrouse, onTimer_of_desk? (desk?_of_member hmoved)]
  exact ⟨_, member_putDesk hmoved, Timer.mem_announced_sweep hheard harmed hdeadline, rfl⟩

/-- A fragment whose key is armed at a front end is taken out in its turn, once the deadline has
come and the front end has swept. -/
theorem flushesInTurn_of_armed {deadline : Nat} (hm : f.members[j]? = some m)
    (hheard : m.timer.heard = true) (harmed : m.timer.armed.get? key = some deadline)
    (hdeadline : deadline ≤ m.timer.clock + (t.toNat - f.clock.toNat) * 1000)
    (hup : .removeIf ∉ f.store.down) (hkey : Desk.isFragmentKey key = true)
    (hopen : (f.store.table.get? key).bind Fragment.decode? = some x) (hdue : x.due ≤ t) :
    (f.course [.pass t, .sweep j]).2.FlushesInTurn j key x t := by
  obtain ⟨m', hm', hannounced, hstore⟩ := announced_after_sweep hm hheard harmed hdeadline
  apply flushesInTurn_of_announced hm' hannounced _ hkey _ hdue
  · rw [hstore]
    exact hup
  · rw [hstore]
    exact hopen

/-- A recovery arms a wake-up for a stored fragment at its deadline. -/
theorem armed_after_recover (hm : f.members[j]? = some m) (hkeys : .keys ∉ f.store.down)
    (hget : .get ∉ f.store.down) (hkey : Desk.isFragmentKey key = true)
    (hopen : (f.store.table.get? key).bind Fragment.decode? = some x) :
    let recovered := (f.meet (.recover j f.clock)).2
    recovered.store = f.store ∧ recovered.clock = f.clock ∧
      ∃ m', recovered.members[j]? = some m' ∧ m'.timer.clock = m.timer.clock ∧
        m'.timer.heard = m.timer.heard ∧
        m'.timer.armed.get? key =
          some (m.timer.clock + (excess x.due f.clock).toNat * 1000) := by
  have hd : f.desk? j = some (f.deskWith m.timer) := desk?_of_member hm
  obtain ⟨n, hrecover⟩ := Desk.recover_of_up (d := f.deskWith m.timer) hkeys hget f.clock
  have hstored : (f.store.table.get? key).isSome = true := by
    obtain ⟨bytes, hlook, -⟩ := Option.bind_eq_some_iff.1 hopen
    rw [hlook]
    rfl
  have hlisted : key ∈ (f.deskWith m.timer).store.table.keys SessionId.fragmentStem :=
    (Desk.mem_keys_fragmentStem (f.deskWith m.timer) key).2 ⟨hstored, hkey⟩
  have hother : key ∉ (f.deskWith m.timer).store.table.keys SessionId.regionStem := by
    intro hregion
    have hkind := ((Desk.mem_keys_regionStem (f.deskWith m.timer) key).1 hregion).2
    rw [Desk.isFragmentKey_of_isRegionKey hkind] at hkey
    cases hkey
  have hleft : Desk.fragmentLeft f.clock (f.store.table.get? key) = excess x.due f.clock := by
    rw [Desk.fragmentLeft, hopen]
  rw [meet, step, tryDesk_of_desk? hd, hrecover]
  refine ⟨rfl, rfl, _, member_putDesk hm, ?_, ?_, ?_⟩
  · exact (Timer.clock_armEach _ _).trans (Timer.clock_armEach _ _)
  · exact (Timer.heard_armEach _ _).trans (Timer.heard_armEach _ _)
  · change (Timer.armEach _ _ _).armed.get? key = _
    rw [Timer.armed_armEach, if_neg hother, Timer.armed_armEach, if_pos hlisted]
    exact congrArg (fun left : UInt64 => some (m.timer.clock + left.toNat * 1000)) hleft

/-- Once the store answers, a recovery brings a fragment's wake-up back: it is taken out in its turn
when its deadline has come and the front end has swept. -/
theorem flushesInTurn_of_recovered (hm : f.members[j]? = some m) (hheard : m.timer.heard = true)
    (hkeys : .keys ∉ f.store.down) (hget : .get ∉ f.store.down) (hup : .removeIf ∉ f.store.down)
    (hkey : Desk.isFragmentKey key = true)
    (hopen : (f.store.table.get? key).bind Fragment.decode? = some x) (hdue : x.due ≤ t) :
    (f.course [.recover j f.clock, .pass t, .sweep j]).2.FlushesInTurn j key x t := by
  obtain ⟨hstore, hclock, m', hm', hclock', hheard', harmed⟩ :=
    armed_after_recover hm hkeys hget hkey hopen
  have hdeadline : m.timer.clock + (excess x.due f.clock).toNat * 1000 ≤
      m'.timer.clock + (t.toNat - (f.meet (.recover j f.clock)).2.clock.toNat) * 1000 := by
    have hle : x.due.toNat ≤ t.toNat := UInt64.le_iff_toNat_le.1 hdue
    rw [hclock, hclock', toNat_excess]
    omega
  apply flushesInTurn_of_armed hm' (hheard'.trans hheard) harmed hdeadline _ hkey _ hdue
  · rw [hstore]
    exact hup
  · rw [hstore]
    exact hopen

/-- What a front end expects after it has taken a key from its line. -/
theorem expects_onTimer_next (f : Fleet) (i : Nat) (key : String) :
    (f.onTimer i Timer.next).Expects key ↔
      ∃ (j : Nat) (m : Member), f.members[j]? = some m ∧
        ((m.timer.armed.get? key).isSome = true ∨
          key ∈ if i = j then m.timer.announced.tail else m.timer.announced) := by
  unfold Expects onTimer
  simp only [List.getElem?_modify]
  constructor
  · rintro ⟨j, m', hm', hexpects⟩
    obtain ⟨m, hm, rfl⟩ := Option.map_eq_some_iff.1 hm'
    refine ⟨j, m, hm, ?_⟩
    by_cases hij : i = j
    · simp only [hij, ↓reduceIte] at hexpects ⊢
      exact hexpects
    · simp only [hij, ↓reduceIte] at hexpects ⊢
      exact hexpects
  · rintro ⟨j, m, hm, hexpects⟩
    refine ⟨j, _, Option.map_eq_some_iff.2 ⟨m, hm, rfl⟩, ?_⟩
    by_cases hij : i = j
    · simp only [hij, ↓reduceIte] at hexpects ⊢
      exact hexpects
    · simp only [hij, ↓reduceIte] at hexpects ⊢
      exact hexpects

/-- What is left of a fleet after front end `i` has failed to answer the wake-up for a fragment. The
announcement is used up and all else is as it was, so the key is expected if another wake-up for it
was on its way. Once the store answers, a wake-up that is on its way takes the fragment out in its
turn, and a recovery at any front end brings one on its way. -/
structure OutlivesFailure (f : Fleet) (i : Nat) (key : String) (x : Fragment) (left : Fleet) :
    Prop where
  unchanged : left = f.onTimer i Timer.next
  expects : left.Expects key ↔ ∃ (j : Nat) (m : Member), f.members[j]? = some m ∧
    ((m.timer.armed.get? key).isSome = true ∨
      key ∈ if i = j then m.timer.announced.tail else m.timer.announced)
  announced : ∀ (j : Nat) (m : Member) (calls : List StoreCall) (reason : String) (t : UInt64),
    left.members[j]? = some m → key ∈ m.timer.announced → .removeIf ∉ calls → x.due ≤ t →
      (left.course [.outage calls reason]).2.FlushesInTurn j key x t
  armed : ∀ (j : Nat) (m : Member) (deadline : Nat) (calls : List StoreCall) (reason : String)
    (t : UInt64), left.members[j]? = some m → m.timer.heard = true →
      m.timer.armed.get? key = some deadline →
      deadline ≤ m.timer.clock + (t.toNat - left.clock.toNat) * 1000 →
      .removeIf ∉ calls → x.due ≤ t →
        (left.course [.outage calls reason, .pass t, .sweep j]).2.FlushesInTurn j key x t
  recovered : ∀ (j : Nat) (m : Member) (calls : List StoreCall) (reason : String) (t : UInt64),
    left.members[j]? = some m → m.timer.heard = true → .keys ∉ calls → .get ∉ calls →
      .removeIf ∉ calls → x.due ≤ t →
        (left.course [.outage calls reason, .recover j left.clock, .pass t, .sweep j]).2.FlushesInTurn
          j key x t

/-- Whatever has happened to a fleet, a wake-up that the store fails loses its announcement and
nothing else. -/
theorem failed_delivery_outlived (hkey : Desk.isFragmentKey key = true)
    (hopen : (f.store.table.get? key).bind Fragment.decode? = some x)
    (hfailed : (f.meet (.deliver i key now [])).1 = .expired answers (.error e)) :
    f.OutlivesFailure i key x (f.meet (.deliver i key now [])).2 := by
  rw [meet_deliver_of_error hfailed]
  refine ⟨rfl, expects_onTimer_next f i key, ?_, ?_, ?_⟩
  · intro j m calls reason t hm hannounced hup hdue
    exact flushesInTurn_of_announced hm hannounced hup hkey hopen hdue
  · intro j m deadline calls reason t hm hheard harmed hdeadline hup hdue
    exact flushesInTurn_of_armed (f := ((f.onTimer i Timer.next).meet (.outage calls reason)).2) hm
      hheard harmed hdeadline hup hkey hopen hdue
  · intro j m calls reason t hm hheard hkeys hget hup hdue
    exact flushesInTurn_of_recovered (f := ((f.onTimer i Timer.next).meet (.outage calls reason)).2)
      hm hheard hkeys hget hup hkey hopen hdue

/-- No front end expects a key that none has armed or announced. -/
theorem not_expects_of_all
    (h : f.members.all (fun m =>
      (m.timer.armed.get? key).isNone && !m.timer.announced.contains key) = true) :
    ¬ f.Expects key := by
  rintro ⟨j, m, hm, hexpects⟩
  have hneither := List.all_eq_true.1 h m (List.mem_of_getElem? hm)
  rw [Bool.and_eq_true, Bool.not_eq_true'] at hneither
  rcases hexpects with harmed | hannounced
  · rw [Option.isNone_iff_eq_none.1 hneither.1] at harmed
    cases harmed
  · rw [List.contains_iff_mem.2 hannounced] at hneither
    cases hneither.2

/-- A session connects, its wake-up is announced at its deadline, and then the store fails to remove
anything. A recovery at the other front end brings the wake-up back. -/
theorem failed_delivery_outlived_recovered :
    let id : SessionId := ⟨"a1", by decide, by decide, by decide⟩
    let os : List Occurrence :=
      [.visit 0 ⟨id, .connect Dict.empty, 0, "x"⟩, .pass 900, .sweep 0, .outage [.removeIf] "down"]
    let x : Fragment := ⟨"a1", "x", 0, 0, 0, false, none, Dict.empty, 900⟩
    let f := (pair.course os).2
    let left := (f.meet (.deliver 0 id.fragmentKey 900 [])).2
    Desk.isFragmentKey id.fragmentKey = true ∧
      (f.store.table.get? id.fragmentKey).bind Fragment.decode? = some x ∧
      (f.meet (.deliver 0 id.fragmentKey 900 [])).1 = .expired (some []) (.error ⟨"down"⟩) ∧
      f.OutlivesFailure 0 id.fragmentKey x left ∧
      (left.course [.outage [] "", .recover 1 left.clock, .pass 900, .sweep 1]).2.FlushesInTurn 1
        id.fragmentKey x 900 := by
  intro id os x f left
  have hkey : Desk.isFragmentKey id.fragmentKey = true := Desk.isFragmentKey_fragmentKey id
  obtain ⟨m, hm⟩ : ∃ m, left.members[1]? = some m := ⟨_, rfl⟩
  have hopen : (f.store.table.get? id.fragmentKey).bind Fragment.decode? = some x := by
    decide +kernel
  have hfailed :
      (f.meet (.deliver 0 id.fragmentKey 900 [])).1 = .expired (some []) (.error ⟨"down"⟩) :=
    meet_deliver_of_down (m := f.members[0]) rfl hkey (by decide)
  have houtlives : f.OutlivesFailure 0 id.fragmentKey x left :=
    failed_delivery_outlived hkey hopen hfailed
  refine ⟨hkey, hopen, hfailed, houtlives, ?_⟩
  apply houtlives.recovered 1 m [] "" 900 hm _ (by decide) (by decide) (by decide) (by decide)
  cases hm
  rfl

/-- The wake-up of the only session is lost in an outage: no front end expects its key, and when the
store answers again and both front ends have swept later on, no key is announced and the fragment is
still stored. -/
theorem outage_swallows_announcement :
    let id : SessionId := ⟨"a1", by decide, by decide, by decide⟩
    let os : List Occurrence :=
      [.visit 0 ⟨id, .connect Dict.empty, 0, "x"⟩, .pass 900, .sweep 0, .outage [.removeIf] "down"]
    let f := (pair.course os).2
    let failed := f.meet (.deliver 0 id.fragmentKey 900 [])
    let later := (failed.2.course [.outage [] "", .pass 2000, .sweep 0, .sweep 1]).2
    (f.members[0]?.bind fun m => m.timer.announced.head?) = some id.fragmentKey ∧
      failed.1 = .expired (some []) (.error ⟨"down"⟩) ∧
      (failed.2.store.table.get? id.fragmentKey).isSome = true ∧
      ¬ failed.2.Expects id.fragmentKey ∧
      later.members.map (fun m => m.timer.announced) = [[], []] ∧
      (later.store.table.get? id.fragmentKey).isSome = true := by
  intro id os f failed later
  have hfailed : failed.1 = .expired (some []) (.error ⟨"down"⟩) :=
    meet_deliver_of_down (m := f.members[0]) rfl (Desk.isFragmentKey_fragmentKey id) (by decide)
  have hends : (f.members[0]?.bind fun m => m.timer.announced.head?) = some id.fragmentKey ∧
      (failed.2.store.table.get? id.fragmentKey).isSome = true ∧
      failed.2.members.all (fun m => (m.timer.armed.get? id.fragmentKey).isNone &&
        !m.timer.announced.contains id.fragmentKey) = true ∧
      later.members.map (fun m => m.timer.announced) = [[], []] ∧
      (later.store.table.get? id.fragmentKey).isSome = true := by
    decide +kernel
  obtain ⟨hhead, hstored, hneither, hlines, hstays⟩ := hends
  exact ⟨hhead, hfailed, hstored, not_expects_of_all hneither, hlines, hstays⟩

end Fleet

end Gatehouse
