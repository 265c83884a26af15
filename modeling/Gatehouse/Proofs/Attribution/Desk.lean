import Gatehouse.Proofs.Apart.Desk
import Gatehouse.Proofs.Beside.Kept

/-!
# The region of a session at a desk

A region that a login has noted stays where it is until its time is over or the session is connected.
The fragment that a connect opens keeps the fields that it was given for as long as it is open, and
when it is finished they stand in its record.
-/

namespace Gatehouse

/-- A record is that of a fragment of a session which was opened with a tag at a time and bears a
region. -/
structure SessionRecord.Bears (r : SessionRecord) (id : SessionId) (tag : String) (start : UInt64)
    (region : String) : Prop where
  session : r.session = id.text
  tag : r.tag = tag
  start : r.start = start
  region : r.fields.get? "region" = some region

/-- A fragment goes on from another one if only what reports change is different. -/
structure Fragment.GoesOn (f f' : Fragment) : Prop where
  session : f'.session = f.session
  tag : f'.tag = f.tag
  start : f'.start = f.start
  fields : f'.fields = f.fields

theorem VisitOf.goesOn_fold (w : Windows) (v : VisitOf) (f : Fragment) : f.GoesOn (v.fold w f) :=
  ⟨rfl, rfl, rfl, rfl⟩

theorem Fragment.GoesOn.bears {f f' : Fragment} {id : SessionId} {tag region : String}
    {start : UInt64} (h : f.GoesOn f') (hbears : f.finish.Bears id tag start region) :
    f'.finish.Bears id tag start region where
  session := h.session.trans hbears.session
  tag := h.tag.trans hbears.tag
  start := h.start.trans hbears.start
  region := (congrArg (fun fields => fields.get? "region") h.fields).trans hbears.region

/-- A fragment lies at home under the key of its session. -/
def Fragment.AtHome (f : Fragment) (key : String) : Prop :=
  ∀ id : SessionId, f.session = id.text → key = id.fragmentKey

theorem VisitOf.atHome_opening (w : Windows) (v : VisitOf) : (v.opening w).AtHome v.key := by
  intro id hsession
  rw [VisitOf.opening_eq] at hsession
  exact congrArg SessionId.fragmentKey (SessionId.ext_text hsession)

/-- The fragment that is open under a key of a table. -/
def Table.fragment? (t : Table) (key : String) : Option Fragment :=
  (t.get? key).bind Fragment.decode?

/-- The open fragment under a key depends on what is stored under the key. -/
theorem Table.fragment?_congr {t t' : Table} {key : String} (h : t'.get? key = t.get? key) :
    t'.fragment? key = t.fragment? key := by
  rw [fragment?, h]
  rfl

namespace Desk

variable {d d' : Desk} {key : String} {now : UInt64} {w : Windows} {v : VisitOf} {a : VisitAnswer}
variable {r : Option SessionRecord}

theorem fragment?_table (d : Desk) (key : String) : d.store.table.fragment? key = d.fragment? key :=
  rfl

/-- What becomes of the fragment under a key when the key is visited or a wake-up for it is answered:
it stays, it goes on, one is opened in the place of none, or it is finished, maybe for another
one. -/
inductive Alters (key : String) (d d' : Desk) : Prop
  | stays (hopen : d'.fragment? key = d.fragment? key) (hevents : d'.events = d.events)
  | goesOn {f f' : Fragment} (hopen : d.fragment? key = some f)
      (hopen' : d'.fragment? key = some f') (hon : f.GoesOn f') (hevents : d'.events = d.events)
  | opened {f' : Fragment} (hnone : d.fragment? key = none) (hopen' : d'.fragment? key = some f')
      (hhome : f'.AtHome key) (hevents : d'.events = d.events)
  | finished {f : Fragment} (hopen : d.fragment? key = some f)
      (hhome : ∀ f', d'.fragment? key = some f' → f'.AtHome key)
      (hevents : d'.events = d.events ++ [.session f.finish])

theorem alters_of_visits (h : Visits w v d a d') : Alters v.key d d' := by
  cases h with
  | failed e hdown => exact .stays rfl rfl
  | opened hvisit hnone =>
      exact .opened hnone (fragment?_keeping _ _ _ _) (v.atHome_opening w) rfl
  | reopened hvisit hopen =>
      refine .finished hopen ?_ rfl
      intro f' hf'
      have hopening := fragment?_keeping d v.key (v.opening w) (v.visit.window w)
      obtain rfl : v.opening w = f' := Option.some.inj (hopening.symm.trans hf')
      exact v.atHome_opening w
  | openedPartial hvisit hnone =>
      exact .opened hnone (fragment?_keeping _ _ _ _) (v.atHome_opening w) rfl
  | applied hvisit hopen haccepts =>
      exact .goesOn hopen (fragment?_keeping _ _ _ _) (v.goesOn_fold w _) rfl
  | duplicate hvisit hopen haccepts => exact .stays rfl rfl

theorem alters_of_wakes (hkey : isFragmentKey key = true) (h : Wakes key now d r d') :
    Alters key d d' := by
  cases h with
  | ignored hfragment hregion => exact .stays rfl rfl
  | absent hlook => exact .stays rfl rfl
  | unreadable hfragment hlook hdecode =>
      have hnone : d.fragment? key = none := by rw [fragment?, hlook]; exact hdecode
      exact .stays ((fragment?_without d key).trans hnone.symm) rfl
  | flushed hfragment hopen hdue =>
      refine .finished hopen ?_ rfl
      intro f' hf'
      cases (fragment?_without d key).symm.trans hf'
  | early hfragment hopen hdue => exact .stays rfl rfl
  | stale hregion hlook hleft =>
      rw [isFragmentKey_of_isRegionKey hregion] at hkey
      cases hkey
  | fresh hregion hlook hleft => exact .stays rfl rfl

/-- A wake-up for another key than that of a fragment emits nothing. -/
theorem events_of_wakes_of_not_fragment (hkey : isFragmentKey key = false)
    (h : Wakes key now d r d') : d'.events = d.events := by
  cases h with
  | flushed hfragment hopen hdue =>
      rw [hkey] at hfragment
      cases hfragment
  | _ => rfl

end Desk

/-- The region that a login has noted for a session is stored up to a time, and gone at most if its
own time is over by then. -/
def Noted (id : SessionId) (entry : RegionEntry) (limit : UInt64) (t : Table) (_ : List Event) :
    Prop :=
  t.get? id.regionKey = some entry.encode ∨ t.get? id.regionKey = none ∧ entry.due ≤ limit

namespace Noted

variable {id : SessionId} {entry : RegionEntry} {limit now : UInt64} {t t' : Table}
variable {es es' : List Event}

theorem congr (h : Noted id entry limit t es) (hlook : t'.get? id.regionKey = t.get? id.regionKey) :
    Noted id entry limit t' es' := by
  rw [Noted, hlook]
  exact h

/-- A wake-up for a noted region removes it only when its time is over. -/
theorem wake {d d' : Desk} {key : String} {r : Option SessionRecord}
    (h : Noted id entry limit d.store.table es) (hlimit : now ≤ limit)
    (hwake : Desk.Wakes key now d r d') : Noted id entry limit d'.store.table es' := by
  by_cases hkey : id.regionKey = key
  · subst hkey
    have hregion : Desk.isRegionKey id.regionKey = true := Desk.isRegionKey_regionKey id
    have hfragment : Desk.isFragmentKey id.regionKey = false :=
      Desk.isFragmentKey_of_isRegionKey hregion
    cases hwake with
    | stale hkey hlook hleft =>
        right
        have hgone : (d.without id.regionKey).look id.regionKey = none :=
          (Desk.look_without d _ _).trans (if_pos rfl)
        refine ⟨hgone, ?_⟩
        rcases h with hstored | ⟨-, hover⟩
        · obtain rfl : entry.encode = _ := Option.some.inj (hstored.symm.trans hlook)
          rw [RegionEntry.left?_eq (RegionEntry.decode?_encode entry)] at hleft
          split at hleft
          · cases hleft
          · rename_i hover
            exact UInt64.le_trans (UInt64.not_lt.1 hover) hlimit
        · exact hover
    | unreadable hkey hlook hdecode =>
        rw [hfragment] at hkey
        cases hkey
    | flushed hkey hopen hdue =>
        rw [hfragment] at hkey
        cases hkey
    | _ => exact h
  · exact h.congr (Desk.look_of_wakes hwake hkey)

/-- A noted region is kept by all that neither notes nor forgets a region of the session, and looks
at what is due in time. -/
theorem kept (id : SessionId) (entry : RegionEntry) (limit : UInt64) :
    Kept (fun t => t ≤ limit) (fun key => key ≠ id.regionKey) (Noted id entry limit) where
  visit := by
    intro d d' w v a h hvisit
    exact h.congr (Desk.look_of_visits hvisit (Ne.symm (SessionId.fragmentKey_ne_regionKey v.id id)))
  wake h htime hwake := h.wake htime hwake
  tell h _ := h
  put := by
    intro t es key h hfree value
    exact h.congr ((Table.get?_put t key _ value).trans (if_neg (Ne.symm hfree)))
  remove := by
    intro t es key h hfree
    exact h.congr ((Table.get?_remove t key _).trans (if_neg (Ne.symm hfree)))

/-- The region that a connect report finds. -/
theorem region?_eq {d : Desk} {found : Option String} (h : Noted id entry now d.store.table es)
    (hfound : d.region? id now = .ok found) :
    found = if now < entry.due then some entry.region else none := by
  unfold Desk.region? at hfound
  cases hget : d.store.get id.regionKey with
  | error e =>
      rw [hget] at hfound
      cases hfound
  | ok stored =>
      obtain ⟨-, rfl⟩ := Store.answer_eq_ok hget
      rw [hget] at hfound
      cases hfound
      rcases h with hstored | ⟨hgone, hover⟩
      · rw [hstored, Option.bind_some, RegionEntry.fresh?_eq (RegionEntry.decode?_encode entry)]
        split
        · rfl
        · rfl
      · rw [hgone, if_neg (UInt64.not_lt.2 hover)]
        rfl

end Noted

/-- No fragment of a session lies under another key than the session's. -/
def Table.Homes (t : Table) (id : SessionId) : Prop :=
  ∀ key x, Desk.isFragmentKey key = true → t.fragment? key = some x → x.session = id.text →
    key = id.fragmentKey

theorem SessionId.recordsOf_session {id : SessionId} {r : SessionRecord} (h : r.session = id.text) :
    id.recordsOf [.session r] = [r] := by
  have hown : (r.session == id.text) = true := beq_iff_eq.2 h
  exact List.filter_cons_of_pos hown

theorem SessionId.recordsOf_eq_nil {es : List Event} (h : ∀ e ∈ es, e.record? = none)
    (id : SessionId) : id.recordsOf es = [] := by
  rw [recordsOf, List.filterMap_eq_nil_iff.2 h]
  rfl

/-- The region of a fragment has been kept: either the fragment is still open and bears it, or its
record is among those of the session and bears it. Where the session has no fragments elsewhere, that
is the first record. -/
def Carries (id : SessionId) (tag : String) (start : UInt64) (region : String) (homed : Prop)
    (found : Option Fragment) (records : List SessionRecord) : Prop :=
  (∃ x, found = some x ∧ x.finish.Bears id tag start region ∧ (homed → records = [])) ∨
    ∃ r ∈ records, r.Bears id tag start region ∧ (homed → records.head? = some r)

namespace Carries

variable {id : SessionId} {tag region : String} {start : UInt64} {homed : Prop}
variable {found found' : Option Fragment} {records news : List SessionRecord} {f f' : Fragment}

theorem goesOn (h : Carries id tag start region homed (some f) records) (hon : f.GoesOn f') :
    Carries id tag start region homed (some f') records := by
  rcases h with ⟨x, hx, hbears, hnone⟩ | hrecord
  · cases hx
    exact .inl ⟨f', rfl, hon.bears hbears, hnone⟩
  · exact .inr hrecord

/-- A record that is there stays, whatever is opened after it. -/
theorem opened (h : Carries id tag start region homed none records) (found' : Option Fragment) :
    Carries id tag start region homed found' records := by
  rcases h with ⟨x, hx, -⟩ | hrecord
  · cases hx
  · exact .inr hrecord

/-- A fragment that is finished leaves its record. -/
theorem finished (h : Carries id tag start region homed (some f) records)
    (found' : Option Fragment) (hnews : f.finish.session = id.text → news = [f.finish]) :
    Carries id tag start region homed found' (records ++ news) := by
  right
  rcases h with ⟨x, hx, hbears, hnone⟩ | ⟨r, hr, hbears, hfirst⟩
  · cases hx
    rw [hnews hbears.session]
    refine ⟨f.finish, List.mem_append_right _ List.mem_cons_self, hbears, ?_⟩
    intro hhomed
    rw [hnone hhomed]
    rfl
  · refine ⟨r, List.mem_append_left _ hr, hbears, ?_⟩
    intro hhomed
    rw [List.head?_append, hfirst hhomed]
    rfl

/-- Records of fragments elsewhere do not matter. -/
theorem append (h : Carries id tag start region homed found records)
    (hnews : homed → news = []) : Carries id tag start region homed found (records ++ news) := by
  rcases h with ⟨x, hx, hbears, hnone⟩ | ⟨r, hr, hbears, hfirst⟩
  · refine .inl ⟨x, hx, hbears, ?_⟩
    intro hhomed
    rw [hnone hhomed, hnews hhomed]
    rfl
  · refine .inr ⟨r, List.mem_append_left _ hr, hbears, ?_⟩
    intro hhomed
    rw [List.head?_append, hfirst hhomed]
    rfl

end Carries

/-- Since some events, the region of a fragment has been kept. -/
def Carried (id : SessionId) (tag : String) (start : UInt64) (region : String)
    (earlier : List Event) (homed : Prop) (t : Table) (es : List Event) : Prop :=
  (homed → t.Homes id) ∧ ∃ since, es = earlier ++ since ∧
    Carries id tag start region homed (t.fragment? id.fragmentKey) (id.recordsOf since)

namespace Carried

variable {id : SessionId} {tag region key : String} {start : UInt64} {earlier es news : List Event}
variable {homed : Prop} {t t' : Table} {d d' : Desk}

/-- What is carried depends on the fragments that are open, and on the records. -/
theorem congr (h : Carried id tag start region earlier homed t es)
    (hopen : ∀ key, Desk.isFragmentKey key = true → t'.fragment? key = t.fragment? key)
    (hnews : id.recordsOf news = []) : Carried id tag start region earlier homed t' (es ++ news) := by
  obtain ⟨hhomes, since, rfl, hcarries⟩ := h
  refine ⟨?_, since ++ news, List.append_assoc _ _ _, ?_⟩
  · intro hhomed key x hkey hx
    rw [hopen key hkey] at hx
    exact hhomes hhomed key x hkey hx
  · rw [hopen _ (Desk.isFragmentKey_fragmentKey id), SessionId.recordsOf_append, hnews,
      List.append_nil]
    exact hcarries

/-- A change of a key that is not that of a fragment does not matter. -/
theorem change (h : Carried id tag start region earlier homed t es)
    (hkey : Desk.isFragmentKey key = false)
    (hother : ∀ key', key' ≠ key → t'.get? key' = t.get? key') :
    Carried id tag start region earlier homed t' es := by
  have hopen : ∀ key', Desk.isFragmentKey key' = true → t'.fragment? key' = t.fragment? key' := by
    intro key' hkey'
    have hne : key' ≠ key := fun heq => Bool.false_ne_true (hkey.symm.trans (heq ▸ hkey'))
    exact Table.fragment?_congr (hother key' hne)
  have hchanged : Carried id tag start region earlier homed t' (es ++ []) := h.congr hopen rfl
  rw [List.append_nil] at hchanged
  exact hchanged

/-- Where one key alters, the fragments of a session lie where they did or are at home. -/
theorem homes_of_alters (h : d.store.table.Homes id) (halters : Desk.Alters key d d')
    (hother : ∀ key', key' ≠ key → d'.look key' = d.look key') : d'.store.table.Homes id := by
  intro key' x hkey' hx hsession
  by_cases heq : key' = key
  · subst heq
    cases halters with
    | stays hopen hevents => exact h key' x hkey' (hopen.symm.trans hx) hsession
    | goesOn hopen hopen' hon hevents =>
        obtain rfl : _ = x := Option.some.inj (hopen'.symm.trans hx)
        exact h key' _ hkey' hopen (hon.session.symm.trans hsession)
    | opened hnone hopen' hhome hevents =>
        obtain rfl : _ = x := Option.some.inj (hopen'.symm.trans hx)
        exact hhome id hsession
    | finished hopen hhome hevents => exact hhome x hx id hsession
  · have hsame : d'.store.table.fragment? key' = d.store.table.fragment? key' :=
      Table.fragment?_congr (hother key' heq)
    exact h key' x hkey' (hsame.symm.trans hx) hsession

/-- A region is carried through what becomes of the session's own fragment. -/
theorem alters_own (h : Carried id tag start region earlier homed d.store.table d.events)
    (halters : Desk.Alters id.fragmentKey d d')
    (hother : ∀ key', key' ≠ id.fragmentKey → d'.look key' = d.look key') :
    Carried id tag start region earlier homed d'.store.table d'.events := by
  obtain ⟨hhomes, since, hsince, hcarries⟩ := h
  refine ⟨fun hhomed => homes_of_alters (hhomes hhomed) halters hother, ?_⟩
  rw [Desk.fragment?_table] at hcarries ⊢
  cases halters with
  | stays hopen hevents => exact ⟨since, hevents.trans hsince, hopen ▸ hcarries⟩
  | goesOn hopen hopen' hon hevents =>
      rw [hopen] at hcarries
      rw [hopen']
      exact ⟨since, hevents.trans hsince, hcarries.goesOn hon⟩
  | opened hnone hopen' hhome hevents =>
      rw [hnone] at hcarries
      exact ⟨since, hevents.trans hsince, hcarries.opened _⟩
  | @finished f hopen hhome hevents =>
      rw [hopen] at hcarries
      refine ⟨since ++ [.session f.finish], ?_, ?_⟩
      · rw [hevents, hsince, List.append_assoc]
      · rw [SessionId.recordsOf_append]
        exact hcarries.finished _ SessionId.recordsOf_session

/-- A region is carried through what becomes of another fragment. -/
theorem alters_other (hkey : Desk.isFragmentKey key = true) (hne : id.fragmentKey ≠ key)
    (h : Carried id tag start region earlier homed d.store.table d.events)
    (halters : Desk.Alters key d d') (hother : ∀ key', key' ≠ key → d'.look key' = d.look key') :
    Carried id tag start region earlier homed d'.store.table d'.events := by
  obtain ⟨hhomes, since, hsince, hcarries⟩ := h
  refine ⟨fun hhomed => homes_of_alters (hhomes hhomed) halters hother, ?_⟩
  have hsame : d'.store.table.fragment? id.fragmentKey = d.store.table.fragment? id.fragmentKey :=
    Table.fragment?_congr (hother _ hne)
  rw [hsame]
  cases halters with
  | stays hopen hevents => exact ⟨since, hevents.trans hsince, hcarries⟩
  | goesOn hopen hopen' hon hevents => exact ⟨since, hevents.trans hsince, hcarries⟩
  | opened hnone hopen' hhome hevents => exact ⟨since, hevents.trans hsince, hcarries⟩
  | @finished f hopen hhome hevents =>
      refine ⟨since ++ [.session f.finish], ?_, ?_⟩
      · rw [hevents, hsince, List.append_assoc]
      · rw [SessionId.recordsOf_append]
        apply hcarries.append
        intro hhomed
        apply SessionId.recordsOf_session_of_ne
        exact fun hsession => hne (hhomes hhomed key f hkey hopen hsession).symm

theorem alters (hkey : Desk.isFragmentKey key = true)
    (h : Carried id tag start region earlier homed d.store.table d.events)
    (halters : Desk.Alters key d d') (hother : ∀ key', key' ≠ key → d'.look key' = d.look key') :
    Carried id tag start region earlier homed d'.store.table d'.events := by
  by_cases hid : id.fragmentKey = key
  · subst hid
    exact h.alters_own halters hother
  · exact h.alters_other hkey hid halters hother

/-- A region is carried by all that does not write the key of a fragment behind the store's calls. -/
theorem kept (id : SessionId) (tag : String) (start : UInt64) (region : String)
    (earlier : List Event) (homed : Prop) :
    Kept (fun _ => True) (fun key => Desk.isFragmentKey key = false)
      (Carried id tag start region earlier homed) where
  visit := by
    intro d d' w v a h hvisit
    exact h.alters (Desk.isFragmentKey_fragmentKey v.id) (Desk.alters_of_visits hvisit)
      fun key' hne => Desk.look_of_visits hvisit hne
  wake := by
    intro d d' key now r h _ hwake
    cases hkey : Desk.isFragmentKey key with
    | true =>
        exact h.alters hkey (Desk.alters_of_wakes hkey hwake)
          fun key' hne => Desk.look_of_wakes hwake hne
    | false =>
        rw [Desk.events_of_wakes_of_not_fragment hkey hwake]
        exact h.change hkey fun key' hne => Desk.look_of_wakes hwake hne
  tell h hnews := h.congr (fun _ _ => rfl) (SessionId.recordsOf_eq_nil hnews _)
  put := by
    intro t es key h hfree value
    exact h.change hfree fun key' hne => (Table.get?_put t key key' value).trans (if_neg hne)
  remove := by
    intro t es key h hfree
    exact h.change hfree fun key' hne => (Table.get?_remove t key key').trans (if_neg hne)

end Carried

end Gatehouse
