import Gatehouse.Proofs.Apart.Desk
import Gatehouse.Proofs.Backend.Run
import Gatehouse.Proofs.Watch.Desk

/-!
# Readers and cleaners of regions

A region entry is read by requests, swept up by a purge and looked at by its wake-up. All three ask
the same of the stored bytes: that they hold an entry whose time is still to come. The wake-up for
such an entry is put off to that time, which the clock must be able to show.
-/

namespace Gatehouse

namespace Desk

variable {d d' : Desk} {now : UInt64} {key : String} {keys : List String} {id : SessionId}

/-- A key holds a region entry that may still be used at a time. -/
def Usable (now : UInt64) (d : Desk) (key : String) : Prop :=
  ∃ bytes e, d.look key = some bytes ∧ RegionEntry.decode? bytes = some e ∧ now < e.due

/-- What a key holds at one desk it still holds at another. -/
def Survives (d d' : Desk) (key : String) : Prop :=
  ∃ bytes, d.look key = some bytes ∧ d'.look key = some bytes

/-- A wake-up is postponed if its key is armed again after some seconds and nothing else changes. -/
structure Postpones (key : String) (seconds : Nat) (d d' : Desk) : Prop where
  store : d'.store = d.store
  events : d'.events = d.events
  rearmed : d.timer.Rearmed key seconds d'.timer

/-- What a key holds is stale exactly if it is something else than a usable entry. -/
theorem holdsStale_iff :
    d.holdsStale now key = true ↔ (d.look key).isSome = true ∧ ¬ d.Usable now key := by
  unfold holdsStale Usable
  cases hlook : d.look key with
  | none => simp
  | some bytes =>
      rw [Option.any_some, isStale, Option.isNone_iff_eq_none, Option.eq_none_iff_forall_ne_some]
      constructor
      · intro hleft
        refine ⟨rfl, ?_⟩
        rintro ⟨_, e, hsame, hdecode, hlt⟩
        cases hsame
        exact hleft _ (RegionEntry.left?_eq_some_iff.2 ⟨e, hdecode, hlt, rfl⟩)
      · rintro ⟨-, hnot⟩ left hleft
        obtain ⟨e, hdecode, hlt, -⟩ := RegionEntry.left?_eq_some_iff.1 hleft
        exact hnot ⟨bytes, e, rfl, hdecode, hlt⟩

theorem Usable.isSome_look (h : d.Usable now key) : (d.look key).isSome = true := by
  obtain ⟨bytes, e, hlook, -, -⟩ := h
  rw [hlook]
  rfl

/-- What a desk still holds survives there if it was there at all. -/
theorem survives_of_look (h : d'.look key = d.look key) (hsome : (d.look key).isSome = true) :
    d.Survives d' key := by
  obtain ⟨bytes, hlook⟩ := Option.isSome_iff_exists.1 hsome
  exact ⟨bytes, hlook, h.trans hlook⟩

theorem not_survives_of_look (h : d'.look key = none) : ¬ d.Survives d' key := by
  rintro ⟨bytes, -, hlook⟩
  cases h.symm.trans hlook

/-- A desk without some keys has dropped exactly these. -/
theorem drops_dropping (keys : List String) (d : Desk) :
    Drops (fun key => keys.contains key) d (d.dropping keys) := by
  induction keys generalizing d with
  | nil => exact .refl d
  | cons key rest ih =>
      apply ((Drops.one d key).trans (ih _)).congr
      intro key'
      exact List.contains_cons

/-- A purge of some keys drops the stale ones, and counts each of them once however often it is
among the keys. -/
theorem purgeKeys_counts (hup : .removeIf ∉ d.store.down) (now : UInt64) (keys : List String) :
    ∃ removed : List String, removed.Nodup ∧
      (∀ key, key ∈ removed ↔ key ∈ keys ∧ d.holdsStale now key = true) ∧
      purgeKeys now keys d = .ok (removed.length, d.dropping removed) := by
  induction keys generalizing d with
  | nil => exact ⟨[], List.nodup_nil, by simp, rfl⟩
  | cons first rest ih =>
      obtain ⟨found, store, hremove⟩ : ∃ found store,
          d.store.removeIf first (isStale now) = .ok (found, store) := by
        cases hremove : d.store.removeIf first (isStale now) with
        | ok result => exact ⟨_, _, rfl⟩
        | error e => exact absurd (Store.removeIf_eq_error hremove) hup
      obtain ⟨rfl, ⟨hstale, hstore⟩ | ⟨hstale, hstore⟩⟩ := removeIf_cases hremove
      · -- the first key is gone afterwards, so it is not counted again
        have hlook : ∀ key, ((d.without first).disarm first).holdsStale now key =
            if key = first then false else d.holdsStale now key := by
          intro key
          unfold holdsStale
          rw [show ((d.without first).disarm first).look key = (d.without first).look key from rfl,
            look_without]
          split
          · rfl
          · rfl
        obtain ⟨removed, hnodup, hmem, hpurge⟩ := ih (d := (d.without first).disarm first) hup
        refine ⟨first :: removed, List.nodup_cons.2 ⟨?_, hnodup⟩, ?_, ?_⟩
        · intro hagain
          have hgone := ((hmem first).1 hagain).2
          rw [hlook, if_pos rfl] at hgone
          cases hgone
        · intro key
          rw [List.mem_cons, List.mem_cons, hmem, hlook]
          by_cases heq : key = first
          · subst heq
            exact ⟨fun _ => ⟨.inl rfl, hstale⟩, fun _ => .inl rfl⟩
          · rw [if_neg heq]
            simp only [heq, false_or]
        · simp only [purgeKeys, hremove, hstale, ↓reduceIte, hstore, hpurge]
          rfl
      · obtain ⟨removed, hnodup, hmem, hpurge⟩ := ih hup
        refine ⟨removed, hnodup, ?_, ?_⟩
        · intro key
          rw [hmem, List.mem_cons]
          constructor
          · rintro ⟨hrest, hholds⟩
            exact ⟨.inr hrest, hholds⟩
          · rintro ⟨rfl | hrest, hholds⟩
            · rw [holdsStale, hstale] at hholds
              cases hholds
            · exact ⟨hrest, hholds⟩
        · simp only [purgeKeys, hremove, hstale, Bool.false_eq_true, ↓reduceIte, hstore, hpurge]

/-- A purge drops the keys of region entries that hold no usable one, and counts them. -/
theorem purgeRegions_counts (hkeys : .keys ∉ d.store.down) (hremove : .removeIf ∉ d.store.down)
    (now : UInt64) :
    ∃ (removed : List String) (purged : Desk), removed.Nodup ∧
      (∀ key, key ∈ removed ↔
        isRegionKey key = true ∧ (d.look key).isSome = true ∧ ¬ d.Usable now key) ∧
      d.purgeRegions now = .ok (removed.length, purged) ∧
      Drops (fun key => removed.contains key) d purged := by
  obtain ⟨removed, hnodup, hmem, hpurge⟩ :=
    purgeKeys_counts hremove now (d.store.table.keys SessionId.regionStem)
  have hlisted : d.store.keys SessionId.regionStem =
      .ok (d.store.table.keys SessionId.regionStem) := Store.answer_of_up hkeys _
  refine ⟨removed, d.dropping removed, hnodup, ?_, ?_, drops_dropping removed d⟩
  · intro key
    rw [hmem, mem_keys_regionStem, holdsStale_iff]
    constructor
    · rintro ⟨⟨hsome, hregion⟩, -, hunusable⟩
      exact ⟨hregion, hsome, hunusable⟩
    · rintro ⟨hregion, hsome, hunusable⟩
      exact ⟨⟨hsome, hregion⟩, hsome, hunusable⟩
  · rw [purgeRegions, hlisted]
    exact hpurge

/-- What the wake-up for a region entry does. -/
theorem wakened_regionKey (now : UInt64) (d : Desk) (id : SessionId) :
    d.wakened id.regionKey now = match d.look id.regionKey with
      | none => (none, d)
      | some bytes => match RegionEntry.left? bytes now with
        | none => (none, d.without id.regionKey)
        | some left => (none, d.arm id.regionKey left) := by
  have hregion := isRegionKey_regionKey id
  rw [wakened, isFragmentKey_of_isRegionKey hregion, hregion]
  rfl

/-- The wake-up for a region entry takes it out exactly if it is not usable, and otherwise comes
again at its time. -/
theorem handleExpiry_regionKey (hremove : .removeIf ∉ d.store.down) (id : SessionId)
    (now : UInt64) :
    ∃ woken, d.handleExpiry id.regionKey now = .ok (none, woken) ∧
      (d.Survives woken id.regionKey ↔ d.Usable now id.regionKey) ∧
      ∀ bytes e, d.look id.regionKey = some bytes → RegionEntry.decode? bytes = some e →
        now < e.due → Postpones id.regionKey (e.due.toNat - now.toNat) d woken := by
  rw [handleExpiry_of_up hremove, wakened_regionKey]
  cases hlook : d.look id.regionKey with
  | none =>
      refine ⟨d, rfl, ⟨?_, ?_⟩, nofun⟩
      · intro hsurvives
        exact absurd hsurvives (not_survives_of_look hlook)
      · intro husable
        exact absurd husable.isSome_look (by rw [hlook]; exact Bool.false_ne_true)
  | some bytes =>
      dsimp only
      cases hleft : RegionEntry.left? bytes now with
      | none =>
          have hunusable : ∀ e, RegionEntry.decode? bytes = some e → ¬ now < e.due := by
            intro e hdecode hlt
            cases hleft.symm.trans (RegionEntry.left?_eq_some_iff.2 ⟨e, hdecode, hlt, rfl⟩)
          refine ⟨d.without id.regionKey, rfl, ⟨?_, ?_⟩, ?_⟩
          · intro hsurvives
            refine absurd hsurvives (not_survives_of_look ?_)
            rw [look_without, if_pos rfl]
          · rintro ⟨_, e, hlook', hdecode, hlt⟩
            cases hlook.symm.trans hlook'
            exact absurd hlt (hunusable e hdecode)
          · rintro _ e ⟨⟩ hdecode hlt
            exact absurd hlt (hunusable e hdecode)
      | some left =>
          obtain ⟨e, hdecode, hlt, rfl⟩ := RegionEntry.left?_eq_some_iff.1 hleft
          refine ⟨d.arm id.regionKey (e.due - now), rfl, ⟨?_, ?_⟩, ?_⟩
          · intro _
            exact ⟨bytes, e, hlook, hdecode, hlt⟩
          · intro husable
            exact survives_of_look rfl husable.isSome_look
          · rintro _ e' ⟨⟩ hdecode' _
            cases hdecode.symm.trans hdecode'
            rw [← toNat_sub_of_lt hlt]
            exact ⟨rfl, rfl, Timer.rearmed_armSeconds⟩

/-- A request is told a region exactly if the entry is usable. -/
theorem region?_isSome (hget : .get ∉ d.store.down) (id : SessionId) (now : UInt64) :
    ∃ region, d.region? id now = .ok region ∧
      (region.isSome = true ↔ d.Usable now id.regionKey) := by
  refine ⟨_, region?_of_up hget, ?_⟩
  unfold Usable
  rw [Option.isSome_map]
  cases hlook : d.look id.regionKey with
  | none => simp
  | some bytes =>
      cases hdecode : RegionEntry.decode? bytes with
      | none => simp [RegionEntry.fresh?, hdecode]
      | some e =>
          rw [Option.bind_some, RegionEntry.fresh?_eq hdecode]
          split
          · rename_i hlt
            exact ⟨fun _ => ⟨bytes, e, rfl, hdecode, hlt⟩, fun _ => rfl⟩
          · rename_i hnot
            constructor
            · intro hfresh
              cases hfresh
            · rintro ⟨_, e', hsame, hdecode', hlt⟩
              cases hsame
              cases hdecode.symm.trans hdecode'
              exact absurd hlt hnot

/-- A wake-up for a key of neither kind changes nothing. -/
theorem handleExpiry_of_neither (hfragment : isFragmentKey key = false)
    (hregion : isRegionKey key = false) (now : UInt64) (d : Desk) :
    d.handleExpiry key now = .ok (none, d) := by
  rw [handleExpiry, hfragment, hregion]
  rfl

/-- Whatever is stored, a region is read exactly if its entry survives a purge, exactly if it survives
its wake-up, and exactly if it can be read and its time is still to come; its wake-up then comes again
at that time, if the clock can show it. A purge drops exactly the keys of region entries that are not
usable, and counts them. A wake-up for a key of neither kind changes nothing. -/
theorem regions_judged_alike (hget : .get ∉ d.store.down) (hkeys : .keys ∉ d.store.down)
    (hremove : .removeIf ∉ d.store.down) (now : UInt64) :
    (∃ (removed : List String) (purged : Desk), removed.Nodup ∧
      (∀ key, key ∈ removed ↔
        isRegionKey key = true ∧ (d.look key).isSome = true ∧ ¬ d.Usable now key) ∧
      d.purgeRegions now = .ok (removed.length, purged) ∧
      Drops (fun key => removed.contains key) d purged ∧
      ∀ id : SessionId, ∃ region, d.region? id now = .ok region ∧
        (region.isSome = true ↔ d.Usable now id.regionKey) ∧
        (d.Survives purged id.regionKey ↔ d.Usable now id.regionKey) ∧
        (d.Reaches now id.regionKey → ∃ woken,
          d.handleExpiry id.regionKey now = .ok (none, woken) ∧
          (d.Survives woken id.regionKey ↔ d.Usable now id.regionKey) ∧
          ∀ bytes e, d.look id.regionKey = some bytes → RegionEntry.decode? bytes = some e →
            now < e.due → Postpones id.regionKey (e.due.toNat - now.toNat) d woken)) ∧
    ∀ key, isFragmentKey key = false → isRegionKey key = false →
      d.handleExpiry key now = .ok (none, d) := by
  refine ⟨?_, fun key hfragment hregion => handleExpiry_of_neither hfragment hregion now d⟩
  obtain ⟨removed, purged, hnodup, hmem, hpurge, hdrops⟩ := purgeRegions_counts hkeys hremove now
  refine ⟨removed, purged, hnodup, hmem, hpurge, hdrops, ?_⟩
  intro id
  obtain ⟨region, hregion, hread⟩ := region?_isSome hget id now
  refine ⟨region, hregion, hread, ⟨?_, ?_⟩, fun _ => handleExpiry_regionKey hremove id now⟩
  · rintro ⟨bytes, hlook, hlook'⟩
    by_contra hunusable
    have hremoved : id.regionKey ∈ removed :=
      (hmem id.regionKey).2 ⟨isRegionKey_regionKey id, by rw [hlook]; rfl, hunusable⟩
    rw [hdrops.look, if_pos (List.contains_iff_mem.2 hremoved)] at hlook'
    cases hlook'
  · intro husable
    apply survives_of_look _ husable.isSome_look
    rw [hdrops.look, if_neg]
    intro hremoved
    exact ((hmem id.regionKey).1 (List.contains_iff_mem.1 hremoved)).2.2 husable

/-- Of two entries and an unreadable one, at the second at which one entry has run out: it goes with
the unreadable one, and the other is told for one second more. -/
theorem regions_judged_alike_at_the_last_second :
    let a : SessionId := ⟨"a1", by decide, by decide, by decide⟩
    let b : SessionId := ⟨"b2", by decide, by decide, by decide⟩
    let table : Table := .memory (Dict.ofList [(a.regionKey, RegionEntry.encode ⟨"eu", 11⟩),
      (b.regionKey, RegionEntry.encode ⟨"us", 10⟩), ("session-geo:", [0x7B])])
    let d : Desk := { store := { table := table }, timer := { clock := 10000 } }
    (.get ∉ d.store.down ∧ .keys ∉ d.store.down ∧ .removeIf ∉ d.store.down) ∧
      (d.Usable 10 a.regionKey ∧ ¬ d.Usable 10 b.regionKey) ∧
      ∃ purged, d.purgeRegions 10 = .ok (2, purged) ∧ d.Survives purged a.regionKey ∧
        ¬ d.Survives purged b.regionKey ∧
        ∃ woken, d.handleExpiry a.regionKey 10 = .ok (none, woken) ∧
          Postpones a.regionKey 1 d woken := by
  intro a b table d
  have hup : ∀ c, c ∉ d.store.down := Store.not_down_of_nil rfl
  have hread : d.look a.regionKey = some (RegionEntry.encode ⟨"eu", 11⟩) ∧
      d.look b.regionKey = some (RegionEntry.encode ⟨"us", 10⟩) ∧
      (d.purgeRegions 10).toOption.map Prod.fst = some 2 := by
    decide +kernel
  obtain ⟨ha, hb, hcount⟩ := hread
  have husable : d.Usable 10 a.regionKey :=
    ⟨_, _, ha, RegionEntry.decode?_encode _, by decide⟩
  have hunusable : ¬ d.Usable 10 b.regionKey := by
    rintro ⟨bytes, e, hlook, hdecode, hlt⟩
    cases hb.symm.trans hlook
    cases (RegionEntry.decode?_encode _).symm.trans hdecode
    exact absurd hlt (by decide)
  obtain ⟨⟨removed, purged, -, -, hpurge, -, hjudged⟩, -⟩ :=
    regions_judged_alike (hup .get) (hup .keys) (hup .removeIf) 10
  have hreach : d.Reaches 10 a.regionKey :=
    reaches_of_look ha (deadline?_regionKey a _) (by decide)
  obtain ⟨-, -, -, hkept, hwake⟩ := hjudged a
  obtain ⟨woken, hexpiry, -, hpostponed⟩ := hwake hreach
  obtain ⟨-, -, -, hkept', -⟩ := hjudged b
  rw [hpurge] at hcount
  have htwo : removed.length = 2 := Option.some.inj hcount
  refine ⟨⟨hup _, hup _, hup _⟩, ⟨husable, hunusable⟩, purged, ?_, hkept.2 husable,
    fun hsurvives => hunusable (hkept'.1 hsurvives), woken, hexpiry,
    hpostponed _ _ ha (RegionEntry.decode?_encode _) (by decide)⟩
  rw [hpurge, htwo]

end Desk

end Gatehouse
