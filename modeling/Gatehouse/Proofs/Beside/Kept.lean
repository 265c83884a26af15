import Gatehouse.Proofs.Beside.Run

/-!
# What every run keeps true

A property of the stored values and the events is kept by every step, whatever front end takes it, if
visits, wake-ups and the other emitted events keep it, and if it does not mind the keys that are put
or removed regardless of what is there. This is the case of two fleets beside each other that are the
same fleet.
-/

namespace Gatehouse

variable {timely : UInt64 → Prop} {free : String → Prop} {P : Table → List Event → Prop}

/-- A property is kept by visits, by wake-ups at certain times, by events without a record, and by
changes of certain keys. -/
structure Kept (timely : UInt64 → Prop) (free : String → Prop) (P : Table → List Event → Prop) :
    Prop where
  visit : ∀ {d d' : Desk} {w v a}, P d.store.table d.events → Desk.Visits w v d a d' →
    P d'.store.table d'.events
  wake : ∀ {d d' : Desk} {key now r}, P d.store.table d.events → timely now →
    Desk.Wakes key now d r d' → P d'.store.table d'.events
  tell : ∀ {t es news}, P t es → (∀ e ∈ news, Event.record? e = none) → P t (es ++ news)
  put : ∀ {t es key}, P t es → free key → ∀ value, P (t.put key value) es
  remove : ∀ {t es key}, P t es → free key → P (t.remove key) es

/-- Tables that are identical and have a property together with the events. -/
def Identical (P : Table → List Event → Prop) (t t' : Table) (es : List Event) : Prop := t' = t ∧ P t es

/-- An attempt matches itself if every success of it is related to itself. -/
theorem Matches.refl {α : Type} {R : α → α → Prop} {x : Except Unavailable α}
    (h : ∀ a, x = .ok a → R a a) : Matches R x x := by
  cases x with
  | error e => exact .inl ⟨e, rfl, rfl⟩
  | ok a => exact .inr ⟨a, a, rfl, rfl, h a rfl⟩

namespace Desk

variable {d d' : Desk}

/-- A desk whose table and events have a property is beside itself. -/
theorem beside_self (h : P d.store.table d.events) : d.Beside (Identical P) d :=
  ⟨d.store.table, rfl, rfl, h⟩

theorem eq_of_beside (h : d.Beside (Identical P) d') : d' = d ∧ P d.store.table d.events := by
  obtain ⟨t, rfl, rfl, hP⟩ := h
  exact ⟨rfl, hP⟩

/-- What is tried at a desk matches itself if a success keeps the property. -/
theorem matches_self {α : Type} {x : Except Unavailable (α × Desk)}
    (h : ∀ a d', x = .ok (a, d') → P d'.store.table d'.events) :
    Matches (Abreast (Desk.Beside (Identical P))) x x :=
  .refl fun a ha => ⟨rfl, beside_self (h a.1 a.2 ha)⟩

end Desk

/-- The operations respect what is kept. -/
theorem Kept.respected (hP : Kept timely free P) : Respected timely free (Identical P) where
  look h key := congrArg (fun t => t.get? key) h.1
  tell h hnews := ⟨h.1, hP.tell h.2 hnews⟩
  put := by
    rintro t t' es key ⟨rfl, h⟩ hfree value
    exact ⟨rfl, hP.put h hfree value⟩
  remove := by
    rintro t t' es key ⟨rfl, h⟩ hfree
    exact ⟨rfl, hP.remove h hfree⟩
  connect := by
    intro d d' h w id tag fields now
    obtain ⟨rfl, hd⟩ := Desk.eq_of_beside h
    apply Desk.matches_self
    intro flushed d'' hconnect
    have hvisits := Desk.visits_visit w ⟨id, .connect fields, now, tag⟩ d'
    simp only [Desk.visit, hconnect] at hvisits
    exact hP.visit hd hvisits
  report := by
    intro d d' h id tag r
    obtain ⟨rfl, hd⟩ := Desk.eq_of_beside h
    apply Desk.matches_self
    intro outcome d'' hreport
    -- a report is a status with the report's window in the place of a fragment's
    have hstatus : d'.status ⟨r.window, r.window, r.window⟩ id tag r.bytes r.seq r.now =
        .ok (outcome, d'') := hreport
    have hvisits := Desk.visits_visit ⟨r.window, r.window, r.window⟩
      ⟨id, .status r.bytes r.seq, r.now, tag⟩ d'
    simp only [Desk.visit, hstatus] at hvisits
    exact hP.visit hd hvisits
  expiry := by
    intro d d' now h htime key
    obtain ⟨rfl, hd⟩ := Desk.eq_of_beside h
    apply Desk.matches_self
    intro flushed d'' hexpiry
    exact hP.wake hd htime (Desk.handleExpiry_wakes hexpiry)
  recover := by
    intro d d' h now
    obtain ⟨rfl, hd⟩ := Desk.eq_of_beside h
    apply Desk.matches_self
    intro n d'' hrecover
    obtain ⟨hstore, hevents⟩ := Desk.recover_frame hrecover
    rw [hstore, hevents]
    exact hd
  purge := by
    intro d d' now h htime
    obtain ⟨rfl, hd⟩ := Desk.eq_of_beside h
    apply Desk.matches_self
    intro n d'' hpurge
    apply Desk.purgeRegions_stale (P := fun d => P d.store.table d.events) _ hd hpurge
    intro e key hregion hstale he
    -- what is purged would have been removed by a wake-up
    obtain ⟨bytes, hlook, hleft⟩ := (Option.any_eq_true _ _).1 hstale
    have hwoken := hP.wake he htime (.stale hregion hlook (Option.isNone_iff_eq_none.1 hleft))
    exact hwoken

namespace Fleet

variable {f : Fleet} {steps : List Step}

/-- A permitted history keeps what each of its steps keeps. -/
theorem history_kept (hP : Kept timely free P) (h : P f.store.table f.events)
    (hsteps : f.PermitsAll timely free steps) :
    P (f.history steps).2.store.table (f.history steps).2.events := by
  have hbeside : f.Beside (Identical P) f := ⟨f.store.table, rfl, rfl, h⟩
  obtain ⟨t, -, -, hkept⟩ := (hbeside.history hP.respected hsteps).state
  exact hkept

end Fleet

end Gatehouse
