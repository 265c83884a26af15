import Gatehouse.Proofs.Visit
import Gatehouse.Service.Router
import Gatehouse.Login

/-!
# Work on another table

Nothing a front end does depends on its table but through a few operations. If each of these treats
two tables alike, so does everything that is built from them: the answers are the same, and what was
true of the two tables and the events before is true of them afterwards.
-/

namespace Gatehouse

/-- The store with another table. -/
def Store.on (s : Store) (t : Table) : Store := { s with table := t }

/-- The desk with another table in its store. -/
def Desk.on (d : Desk) (t : Table) : Desk := { d with store := d.store.on t }

/-- Two results are abreast if their answers are the same and their states are related. -/
structure Abreast {α σ : Type} (R : σ → σ → Prop) (x y : α × σ) : Prop where
  answer : y.1 = x.1
  state : R x.2 y.2

/-- Two attempts match if both fail for the same reason, or both succeed and are related. -/
def Matches {α : Type} (R : α → α → Prop) (x y : Except Unavailable α) : Prop :=
  (∃ e, x = .error e ∧ y = .error e) ∨ ∃ a b, x = .ok a ∧ y = .ok b ∧ R a b

theorem Matches.map {α β : Type} {R : α → α → Prop} {S : β → β → Prop} {x y : Except Unavailable α}
    (h : Matches R x y) (f : α → β) (hf : ∀ a b, R a b → S (f a) (f b)) :
    Matches S (x.map f) (y.map f) := by
  obtain ⟨e, rfl, rfl⟩ | ⟨a, b, rfl, rfl, hab⟩ := h
  · exact .inl ⟨e, rfl, rfl⟩
  · exact .inr ⟨f a, f b, rfl, rfl, hf a b hab⟩

variable {timely : UInt64 → Prop} {free : String → Prop}
variable {Q : Table → Table → List Event → Prop}

/-- Two desks are beside each other if they differ in their tables alone, and these and the events
are related. -/
def Desk.Beside (Q : Table → Table → List Event → Prop) (d d' : Desk) : Prop :=
  ∃ t, d' = d.on t ∧ Q d.store.table t d.events

/-- The operations respect a relation between two tables and the events if they treat two desks that
are beside each other alike. Looking at what is due, they do so at certain times only, and of keys
put or removed regardless of what is there, for some keys only. -/
structure Respected (timely : UInt64 → Prop) (free : String → Prop)
    (Q : Table → Table → List Event → Prop) : Prop where
  look : ∀ {t t' es}, Q t t' es → ∀ key, t'.get? key = t.get? key
  tell : ∀ {t t' es news}, Q t t' es → (∀ e ∈ news, Event.record? e = none) → Q t t' (es ++ news)
  put : ∀ {t t' es key}, Q t t' es → free key → ∀ value, Q (t.put key value) (t'.put key value) es
  remove : ∀ {t t' es key}, Q t t' es → free key → Q (t.remove key) (t'.remove key) es
  connect : ∀ {d d' : Desk}, d.Beside Q d' → ∀ w id tag fields now,
    Matches (Abreast (Desk.Beside Q)) (d.connect w id tag fields now)
      (d'.connect w id tag fields now)
  report : ∀ {d d' : Desk}, d.Beside Q d' → ∀ id tag r,
    Matches (Abreast (Desk.Beside Q)) (d.report id tag r) (d'.report id tag r)
  expiry : ∀ {d d' : Desk} {now}, d.Beside Q d' → timely now → ∀ key,
    Matches (Abreast (Desk.Beside Q)) (d.handleExpiry key now) (d'.handleExpiry key now)
  recover : ∀ {d d' : Desk}, d.Beside Q d' → ∀ now,
    Matches (Abreast (Desk.Beside Q)) (d.recover now) (d'.recover now)
  purge : ∀ {d d' : Desk} {now}, d.Beside Q d' → timely now →
    Matches (Abreast (Desk.Beside Q)) (d.purgeRegions now) (d'.purgeRegions now)

namespace Desk

variable {d d' : Desk} {key : String} {now : UInt64}

namespace Beside

theorem timer (h : d.Beside Q d') : d'.timer = d.timer := by
  obtain ⟨t, rfl, -⟩ := h
  rfl

/-- Desks that are beside each other stay so with another timer, and whatever the store fails. -/
theorem retime (h : d.Beside Q d') (timer : Timer) :
    ({ d with timer := timer } : Desk).Beside Q { d' with timer := timer } := by
  obtain ⟨t, rfl, hQ⟩ := h
  exact ⟨t, rfl, hQ⟩

theorem emitAll (h : d.Beside Q d') (hQ : Respected timely free Q) {news : List Event}
    (hnews : ∀ e ∈ news, e.record? = none) : (d.emitAll news).Beside Q (d'.emitAll news) := by
  obtain ⟨t, rfl, hrelated⟩ := h
  exact ⟨t, rfl, hQ.tell hrelated hnews⟩

theorem emit (h : d.Beside Q d') (hQ : Respected timely free Q) {e : Event}
    (he : e.record? = none) : (d.emit e).Beside Q (d'.emit e) := by
  apply h.emitAll hQ
  intro e' he'
  rw [List.mem_singleton.1 he']
  exact he

theorem region? (h : d.Beside Q d') (hQ : Respected timely free Q) (id : SessionId)
    (now : UInt64) : d'.region? id now = d.region? id now := by
  obtain ⟨t, rfl, hrelated⟩ := h
  have hget : (d.on t).store.get id.regionKey = d.store.get id.regionKey :=
    congrArg (d.store.answer .get) (hQ.look hrelated id.regionKey)
  rw [Desk.region?, hget]
  rfl

theorem noteRegion (h : d.Beside Q d') (hQ : Respected timely free Q) (window : UInt64)
    (id : SessionId) (region : String) (now : UInt64)
    (hfree : ∀ e, d.noteRegion window id region now = .ok e → free id.regionKey) :
    Matches (Desk.Beside Q) (d.noteRegion window id region now)
      (d'.noteRegion window id region now) := by
  obtain ⟨t, rfl, hrelated⟩ := h
  by_cases hset : .set ∈ d.store.down
  · left
    refine ⟨⟨d.store.reason⟩, ?_, ?_⟩
    · rw [Desk.noteRegion, Store.set, Store.answer_of_down hset]
    · rw [Desk.noteRegion, Store.set, Store.answer_of_down (s := (d.on t).store) hset]
      rfl
  · have hok (t : Table) : (d.on t).noteRegion window id region now =
        .ok (((d.on t).holding id.regionKey (RegionEntry.encode ⟨region, now + window⟩)).arm
          id.regionKey window) := by
      rw [Desk.noteRegion, Store.set, Store.answer_of_up (s := (d.on t).store) hset]
      rfl
    exact .inr ⟨_, _, hok d.store.table, hok t, _, rfl, hQ.put hrelated (hfree _ (hok _)) _⟩

theorem forgetRegion (h : d.Beside Q d') (hQ : Respected timely free Q) (id : SessionId)
    (hfree : free id.regionKey) :
    Matches (Desk.Beside Q) (d.forgetRegion id) (d'.forgetRegion id) := by
  obtain ⟨t, rfl, hrelated⟩ := h
  by_cases hdelete : .delete ∈ d.store.down
  · left
    refine ⟨⟨d.store.reason⟩, ?_, ?_⟩
    · rw [Desk.forgetRegion, Store.delete, Store.answer_of_down hdelete]
    · rw [Desk.forgetRegion, Store.delete, Store.answer_of_down (s := (d.on t).store) hdelete]
      rfl
  · have hok (t : Table) : (d.on t).forgetRegion id =
        .ok (((d.on t).without id.regionKey).disarm id.regionKey) := by
      rw [Desk.forgetRegion, Store.delete, Store.answer_of_up (s := (d.on t).store) hdelete]
      rfl
    exact .inr ⟨_, _, hok d.store.table, hok t, _, rfl, hQ.remove hrelated hfree⟩

theorem tryForgetRegion (h : d.Beside Q d') (hQ : Respected timely free Q) (id : SessionId)
    (hfree : free id.regionKey) : (d.tryForgetRegion id).Beside Q (d'.tryForgetRegion id) := by
  unfold Desk.tryForgetRegion
  obtain ⟨e, hx, hy⟩ | ⟨a, b, hx, hy, hforgot⟩ := h.forgetRegion hQ id hfree
  · rw [hx, hy]
    exact h
  · rw [hx, hy]
    exact hforgot

theorem visit_report (h : d.Beside Q d') (hQ : Respected timely free Q) (w : Windows)
    {v : VisitOf} (hvisit : v.visit.isReport = true) :
    Abreast (Desk.Beside Q) (d.visit w v) (d'.visit w v) := by
  rw [visit_of_isReport hvisit, visit_of_isReport hvisit]
  obtain ⟨e, hx, hy⟩ | ⟨a, b, hx, hy, hdone⟩ := hQ.report h v.id v.tag (reported w v)
  · rw [hx, hy]
    exact ⟨rfl, h⟩
  · rw [hx, hy]
    exact ⟨congrArg VisitAnswer.reported hdone.answer, hdone.state⟩

theorem visit (h : d.Beside Q d') (hQ : Respected timely free Q) (w : Windows) (v : VisitOf) :
    Abreast (Desk.Beside Q) (d.visit w v) (d'.visit w v) := by
  cases hv : v.visit with
  | connect fields =>
      unfold Desk.visit
      obtain ⟨e, hx, hy⟩ | ⟨a, b, hx, hy, hdone⟩ := hQ.connect h w v.id v.tag fields v.now
      · simp only [hv, hx, hy]
        exact ⟨rfl, h⟩
      · simp only [hv, hx, hy]
        exact ⟨congrArg VisitAnswer.opened hdone.answer, hdone.state⟩
  | status bytes seq => exact h.visit_report hQ w (by rw [hv]; rfl)
  | disconnect bytes seq => exact h.visit_report hQ w (by rw [hv]; rfl)

theorem visitAll (h : d.Beside Q d') (hQ : Respected timely free Q) (w : Windows)
    (vs : List VisitOf) : Abreast (Desk.Beside Q) (d.visitAll w vs) (d'.visitAll w vs) := by
  induction vs generalizing d d' with
  | nil => exact ⟨rfl, h⟩
  | cons v rest ih =>
      obtain ⟨hanswer, hstate⟩ := h.visit hQ w v
      obtain ⟨hanswers, hlast⟩ := ih hstate
      refine ⟨?_, hlast⟩
      dsimp only [Desk.visitAll]
      rw [hanswer, hanswers]

theorem tryExpiry (h : d.Beside Q d') (hQ : Respected timely free Q) (ht : timely now)
    (key : String) : Abreast (Desk.Beside Q) (d.tryExpiry key now) (d'.tryExpiry key now) := by
  unfold Desk.tryExpiry
  obtain ⟨e, hx, hy⟩ | ⟨a, b, hx, hy, hdone⟩ := hQ.expiry h ht key
  · rw [hx, hy]
    exact ⟨rfl, h⟩
  · rw [hx, hy]
    exact ⟨congrArg Except.ok hdone.answer, hdone.state⟩

theorem expireAfter (h : d.Beside Q d') (hQ : Respected timely free Q) (ht : timely now)
    (w : Windows) (key : String) (before : List VisitOf) :
    Abreast (Desk.Beside Q) (d.expireAfter w key now before) (d'.expireAfter w key now before) := by
  rw [expireAfter_eq, expireAfter_eq]
  split
  · obtain ⟨hanswers, hlanded⟩ := h.visitAll hQ w before
    obtain ⟨hanswer, hstate⟩ := hlanded.tryExpiry hQ ht key
    refine ⟨?_, hstate⟩
    dsimp only
    rw [hanswers, hanswer]
  · obtain ⟨hanswer, hstate⟩ := h.tryExpiry hQ ht key
    refine ⟨?_, hstate⟩
    dsimp only
    rw [hanswer]

theorem answerAll (h : d.Beside Q d') (hQ : Respected timely free Q) (ht : timely now)
    (keys : List String) :
    Abreast (Desk.Beside Q) (answerAll now keys d) (answerAll now keys d') := by
  induction keys generalizing d d' with
  | nil => exact ⟨rfl, h⟩
  | cons key rest ih =>
      unfold Desk.answerAll
      obtain ⟨e, hx, hy⟩ | ⟨a, b, hx, hy, hdone⟩ := hQ.expiry h ht key
      · rw [hx, hy]
        obtain ⟨hanswers, hlast⟩ := ih h
        exact ⟨congrArg (List.cons _) hanswers, hlast⟩
      · rw [hx, hy]
        obtain ⟨hanswers, hlast⟩ := ih hdone.state
        exact ⟨congrArg (List.cons _) hanswers, hlast⟩

theorem wake (h : d.Beside Q d') (hQ : Respected timely free Q) (ht : timely now) :
    Abreast (Desk.Beside Q) (wake now d) (wake now d') := by
  unfold Desk.wake
  rw [h.timer]
  exact (h.retime d.timer.collect.2).answerAll hQ ht d.timer.collect.1

/-- A login notes a region at both desks or at none. -/
theorem authenticate (h : d.Beside Q d') (hQ : Respected timely free Q) (g : Gate)
    (user token : String) (remote : Option Address) (now : UInt64)
    (hfree : ∀ id region, (g.authenticate user token remote now d).1 = .session id region →
      free id.regionKey) :
    Abreast (Desk.Beside Q) (g.authenticate user token remote now d)
      (g.authenticate user token remote now d') := by
  unfold Gate.authenticate at hfree ⊢
  split
  · exact ⟨rfl, h⟩
  · rename_i huser
    rw [if_neg huser] at hfree
    cases hparts : g.parts token with
    | torn => exact ⟨rfl, h⟩
    | bare password =>
        dsimp only
        split
        · exact ⟨rfl, h⟩
        · exact ⟨rfl, h⟩
    | named idText password =>
        rw [hparts] at hfree
        dsimp only at hfree ⊢
        cases hid : SessionId.parse? idText with
        | none => exact ⟨rfl, h⟩
        | some id =>
            rw [hid] at hfree
            dsimp only at hfree ⊢
            split
            · rename_i hpassword
              rw [if_pos hpassword] at hfree
              have hnote := h.noteRegion hQ g.window id (g.regionOf remote) now (by
                intro e he
                rw [he] at hfree
                exact hfree id _ rfl)
              obtain ⟨e, hx, hy⟩ | ⟨a, b, hx, hy, hnoted⟩ := hnote
              · rw [hx, hy]
                exact ⟨rfl, h⟩
              · rw [hx, hy]
                exact ⟨rfl, hnoted⟩
            · exact ⟨rfl, h⟩

end Beside

end Desk

/-- Two front ends are beside each other if they differ in their tables alone. -/
def FrontEnd.Beside (Q : Table → Table → List Event → Prop) (fe fe' : FrontEnd) : Prop :=
  ∃ d', fe.desk.Beside Q d' ∧ fe' = { fe with desk := d' }

namespace Site

variable {s : Site} {c : Call} {fe fe' : FrontEnd}

theorem beside_refused (h : fe.Beside Q fe') (rejection : Rejection) :
    Abreast (FrontEnd.Beside Q) ((.error rejection : Except Rejection Response), fe)
      (.error rejection, fe') := ⟨rfl, h⟩

theorem beside_emit (h : fe.Beside Q fe') (hQ : Respected timely free Q) {e : Event}
    (he : e.record? = none) : (fe.emit e).Beside Q (fe'.emit e) := by
  obtain ⟨d', hdesk, rfl⟩ := h
  exact ⟨_, hdesk.emit hQ he, rfl⟩

theorem beside_openSession (h : fe.Beside Q fe') (hQ : Respected timely free Q) (a : Accepted)
    (id : SessionId) (hfree : ∀ r, (s.openSession c a id fe).1 = .ok r → free id.regionKey) :
    Abreast (FrontEnd.Beside Q) (s.openSession c a id fe) (s.openSession c a id fe') := by
  obtain ⟨d', hdesk, rfl⟩ := h
  unfold openSession at hfree ⊢
  rw [hdesk.region? hQ]
  cases hregion : fe.desk.region? id c.now with
  | error e => exact ⟨rfl, d', hdesk, rfl⟩
  | ok noted =>
      rw [hregion] at hfree
      dsimp only at hfree ⊢
      obtain ⟨e, hx, hy⟩ | ⟨⟨_, opened⟩, ⟨_, opened'⟩, hx, hy, hopened⟩ :=
        hQ.connect hdesk s.windows id c.draw.tag
          (s.summary a (noted.getD (s.clientRegion c))).fields c.now
      · rw [hx, hy]
        exact ⟨rfl, d', hdesk, rfl⟩
      · rw [hx] at hfree ⊢
        rw [hy]
        have hforgot := hopened.state.tryForgetRegion hQ id (hfree _ rfl)
        exact ⟨rfl, _, hforgot.emit hQ rfl, rfl⟩

theorem beside_connected (h : fe.Beside Q fe') (hQ : Respected timely free Q)
    (hfree : ∀ r id, (s.connected c fe).1 = .ok r → c.params.sessionRef = .ok (.session id) →
      free id.regionKey) :
    Abreast (FrontEnd.Beside Q) (s.connected c fe) (s.connected c fe') := by
  unfold connected at hfree ⊢
  cases haccept : s.accept .connected c.params with
  | error e => exact beside_refused h e
  | ok a =>
      rw [haccept] at hfree
      cases href : c.params.sessionRef with
      | error e => exact beside_refused h _
      | ok ref =>
          rw [href] at hfree
          cases ref with
          | session id =>
              apply beside_openSession h hQ a id
              intro r hr
              exact hfree r id hr rfl
          | address x => exact ⟨rfl, beside_emit h hQ rfl⟩

theorem beside_failed (h : fe.Beside Q fe') (hQ : Respected timely free Q) :
    Abreast (FrontEnd.Beside Q) (s.failed c fe) (s.failed c fe') := by
  unfold failed
  cases s.accept .failed c.params with
  | error e => exact beside_refused h e
  | ok a =>
      cases c.params.errorCode with
      | error e => exact beside_refused h _
      | ok code => exact ⟨rfl, beside_emit h hQ rfl⟩

theorem beside_reportUsage (h : fe.Beside Q fe') (hQ : Respected timely free Q) (a : Accepted)
    (id : SessionId) (up : Bool) (seq : Option UInt64) (usage : Usage) :
    Abreast (FrontEnd.Beside Q) (s.reportUsage c a id up seq usage fe)
      (s.reportUsage c a id up seq usage fe') := by
  obtain ⟨d', hdesk, rfl⟩ := h
  unfold reportUsage
  dsimp only
  obtain ⟨e, hx, hy⟩ | ⟨⟨_, told⟩, ⟨_, told'⟩, hx, hy, htold⟩ :=
    hQ.report hdesk id c.draw.tag
      ⟨c.now, usage.bytes, seq, if up then s.windows.fragment else s.windows.disconnect⟩
  · rw [hx, hy]
    exact ⟨rfl, d', hdesk, rfl⟩
  · rw [hx, hy]
    exact ⟨rfl, _, htold.state.emit hQ rfl, rfl⟩

theorem beside_status (h : fe.Beside Q fe') (hQ : Respected timely free Q) :
    Abreast (FrontEnd.Beside Q) (s.status c fe) (s.status c fe') := by
  unfold status
  cases s.accept .status c.params with
  | error e => exact beside_refused h e
  | ok a =>
      cases statusFields c.params with
      | error e => exact beside_refused h _
      | ok fields =>
          obtain ⟨id, up, seq⟩ := fields
          cases c.body with
          | none => exact beside_refused h _
          | some body =>
              cases husage : usage? body with
              | none =>
                  simp only [husage]
                  exact ⟨rfl, h⟩
              | some usage =>
                  simp only [husage]
                  exact beside_reportUsage h hQ a id up seq usage

theorem beside_download (h : fe.Beside Q fe') :
    Abreast (FrontEnd.Beside Q) (s.download c fe) (s.download c fe') := by
  unfold download
  cases s.accept .download c.params with
  | error e => exact beside_refused h e
  | ok a =>
      obtain ⟨d', hdesk, rfl⟩ := h
      dsimp only
      cases fe.files.read? (s.buildPath a.identity) with
      | none => exact ⟨rfl, d', hdesk, rfl⟩
      | some content => exact ⟨rfl, d', hdesk, rfl⟩

/-- The events of a handshake hand out no record. -/
theorem record?_handshakeEvents (summary : RequestSummary) (sequence : UInt64)
    (found : List Discovery) :
    ∀ e ∈ handshakeEvents summary sequence found, e.record? = none := by
  intro e he
  rcases List.mem_cons.1 he with rfl | he
  · rfl
  · obtain ⟨discovery, -, rfl⟩ := List.mem_map.1 he
    rfl

theorem beside_handshake (h : fe.Beside Q fe') (hQ : Respected timely free Q) :
    Abreast (FrontEnd.Beside Q) (s.handshake c fe) (s.handshake c fe') := by
  unfold handshake
  cases s.accept .handshake c.params with
  | error e => exact beside_refused h e
  | ok a =>
      cases c.params.knownServers with
      | error e => exact beside_refused h _
      | ok known =>
          obtain ⟨d', hdesk, rfl⟩ := h
          dsimp only
          unfold greet
          dsimp only
          obtain ⟨rotated, rotator, outlet, files⟩ :=
            fe.rotator.rotate fe.outlet fe.files c.draw.key
          cases rotated with
          | error e => exact ⟨rfl, d', hdesk, rfl⟩
          | ok k =>
              exact ⟨rfl, _, hdesk.emitAll hQ (record?_handshakeEvents _ _ _), rfl⟩

/-- A connect report that is carried out has nothing to say. -/
theorem connected_eq_ok {r : Response} (h : (s.connected c fe).1 = .ok r) : r = .ok := by
  unfold connected at h
  split at h
  · cases h
  · split at h
    · cases h
    · unfold openSession at h
      split at h
      · cases h
      · dsimp only at h
        split at h
        · cases h
        · cases h
          rfl
    · cases h
      rfl

/-- A request is handled alike, if it does not connect a session whose region is not to be
forgotten. -/
theorem beside_handle (h : fe.Beside Q fe') (hQ : Respected timely free Q) (e : Endpoint)
    (hfree : ∀ r id, e = .connected → (s.handle e c fe).1 = .ok r →
      c.params.sessionRef = .ok (.session id) → free id.regionKey) :
    Abreast (FrontEnd.Beside Q) (s.handle e c fe) (s.handle e c fe') := by
  cases e with
  | handshake => exact beside_handshake h hQ
  | connected => exact beside_connected h hQ fun r id hr => hfree r id rfl hr
  | failed => exact beside_failed h hQ
  | status => exact beside_status h hQ
  | download => exact beside_download h

theorem beside_route (h : fe.Beside Q fe') (hQ : Respected timely free Q) (r : Request)
    (hfree : ∀ id, Endpoint.ofPath? r.path = some .connected → (s.route r fe).1.status = 200 →
      (s.call r).params.sessionRef = .ok (.session id) → free id.regionKey) :
    Abreast (FrontEnd.Beside Q) (s.route r fe) (s.route r fe') := by
  unfold route at hfree ⊢
  cases hpath : Endpoint.ofPath? r.path with
  | none => exact ⟨rfl, h⟩
  | some e =>
      rw [hpath] at hfree
      dsimp only at hfree ⊢
      split
      · rename_i hallows
        rw [if_pos hallows] at hfree
        have hhandled := beside_handle (s := s) (c := s.call r) h hQ e (by
          intro response id he hresponse href
          apply hfree id (congrArg some he) _ href
          subst he
          rw [hresponse, connected_eq_ok hresponse]
          split
          · rfl
          · rfl)
        refine ⟨?_, hhandled.state⟩
        dsimp only
        rw [hhandled.answer]
      · exact ⟨rfl, h⟩

end Site

end Gatehouse
