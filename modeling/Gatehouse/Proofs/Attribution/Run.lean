import Gatehouse.Proofs.Admission
import Gatehouse.Proofs.Attribution.Desk
import Gatehouse.Proofs.Service.Lifecycle

/-!
# The region of a session, from its login to its record

A login notes the region of a client's real address, and the connect report of the session, which
may come to any other front end, uses it up. The region then stands in the fragment, in the event and
in the record of the session.
-/

namespace Gatehouse

/-- A session is named in either letter case. -/
theorem Params.eq_of_sessionRef {p : Params} {text : String} {id : SessionId} {ref : SessionRef}
    (hname : p.get? Field.session.name = some text) (htext : lowered text = id.text)
    (href : p.sessionRef = .ok ref) : ref = .session id := by
  obtain ⟨id', hid', rfl⟩ := sessionRef_of_name hname href
  rw [SessionId.ext_text ((SessionId.text_of_parse? hid').trans htext)]

/-- What stands in the fragment that a connect report opens. -/
theorem RequestSummary.region_fields (s : RequestSummary) :
    s.fields.get? "region" = some s.region :=
  s.get?_fields "region"

namespace Site

variable {s : Site} {c : Call} {r : Request} {a : Accepted} {id : SessionId} {fe : FrontEnd}

/-- A connect report that is answered with 200 was carried out. -/
theorem connected_of_route (hpath : Endpoint.ofPath? r.path = some .connected)
    (hstatus : (s.route r fe).1.status = 200) :
    (s.connected (s.call r) fe).1 = .ok .ok ∧ (s.route r fe).2 = (s.connected (s.call r) fe).2 := by
  obtain ⟨response, hhandled⟩ := handled_of_route (ofPath?_eq_some hpath) hstatus
  have hresult : s.connected (s.call r) fe = (.ok response, (s.route r fe).2) := hhandled
  have hresponse : (s.connected (s.call r) fe).1 = .ok response := by rw [hresult]
  rw [← connected_eq_ok hresponse, hresult]
  exact ⟨rfl, rfl⟩

/-- A connect report that names a session and is carried out opens the session. -/
theorem openSession_of_connected {text : String}
    (hname : c.params.get? Field.session.name = some text) (htext : lowered text = id.text)
    (h : (s.connected c fe).1 = .ok .ok) :
    ∃ a, s.connected c fe = s.openSession c a id fe := by
  unfold connected at h ⊢
  cases haccept : s.accept .connected c.params with
  | error e =>
      rw [haccept] at h
      cases h
  | ok a =>
      rw [haccept] at h
      cases href : c.params.sessionRef with
      | error e =>
          rw [href] at h
          cases h
      | ok ref =>
          rw [Params.eq_of_sessionRef hname htext href]
          exact ⟨a, rfl⟩

end Site

namespace Desk

variable {d d' : Desk} {w : Windows} {id : SessionId} {tag region : String} {fields : Dict String}
variable {now : UInt64} {closed : Option SessionRecord}

/-- After a connect whose region is forgotten, a fragment with the fields is open, no region is
noted, and what was open before is finished. -/
theorem connect_forgetting (hup : .delete ∉ d.store.down)
    (h : d.connect w id tag fields now = .ok (closed, d')) :
    (d'.tryForgetRegion id).fragment? id.fragmentKey =
        some ((Fragment.opened id.text tag fields now).extend now w.fragment) ∧
      (d'.tryForgetRegion id).look id.regionKey = none ∧
      (d'.tryForgetRegion id).events = d.events ++ closed.toList.map .session := by
  obtain ⟨rfl, hforget⟩ := tryForgetRegion_of_connect hup h
  have hkey := SessionId.fragmentKey_ne_regionKey id id
  rw [hforget]
  refine ⟨?_, (look_without _ _ _).trans (if_pos rfl), rfl⟩
  have hkept : (((d.keeping id.fragmentKey ((Fragment.opened id.text tag fields now).extend now
      w.fragment) w.fragment).without id.regionKey).look id.fragmentKey) =
        some ((Fragment.opened id.text tag fields now).extend now w.fragment).encode := by
    rw [look_without, if_neg hkey, look_keeping, if_pos rfl]
  exact (congrArg (Option.bind · Fragment.decode?) hkept).trans (Fragment.decode?_encode _)

end Desk

/-- A login that names a session and succeeds has noted the region that it answers with. -/
theorem Gate.authenticate_session {g : Gate} {user token region : String} {remote : Option Address}
    {now : UInt64} {d : Desk} {id : SessionId}
    (h : (g.authenticate user token remote now d).1 = .session id region) :
    ∃ d', d.noteRegion g.window id region now = .ok d' ∧
      (g.authenticate user token remote now d).2 = d' := by
  have hends := authenticate_ends g user token remote now d
  rw [h] at hends
  generalize (g.authenticate user token remote now d).2 = d' at hends ⊢
  cases hends with
  | session _ _ _ _ hup => exact ⟨_, Desk.noteRegion_of_up hup, rfl⟩

namespace Fleet

/-- A connect report of a session, which takes a fleet from `g` to `g'`, is attributed to a region:
the fragment that it opens and the event that it emits bear the region, the region is not noted any
more, and whatever comes later, the region is carried to the record of the fragment. -/
structure Attributes (id : SessionId) (r : Request) (region : String) (g g' : Fleet) : Prop where
  opened : ∃ x, g'.store.table.fragment? id.fragmentKey = some x ∧
    x.finish.Bears id r.draw.tag r.now region
  emitted : ∃ (closed : Option SessionRecord) (summary : RequestSummary),
    g'.events = g.events ++ closed.toList.map .session ++ [.connected summary id.text] ∧
      summary.region = region
  forgotten : g'.store.table.get? id.regionKey = none
  carried : ∀ later : List Step,
    (∀ s ∈ later, ∀ key, s.Writes key → Desk.isFragmentKey key = false) →
      Carried id r.draw.tag r.now region g'.events (g'.store.table.Homes id)
        (g'.history later).2.store.table (g'.history later).2.events

variable {f g : Fleet} {i j : Nat} {id : SessionId} {user token region text : String}
variable {remote : Option Address} {now : UInt64} {r : Request} {a : Response}
variable {between : List Step}

/-- A history that writes no key of a fragment behind the store's calls is permitted to do so. -/
theorem permitsAll_of_writes {steps : List Step}
    (h : ∀ s ∈ steps, ∀ key, s.Writes key → Desk.isFragmentKey key = false) (f : Fleet) :
    f.PermitsAll (fun _ => True) (fun key => Desk.isFragmentKey key = false) steps := by
  induction steps generalizing f with
  | nil => exact trivial
  | cons s rest ih =>
      refine ⟨⟨fun _ _ => trivial, ?_, h s List.mem_cons_self⟩, ?_⟩
      · intro id _
        exact Desk.isFragmentKey_of_isRegionKey (Desk.isRegionKey_regionKey id)
      · exact ih (fun s' hs' => h s' (List.mem_cons_of_mem s hs')) _

/-- A login that succeeds has noted the region that it answers with. -/
theorem noted_of_login
    (h : (f.step (.login i user token remote now)).1 = .login (.session id region)) (limit : UInt64) :
    Noted id ⟨region, now + f.gate.window⟩ limit
      (f.step (.login i user token remote now)).2.store.table
      (f.step (.login i user token remote now)).2.events := by
  cases hd : f.desk? i with
  | none =>
      rw [step, actDesk_of_none hd] at h
      cases h
  | some d =>
      rw [step, actDesk_of_desk? hd] at h ⊢
      obtain ⟨d', hnote, hstate⟩ := Gate.authenticate_session (Answer.login.inj h)
      left
      dsimp only
      rw [hstate, Desk.noteRegion_eq_ok hnote]
      exact (Desk.look_holding d _ _ _).trans (if_pos rfl)

/-- What a connect report that is answered with 200 does to the fleet. -/
theorem attributes_of_noted {entry : RegionEntry}
    (hnoted : Noted id entry r.now g.store.table g.events)
    (hpath : Endpoint.ofPath? r.path = some .connected)
    (hname : (⟨Form.pairs r.query⟩ : Params).get? Field.session.name = some text)
    (htext : lowered text = id.text) (hup : .delete ∉ g.store.down)
    (hanswer : (g.step (.request j r)).1 = .response a) (hstatus : a.status = 200) :
    Attributes id r (if r.now < entry.due then entry.region else g.site.regions.lookup r.client) g
      (g.step (.request j r)).2 := by
  have hawaits : g.site.awaits r = false := by
    rw [Site.awaits, hpath]
    exact Bool.and_false _
  have hact : g.step (.request j r) = g.act j .noMember fun fe =>
      ((.response (g.site.route r fe).1), (g.site.route r fe).2) := by
    rw [step, hawaits]
    rfl
  cases hfe : g.frontEnd? j with
  | none =>
      rw [hact, act, hfe] at hanswer
      cases hanswer
  | some fe =>
      rw [hact, act, hfe] at hanswer ⊢
      dsimp only at hanswer ⊢
      have hroute : (g.site.route r fe).1.status = 200 := by
        rw [Answer.response.inj hanswer]
        exact hstatus
      obtain ⟨hok, hstate⟩ := Site.connected_of_route hpath hroute
      obtain ⟨accepted, hopens⟩ := Site.openSession_of_connected hname htext hok
      rw [hopens] at hok hstate
      obtain ⟨noted, closed, opened, hregion, hconnect, hresult⟩ := Site.openSession_cases hok
      obtain ⟨m, hm, rfl⟩ := Option.map_eq_some_iff.1 hfe
      have hfound : noted.getD (g.site.clientRegion (g.site.call r)) =
          if r.now < entry.due then entry.region else g.site.regions.lookup r.client := by
        rw [Noted.region?_eq (d := g.deskWith m.timer) hnoted hregion]
        split
        · rfl
        · rfl
      obtain ⟨hfragment, hgone, hevents⟩ :=
        Desk.connect_forgetting (d := g.deskWith m.timer) hup hconnect
      rw [hstate, hresult, ← hfound]
      refine ⟨⟨_, hfragment, rfl, rfl, rfl, ?_⟩, ⟨closed, g.site.summary accepted _, ?_, rfl⟩,
        hgone, ?_⟩
      · exact RequestSummary.region_fields _
      · exact congrArg (fun es => es ++ _) hevents
      · intro later hlater
        apply history_kept (Carried.kept id r.draw.tag r.now _ _ _) _ (permitsAll_of_writes hlater _)
        refine ⟨fun hhomed => hhomed, [], (List.append_nil _).symm, ?_⟩
        exact .inl ⟨_, hfragment, ⟨rfl, rfl, rfl, RequestSummary.region_fields _⟩, fun _ => rfl⟩

/-- The region of a session goes from its login to its record, whatever front ends take part: a login
at `f` that names the session and succeeds answers with a region, and the first connect report of the
session that is answered with 200 afterwards, at `g`, is attributed to that region, or to that of the
address that it comes from if the region's time is over. Until then anything else may happen that
looks at what is due no later than the time of that report. -/
theorem region_attributed
    (hlogin : (f.step (.login i user token remote now)).1 = .login (.session id region))
    (hroom : now.toNat + f.gate.window.toNat < UInt64.size)
    (hbetween : (f.step (.login i user token remote now)).2.PermitsAll (fun t => t ≤ r.now)
      (fun key => key ≠ id.regionKey) between)
    (hg : ((f.step (.login i user token remote now)).2.history between).2 = g)
    (hpath : r.path = "/connected")
    (hname : (⟨Form.pairs r.query⟩ : Params).get? "session_id" = some text)
    (htext : lowered text = id.text) (hup : .delete ∉ g.store.down)
    (hanswer : (g.step (.request j r)).1 = .response a) (hstatus : a.status = 200) :
    Attributes id r
      (if r.now.toNat < now.toNat + f.gate.window.toNat then region
        else g.site.regions.lookup r.client)
      g (g.step (.request j r)).2 := by
  have hnoted := history_kept (Noted.kept id ⟨region, now + f.gate.window⟩ r.now)
    (noted_of_login hlogin r.now) hbetween
  rw [hg] at hnoted
  have hendpoint : Endpoint.ofPath? r.path = some .connected := by
    rw [hpath]
    decide
  have hdue : r.now < now + f.gate.window ↔ r.now.toNat < now.toNat + f.gate.window.toNat := by
    rw [UInt64.lt_iff_toNat_lt, UInt64.toNat_add, Nat.mod_eq_of_lt hroom]
  have hattributes := attributes_of_noted hnoted hendpoint hname htext hup hanswer hstatus
  simp only [hdue] at hattributes
  exact hattributes

end Fleet

namespace Answer

/-- The session and the region that a login answers with. -/
def login? : Answer → Option (String × String)
  | .login (.session id noted) => some (id.text, noted)
  | _ => .none

/-- The status of the answer to a request. -/
def status? : Answer → Option Nat
  | .response r => some r.status
  | _ => .none

theorem eq_of_login? {a : Answer} {id : SessionId} {region : String}
    (h : a.login? = some (id.text, region)) : a = .login (.session id region) := by
  unfold login? at h
  split at h
  · rename_i id' noted
    obtain ⟨htext, hnoted⟩ := Prod.mk.inj (Option.some.inj h)
    rw [SessionId.ext_text htext, hnoted]
  · cases h

theorem eq_of_status? {a : Answer} {n : Nat} (h : a.status? = some n) :
    ∃ r, a = .response r ∧ r.status = n := by
  unfold status? at h
  split at h
  · cases h
    exact ⟨_, rfl, rfl⟩
  · cases h

end Answer

namespace Fleet

/-- A client logs in at one front end and connects at the other one, which purges what is stale
before; the report names the session in upper case. -/
theorem region_attributed_elsewhere :
    let id : SessionId := ⟨"a1", by decide, by decide, by decide⟩
    let gate : Gate :=
      { userStem := "t"
        verifier := ⟨Dict.empty.insert "t" (Blake3.hash (Utf8.encode "p"))⟩
        regions := ⟨[("192.", "eu")]⟩
        sessionLength := 2
        passwordLength := 1
        window := 900 }
    let f : Fleet := { pair with gate := gate, site := { pair.site with secret := "ab" } }
    let login : Step := .login 0 "t" "a1p" (some (.v4 ⟨192, 0, 2, 1⟩)) 0
    let g := ((f.step login).2.history [.purgeRegions 1 5]).2
    let query := "server_secret=ab&client_id=0a&sponsor_id=0b&client_version=3&session_id=A1"
    let r : Request := ⟨"GET", "/connected", query, [], .v4 ⟨10, 0, 0, 1⟩, 5, ⟨"x", ""⟩⟩
    (f.step login).1 = .login (.session id "eu") ∧
      (∃ a, (g.step (.request 1 r)).1 = .response a ∧ a.status = 200) ∧
      Attributes id r "eu" g (g.step (.request 1 r)).2 := by
  intro id gate f login g query r
  have hrun : (f.step login).1.login? = some ("a1", "eu") ∧
      (g.step (.request 1 r)).1.status? = some 200 ∧ .delete ∉ g.store.down := by
    decide +kernel
  obtain ⟨hlogin, hstatus, hup⟩ := hrun
  have hsession : (f.step login).1 = .login (.session id "eu") := Answer.eq_of_login? hlogin
  obtain ⟨a, hanswer, hstatus⟩ := Answer.eq_of_status? hstatus
  have hbetween : (f.step login).2.PermitsAll (fun t => t ≤ r.now) (fun key => key ≠ id.regionKey)
      [.purgeRegions 1 5] := by
    refine ⟨⟨?_, ?_, ?_⟩, trivial⟩
    · intro t ht
      cases ht
      decide
    · intro id' hid'
      cases hid'
    · intro key hkey
      cases hkey
  have hname : (⟨Form.pairs r.query⟩ : Params).get? "session_id" = some "A1" := by decide +kernel
  exact ⟨hsession, ⟨a, hanswer, hstatus⟩,
    region_attributed hsession (by decide) hbetween rfl rfl hname (by decide) hup hanswer hstatus⟩

end Fleet

end Gatehouse
