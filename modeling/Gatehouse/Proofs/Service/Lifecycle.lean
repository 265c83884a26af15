import Gatehouse.Proofs.Service.Refusal
import Gatehouse.Proofs.Tracker

/-!
# What accepted reports do

A report that is answered with success says which client and which session it is about, and does one
thing. A connect report puts a new fragment in the place of the one that was open and uses up the
region noted for the session; a status report is folded into the open fragment; a failure report is
only counted. Each of them emits one event about itself, after the record of a fragment that it ends.
-/

namespace Gatehouse

/-! ## What the reports say -/

namespace Params

variable {p : Params} {v : String} {id : SessionId} {ref : SessionRef} {up : Bool}
variable {seq : Option UInt64} {code : UInt32}

/-- A report that gives a session id is about that session. -/
theorem sessionRef_of_name (hname : p.get? "session_id" = some v) (href : p.sessionRef = .ok ref) :
    ∃ id, SessionId.parse? v = some id ∧ ref = .session id := by
  unfold sessionRef at href
  rw [optional_of_eq_some (f := .session) hname] at href
  cases haccepts : Field.session.accepts v with
  | false =>
      rw [haccepts] at href
      cases href
  | true =>
      rw [haccepts, if_pos rfl] at href
      dsimp only at href
      split at href
      · rename_i id hid
        cases href
        exact ⟨id, SessionId.parse_eq_ok.1 hid, rfl⟩
      · cases href

/-- A report that gives no session id is about the tunnel address that it gives. -/
theorem sessionRef_of_no_name (hname : p.get? "session_id" = none) (href : p.sessionRef = .ok ref) :
    ∃ v x, p.get? "vpn_client_ip_address" = some v ∧ Address.V4.parse? v = some x ∧
      ref = .address x := by
  unfold sessionRef at href
  rw [optional_of_eq_none (f := .session) hname] at href
  dsimp only at href
  cases haddress : p.get? "vpn_client_ip_address" with
  | none =>
      rw [optional_of_eq_none (f := .legacyAddress) haddress] at href
      cases href
  | some v =>
      rw [optional_of_eq_some (f := .legacyAddress) haddress] at href
      cases haccepts : Field.legacyAddress.accepts v with
      | false =>
          rw [haccepts] at href
          cases href
      | true =>
          rw [haccepts, if_pos rfl] at href
          dsimp only at href
          split at href
          · rename_i x hx
            cases href
            exact ⟨v, x, rfl, hx, rfl⟩
          · cases href

/-- What a status report says about its session. -/
structure Reports (p : Params) (id : SessionId) (up : Bool) (seq : Option UInt64) : Prop where
  session : ∃ v, p.get? "session_id" = some v ∧ SessionId.parse? v = some id
  connected : p.get? "connected" = some (if up then "1" else "0")
  seq : seq.map UInt64.toNat = (p.get? "seq").map fun v => Decimal.value v.toList

theorem sessionId_eq_ok (h : p.sessionId = .ok id) :
    ∃ v, p.get? "session_id" = some v ∧ SessionId.parse? v = some id := by
  unfold sessionId at h
  split at h
  · cases h
  · rename_i v hrequire
    exact ⟨v, (require_eq_ok.1 hrequire).1, SessionId.parse_eq_ok.1 h⟩

theorem connectedFlag_eq_ok (h : p.connectedFlag = .ok up) :
    p.get? "connected" = some (if up then "1" else "0") := by
  unfold connectedFlag at h
  split at h
  · cases h
  · rename_i v hrequire
    obtain ⟨hget, haccepts⟩ := require_eq_ok.1 hrequire
    cases h
    refine hget.trans (congrArg some ?_)
    rcases Bool.or_eq_true_iff.1 haccepts with hflag | hflag
    · rw [beq_iff_eq.1 hflag]
      rfl
    · rw [beq_iff_eq.1 hflag]
      rfl

theorem seq_eq_ok (h : p.seq = .ok seq) :
    seq.map UInt64.toNat = (p.get? "seq").map fun v => Decimal.value v.toList := by
  unfold Params.seq at h
  cases hget : p.get? "seq" with
  | none =>
      rw [optional_of_eq_none (f := .seq) hget] at h
      cases h
      rfl
  | some v =>
      rw [optional_of_eq_some (f := .seq) hget] at h
      cases haccepts : Field.seq.accepts v with
      | false =>
          rw [haccepts] at h
          cases h
      | true =>
          rw [haccepts, if_pos rfl] at h
          dsimp only at h
          split at h
          · rename_i n hbelow
            cases h
            unfold Decimal.below? at hbelow
            split at hbelow
            · rename_i hnumber
              cases hbelow
              have hlt : Decimal.value v.toList < UInt64.size :=
                of_decide_eq_true (Bool.and_eq_true_iff.1 hnumber).2
              exact congrArg some (UInt64.toNat_ofNat_of_lt' hlt)
            · cases hbelow
          · cases h

theorem statusFields_eq_ok (h : Site.statusFields p = .ok (id, up, seq)) : p.Reports id up seq := by
  unfold Site.statusFields at h
  split at h
  · cases h
  · rename_i id' hid
    split at h
    · cases h
    · rename_i up' hup
      split at h
      · cases h
      · rename_i seq' hseq
        cases h
        exact ⟨sessionId_eq_ok hid, connectedFlag_eq_ok hup, seq_eq_ok hseq⟩

theorem errorCode_eq_ok (h : p.errorCode = .ok code) :
    ∃ v, p.get? "error_code" = some v ∧ code.toNat = Decimal.value v.toList := by
  unfold errorCode at h
  split at h
  · cases h
  · rename_i n hnumber
    obtain ⟨v, hget, -, -, hlt, rfl⟩ := requireNumber_eq_ok.1 hnumber
    cases h
    exact ⟨v, hget, UInt32.toNat_ofNat_of_lt' hlt⟩

end Params

/-! ## Opening a session -/

/-- What stands in the fragment that a connect report opens. -/
theorem RequestSummary.get?_fields (summary : RequestSummary) (name : String) :
    summary.fields.get? name =
      [("server", summary.server), ("region", summary.region),
        ("propagation_channel_id", summary.identity.channel),
        ("sponsor_id", summary.identity.sponsor),
        ("client_version", Decimal.text summary.identity.version.toNat),
        ("relay_protocol", summary.relay.text)].lookup name := by
  have hnames : ["server", "region", "propagation_channel_id", "sponsor_id", "client_version",
      "relay_protocol"].Nodup := by decide
  refine Dict.get?_ofList ?_ name
  exact hnames

/-- A fragment was opened by a connect report, with what the event of the report says about its
client in its fields. -/
structure Fragment.OpenedBy (id : SessionId) (summary : RequestSummary) (now window : UInt64)
    (f : Fragment) : Prop where
  session : f.session = id.text
  start : f.start = now
  last : f.last = now
  bytes : f.bytes = 0
  isPartial : f.isPartial = false
  lastSeq : f.lastSeq = none
  due : f.due.toNat = min (UInt64.size - 1) (now.toNat + window.toNat)
  fields : ∀ name, f.fields.get? name =
    [("server", summary.server), ("region", summary.region),
      ("propagation_channel_id", summary.identity.channel),
      ("sponsor_id", summary.identity.sponsor),
      ("client_version", Decimal.text summary.identity.version.toNat),
      ("relay_protocol", summary.relay.text)].lookup name

theorem Fragment.openedBy_opened (id : SessionId) (tag : String) (summary : RequestSummary)
    (now window : UInt64) :
    ((opened id.text tag summary.fields now).extend now window).OpenedBy id summary now window where
  session := rfl
  start := rfl
  last := rfl
  bytes := rfl
  isPartial := rfl
  lastSeq := rfl
  due := toNat_capped now window
  fields := summary.get?_fields

namespace Desk

variable {d d' : Desk} {w : Windows} {id : SessionId} {tag : String} {fields : Dict String}
variable {now window : UInt64} {closed : Option SessionRecord}

/-- What a connect whose region is then forgotten does to the desk. -/
theorem tryForgetRegion_of_connect (hup : .delete ∉ d.store.down)
    (h : d.connect w id tag fields now = .ok (closed, d')) :
    closed = (d.fragment? id.fragmentKey).map Fragment.finish ∧
      d'.tryForgetRegion id =
        (((d.keeping id.fragmentKey ((Fragment.opened id.text tag fields now).extend now w.fragment)
          w.fragment).emitAll (closed.toList.map .session)).without id.regionKey).disarm
            id.regionKey := by
  have hdesk : closed = (d.fragment? id.fragmentKey).map Fragment.finish ∧
      d' = (d.keeping id.fragmentKey ((Fragment.opened id.text tag fields now).extend now w.fragment)
        w.fragment).emitAll (closed.toList.map .session) := by
    obtain ⟨hopen, rfl, rfl⟩ | ⟨f, hopen, rfl, rfl⟩ := connect_cases h
    · refine ⟨by rw [hopen]; rfl, ?_⟩
      simp only [emitAll, Option.toList_none, List.map_nil, List.append_nil]
    · exact ⟨by rw [hopen]; rfl, rfl⟩
  obtain ⟨hclosed, hd'⟩ := hdesk
  have hup' : .delete ∉ d'.store.down := by
    rw [hd']
    exact hup
  refine ⟨hclosed, ?_⟩
  rw [tryForgetRegion, forgetRegion_of_up hup', hd']

/-- A connect report of a session took a desk to another one: the record of the fragment that was
open was emitted and then the report's own event, a new fragment lies in its place, and no region is
noted for the session. -/
structure Connects (window : UInt64) (id : SessionId) (summary : RequestSummary) (now : UInt64)
    (d d' : Desk) : Prop where
  events : d'.events =
    d.events ++ ((d.fragment? id.fragmentKey).map Fragment.finish).toList.map .session ++
      [.connected summary id.text]
  opened : ∃ f, d'.fragment? id.fragmentKey = some f ∧ f.OpenedBy id summary now window
  forgotten : d'.look id.regionKey = none
  others : ∀ key, key ≠ id.fragmentKey → key ≠ id.regionKey → d'.look key = d.look key
  armed : d'.timer.armed.get? id.fragmentKey = some (d.timer.clock + window.toNat * 1000)
  disarmed : d'.timer.armed.get? id.regionKey = none
  othersArmed : ∀ key, key ≠ id.fragmentKey → key ≠ id.regionKey →
    d'.timer.armed.get? key = d.timer.armed.get? key
  clock : d'.timer.clock = d.timer.clock
  announced : d'.timer.announced = d.timer.announced

theorem connects_of_connect {summary : RequestSummary} (hup : .delete ∉ d.store.down)
    (h : d.connect w id tag summary.fields now = .ok (closed, d')) :
    Connects w.fragment id summary now d
      ((d'.tryForgetRegion id).emit (.connected summary id.text)) := by
  obtain ⟨rfl, hforget⟩ := tryForgetRegion_of_connect hup h
  rw [hforget]
  have hkey := SessionId.fragmentKey_ne_regionKey id id
  have hopened := Fragment.openedBy_opened id tag summary now w.fragment
  generalize (Fragment.opened id.text tag summary.fields now).extend now w.fragment = f at hopened ⊢
  have hlook : ∀ key, (((d.keeping id.fragmentKey f w.fragment).without id.regionKey).look key) =
      if key = id.regionKey then none else if key = id.fragmentKey then some f.encode
        else d.look key := by
    intro key
    rw [look_without, look_keeping]
  have harmed : ∀ key, ((d.timer.armSeconds id.fragmentKey w.fragment).disarm id.regionKey).armed.get?
      key = if key = id.regionKey then none else if key = id.fragmentKey then
        some (d.timer.clock + w.fragment.toNat * 1000) else d.timer.armed.get? key := by
    intro key
    rw [Timer.armed_disarm, Timer.armed_armSeconds]
  refine ⟨rfl, ⟨f, ?_, hopened⟩, ?_, ?_, ?_, ?_, ?_, rfl, rfl⟩
  · refine (congrArg (Option.bind · Fragment.decode?) (hlook id.fragmentKey)).trans ?_
    rw [if_neg hkey, if_pos rfl]
    exact Fragment.decode?_encode f
  · exact (hlook _).trans (if_pos rfl)
  · intro key hfragment hregion
    exact (hlook key).trans ((if_neg hregion).trans (if_neg hfragment))
  · exact (harmed _).trans ((if_neg hkey).trans (if_pos rfl))
  · exact (harmed _).trans (if_pos rfl)
  · intro key hfragment hregion
    exact (harmed key).trans ((if_neg hregion).trans (if_neg hfragment))

end Desk

/-- A front end is as another one, but for an event that it has emitted after all others. -/
structure FrontEnd.OnlyEmits (fe : FrontEnd) (e : Event) (fe' : FrontEnd) : Prop where
  events : fe'.desk.events = fe.desk.events ++ [e]
  store : fe'.desk.store = fe.desk.store
  timer : fe'.desk.timer = fe.desk.timer
  rotator : fe'.rotator = fe.rotator
  outlet : fe'.outlet = fe.outlet
  files : fe'.files = fe.files
  peers : fe'.peers = fe.peers

theorem FrontEnd.onlyEmits_emit (fe : FrontEnd) (e : Event) : fe.OnlyEmits e (fe.emit e) :=
  ⟨rfl, rfl, rfl, rfl, rfl, rfl, rfl⟩

namespace Site

variable {s : Site} {c : Call} {r : Request} {a : Accepted} {id : SessionId} {fe : FrontEnd}

/-- What a connect report that is carried out for a session does to the desk: it looks the region up,
opens a fragment, forgets the region and emits an event. -/
theorem openSession_cases {response : Response} (h : (s.openSession c a id fe).1 = .ok response) :
    ∃ noted closed opened, fe.desk.region? id c.now = .ok noted ∧
      let summary := s.summary a (noted.getD (s.clientRegion c))
      fe.desk.connect s.windows id c.draw.tag summary.fields c.now = .ok (closed, opened) ∧
        (s.openSession c a id fe).2 =
          { fe with desk := (opened.tryForgetRegion id).emit (.connected summary id.text) } := by
  unfold openSession at h ⊢
  cases hregion : fe.desk.region? id c.now with
  | error e =>
      rw [hregion] at h
      cases h
  | ok noted =>
      rw [hregion] at h
      dsimp only at h ⊢
      cases hconnect : fe.desk.connect s.windows id c.draw.tag
          (s.summary a (noted.getD (s.clientRegion c))).fields c.now with
      | error e =>
          rw [hconnect] at h
          cases h
      | ok result => exact ⟨noted, result.1, result.2, rfl, hconnect, rfl⟩

/-- The region of a session that connects: the one that was noted for it, while it may be used, and
else that of the address that the report comes from. -/
def sessionRegion (s : Site) (id : SessionId) (client : Address) (now : UInt64) (d : Desk) : String :=
  (((d.look id.regionKey).bind fun b => RegionEntry.fresh? b now).map RegionEntry.region).getD
    (s.regions.lookup client)

variable {response : Response} {fe' : FrontEnd} {v : String}

theorem connects_of_openSession (hup : fe.desk.store.down = [])
    (h : s.openSession c a id fe = (.ok response, fe')) :
    ∃ d', fe' = { fe with desk := d' } ∧
      Desk.Connects s.windows.fragment id
        (s.summary a (s.sessionRegion id c.client c.now fe.desk)) c.now fe.desk d' := by
  obtain ⟨noted, closed, opened, hregion, hconnect, hstate⟩ :=
    openSession_cases (congrArg Prod.fst h)
  rw [Desk.region?_of_up (Store.not_down_of_nil hup _)] at hregion
  cases hregion
  refine ⟨_, (congrArg Prod.snd h).symm.trans hstate, ?_⟩
  exact Desk.connects_of_connect (Store.not_down_of_nil hup _) hconnect

/-! ## Reports that are carried out -/

/-- A connect report that is carried out is accepted and opens a session or is only counted. -/
theorem connected_cases (h : s.connected c fe = (.ok response, fe')) :
    ∃ a, c.params.Carries a ∧
      ((∃ id, c.params.sessionRef = .ok (.session id) ∧
        s.openSession c a id fe = (.ok response, fe')) ∨
      ∃ x, c.params.sessionRef = .ok (.address x) ∧
        fe.OnlyEmits (.connected (s.summary a (s.clientRegion c)) x.text) fe') := by
  unfold connected at h
  split at h
  · cases h
  · rename_i a haccept
    refine ⟨a, (accept_eq_ok.1 haccept).2, ?_⟩
    split at h
    · cases h
    · rename_i id href
      exact .inl ⟨id, href, h⟩
    · rename_i x href
      cases h
      exact .inr ⟨x, href, fe.onlyEmits_emit _⟩

/-- A failure report that is carried out is counted. -/
theorem failed_cases (h : s.failed c fe = (.ok response, fe')) :
    ∃ a code, c.params.Carries a ∧ c.params.errorCode = .ok code ∧
      fe.OnlyEmits (.failed (s.summary a (s.clientRegion c)) code) fe' := by
  unfold failed at h
  split at h
  · cases h
  · rename_i a haccept
    split at h
    · cases h
    · rename_i code hcode
      cases h
      exact ⟨a, code, (accept_eq_ok.1 haccept).2, hcode, fe.onlyEmits_emit _⟩

/-- The counters of a status report that is carried out are folded into its session, and then the
report is counted. -/
theorem reportUsage_cases {up : Bool} {seq : Option UInt64} {usage : Usage}
    (h : s.reportUsage c a id up seq usage fe = (.ok response, fe')) :
    ∃ outcome d',
      (if up then fe.desk.status s.windows id c.draw.tag usage.bytes seq c.now
        else fe.desk.disconnect s.windows id c.draw.tag usage.bytes seq c.now) = .ok (outcome, d') ∧
      FrontEnd.OnlyEmits { fe with desk := d' }
        (.status (s.summary a (s.clientRegion c)) id.text up usage) fe' := by
  have hfold : fe.desk.report id c.draw.tag
      ⟨c.now, usage.bytes, seq, if up then s.windows.fragment else s.windows.disconnect⟩ =
        if up then fe.desk.status s.windows id c.draw.tag usage.bytes seq c.now
          else fe.desk.disconnect s.windows id c.draw.tag usage.bytes seq c.now := by
    cases up with
    | true => rfl
    | false => rfl
  simp only [reportUsage, hfold] at h
  split at h
  · cases h
  · rename_i outcome d' hreport
    cases h
    exact ⟨outcome, d', hreport, FrontEnd.onlyEmits_emit _ _⟩

/-- A status report that is carried out, and whose body says how much was used, is folded into its
session. -/
theorem status_cases {body : Bytes} {usage : Usage} (hbody : usage? body = some usage)
    (hsome : ∀ b, c.body = some b → b = body) (h : s.status c fe = (.ok response, fe')) :
    ∃ a id up seq, c.params.Carries a ∧ c.params.Reports id up seq ∧
      s.reportUsage c a id up seq usage fe = (.ok response, fe') := by
  unfold status at h
  split at h
  · cases h
  · rename_i a haccept
    split at h
    · cases h
    · rename_i id up seq hfields
      split at h
      · cases h
      · rename_i b hb
        rw [hsome b hb, hbody] at h
        exact ⟨a, id, up, seq, (accept_eq_ok.1 haccept).2, Params.statusFields_eq_ok hfields, h⟩

theorem download_eq : (s.download c fe).2 = fe := by
  unfold download
  split
  · rfl
  · split
    · rfl
    · rfl

end Site

/-- A report neither emits an event nor, if it was folded in before, changes anything. -/
theorem Desk.report_quiet {d d' : Desk} {id : SessionId} {tag : String} {r : Report}
    {outcome : ReportOutcome} (h : d.report id tag r = .ok (outcome, d')) :
    d'.events = d.events ∧ (outcome = .duplicate → d' = d) := by
  obtain ⟨-, rfl, rfl⟩ | ⟨f, -, ⟨-, rfl, rfl⟩ | ⟨-, rfl, rfl⟩⟩ := report_cases h
  · exact ⟨rfl, nofun⟩
  · exact ⟨rfl, nofun⟩
  · exact ⟨rfl, fun _ => rfl⟩

/-- The body of a status report says how much was used; an empty one says nothing. -/
def Request.Counts (r : Request) (usage : Usage) : Prop :=
  r.body = [] ∧ usage = {} ∨ r.body ≠ [] ∧ Usage.decode? r.body = some usage

namespace Site

variable {r : Request} {usage : Usage}

theorem usage?_of_counts (h : r.Counts usage) : usage? r.body = some usage := by
  unfold usage?
  rcases h with ⟨hempty, rfl⟩ | ⟨hfull, hdecode⟩
  · rw [hempty]
    rfl
  · have hnonempty : r.body.isEmpty = false := List.isEmpty_eq_false_iff.2 hfull
    rw [hnonempty, if_neg Bool.false_ne_true, hdecode]

theorem body_call {body : Bytes} (s : Site) (h : (s.call r).body = some body) : body = r.body := by
  simp only [call] at h
  split at h
  · exact (Option.some.inj h).symm
  · cases h

/-- A report that is answered with success, while the store works, is carried out. A connect report of
a session opens it; one of an older client emits its event and nothing else changes, and so does a
failure report. The counters of a status report are folded into its session once, as far as they are
new, and the report emits its event in any case. A download changes nothing. -/
theorem success_carries_out (s : Site) (r : Request) (fe : FrontEnd)
    (hup : fe.desk.store.down = []) (hstatus : (s.route r fe).1.status = 200) :
    let p : Params := ⟨Form.pairs r.query⟩
    let fe' := (s.route r fe).2
    (r.path = "/connected" → ∀ v, p.get? "session_id" = some v →
      ∃ id a d', SessionId.parse? v = some id ∧ p.Carries a ∧ fe' = { fe with desk := d' } ∧
        Desk.Connects s.windows.fragment id
          (s.summary a (s.sessionRegion id r.client r.now fe.desk)) r.now fe.desk d') ∧
    (r.path = "/connected" → p.get? "session_id" = none →
      ∃ v x a, p.get? "vpn_client_ip_address" = some v ∧ Address.V4.parse? v = some x ∧
        p.Carries a ∧
        fe.OnlyEmits (.connected (s.summary a (s.regions.lookup r.client)) x.text) fe') ∧
    (r.path = "/failed" →
      ∃ v code a, p.get? "error_code" = some v ∧ code.toNat = Decimal.value v.toList ∧
        p.Carries a ∧
        fe.OnlyEmits (.failed (s.summary a (s.regions.lookup r.client)) code) fe') ∧
    (r.path = "/status" → ∀ usage, r.Counts usage →
      ∃ id up seq a outcome d', p.Reports id up seq ∧ p.Carries a ∧
        (if up then fe.desk.status s.windows id r.draw.tag usage.bytes seq r.now
          else fe.desk.disconnect s.windows id r.draw.tag usage.bytes seq r.now) =
            .ok (outcome, d') ∧
        d'.events = fe.desk.events ∧ (outcome = .duplicate → d' = fe.desk) ∧
        FrontEnd.OnlyEmits { fe with desk := d' }
          (.status (s.summary a (s.regions.lookup r.client)) id.text up usage) fe') ∧
    (r.path = "/download" → fe' = fe) := by
  intro p fe'
  have hconnected : Endpoint.path .connected = "/connected" := by decide
  have hfailed : Endpoint.path .failed = "/failed" := by decide
  have hstatusPath : Endpoint.path .status = "/status" := by decide
  have hdownload : Endpoint.path .download = "/download" := by decide
  rw [← hconnected, ← hfailed, ← hstatusPath, ← hdownload]
  refine ⟨?_, ?_, ?_, ?_, ?_⟩
  · intro hpath v hname
    obtain ⟨response, hhandled⟩ := handled_of_route hpath hstatus
    have hresult : s.connected (s.call r) fe = (.ok response, fe') := hhandled
    obtain ⟨a, hcarries, ⟨id, href, hopen⟩ | ⟨x, href, -⟩⟩ := connected_cases hresult
    · obtain ⟨id', hid', hsame⟩ := Params.sessionRef_of_name hname href
      cases hsame
      obtain ⟨d', hstate, hconnects⟩ := connects_of_openSession hup hopen
      exact ⟨id, a, d', hid', hcarries, hstate, hconnects⟩
    · obtain ⟨_, _, hsame⟩ := Params.sessionRef_of_name hname href
      cases hsame
  · intro hpath hname
    obtain ⟨response, hhandled⟩ := handled_of_route hpath hstatus
    have hresult : s.connected (s.call r) fe = (.ok response, fe') := hhandled
    obtain ⟨a, hcarries, ⟨id, href, -⟩ | ⟨x, href, hstate⟩⟩ := connected_cases hresult
    · obtain ⟨_, _, _, _, hsame⟩ := Params.sessionRef_of_no_name hname href
      cases hsame
    · obtain ⟨v, x', hv, hx', hsame⟩ := Params.sessionRef_of_no_name hname href
      cases hsame
      exact ⟨v, x, a, hv, hx', hcarries, hstate⟩
  · intro hpath
    obtain ⟨response, hhandled⟩ := handled_of_route hpath hstatus
    have hresult : s.failed (s.call r) fe = (.ok response, fe') := hhandled
    obtain ⟨a, code, hcarries, hcode, hstate⟩ := failed_cases hresult
    obtain ⟨v, hv, hvalue⟩ := Params.errorCode_eq_ok hcode
    exact ⟨v, code, a, hv, hvalue, hcarries, hstate⟩
  · intro hpath usage hcounts
    obtain ⟨response, hhandled⟩ := handled_of_route hpath hstatus
    have hresult : s.status (s.call r) fe = (.ok response, fe') := hhandled
    obtain ⟨a, id, up, seq, hcarries, hreports, hfold⟩ :=
      status_cases (usage?_of_counts hcounts) (fun _ => body_call s) hresult
    obtain ⟨outcome, d', hreport, hstate⟩ := reportUsage_cases hfold
    have hquiet : d'.events = fe.desk.events ∧ (outcome = .duplicate → d' = fe.desk) := by
      cases up with
      | true => exact Desk.report_quiet hreport
      | false => exact Desk.report_quiet hreport
    exact ⟨id, up, seq, a, outcome, d', hreports, hcarries, hreport, hquiet.1, hquiet.2, hstate⟩
  · intro hpath
    obtain ⟨response, hhandled⟩ := handled_of_route hpath hstatus
    have hresult : s.download (s.call r) fe = (.ok response, fe') := hhandled
    exact (congrArg Prod.snd hresult).symm.trans download_eq

/-- A client names its session in upper case and asks for the head of the answer alone. What is stored
for the session can be read neither as a fragment nor as a region. -/
theorem success_replaces_what_is_unreadable :
    let id : SessionId := ⟨"a1", by decide, by decide, by decide⟩
    let s : Site :=
      { address := "192.0.2.1", secret := "feed", catalog := ⟨.empty, .empty⟩, regions := ⟨[]⟩,
        windows := ⟨900, 1, 300⟩, downloads := "", maxBody := 0 }
    let query := "server_secret=feed&client_id=0a&sponsor_id=0b&client_version=7&session_id=A1"
    let r : Request := ⟨"HEAD", "/connected", query, [], .v4 ⟨10, 0, 0, 1⟩, 1000, ⟨"x", ""⟩⟩
    let table : Dict Bytes := .ofList [("session-fragment:a1", [1]), ("session-geo:a1", [1])]
    let d : Desk := { store := { table := .memory table }, timer := { clock := 0 } }
    let fe : FrontEnd := { desk := d, rotator := .start "192.0.2.1" "00", outlet := { route := .record },
                           files := {}, peers := .ofEntries [] }
    fe.desk.store.down = [] ∧ (s.route r fe).1.status = 200 ∧
      ∃ a d', SessionId.parse? "A1" = some id ∧ (s.route r fe).2 = { fe with desk := d' } ∧
        Desk.Connects 900 id (s.summary a "None") 1000 d d' ∧
        d'.events = [.connected (s.summary a "None") "a1"] := by
  intro id s query r table d fe
  have hstatus : (s.route r fe).1.status = 200 := by decide +kernel
  have hname : (⟨Form.pairs r.query⟩ : Params).get? "session_id" = some "A1" := by decide +kernel
  have hparse : SessionId.parse? "A1" = some id := by decide
  have hopen : fe.desk.fragment? id.fragmentKey = none := by decide +kernel
  have hregion : s.sessionRegion id r.client r.now fe.desk = "None" := by decide +kernel
  obtain ⟨hconnected, -⟩ := success_carries_out s r fe rfl hstatus
  obtain ⟨id', a, d', hid, -, hstate, hconnects⟩ := hconnected rfl "A1" hname
  cases hparse.symm.trans hid
  rw [hregion] at hconnects
  have hevents := hconnects.events
  rw [hopen] at hevents
  exact ⟨rfl, hstatus, a, d', hparse, hstate, hconnects, hevents⟩

end Site

end Gatehouse
