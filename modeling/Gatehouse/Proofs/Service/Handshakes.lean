import Gatehouse.Proofs.Peer
import Gatehouse.Proofs.Service.Refusal
import Gatehouse.Proofs.Tracker

/-!
# The ledger of handshakes

The key at hand, the keys on the transport, the counters of the peers and the events are kept apart
from each other. A handshake that is answered moves all of them by one, and nothing else that a
front end is asked for moves any.
-/

namespace Gatehouse

/-- The last line of a text. -/
def lastLine (text : String) : String :=
  String.ofList (text.toList.reverse.takeWhile (· != '\n')).reverse

theorem lastLine_of_no_break {line : String} (h : '\n' ∉ line.toList) : lastLine line = line := by
  have hother : ∀ c ∈ line.toList.reverse, (c != '\n') = true := by
    intro c hc
    apply bne_iff_ne.2
    rintro rfl
    exact h (List.mem_reverse.1 hc)
  have hall : (line.toList.reverse ++ []).takeWhile (· != '\n') = line.toList.reverse ++ [] :=
    List.takeWhile_append_of_pos hother
  rw [List.append_nil] at hall
  rw [lastLine, hall, List.reverse_reverse, String.ofList_toList]

theorem lastLine_after_break (before text : String) :
    lastLine (before ++ "\n" ++ text) = lastLine text := by
  have hbreak : (before ++ "\n" ++ text).toList.reverse =
      text.toList.reverse ++ '\n' :: before.toList.reverse := by
    simp
  unfold lastLine
  rw [hbreak, List.takeWhile_append]
  split
  · rename_i hall
    rw [List.takeWhile_cons_of_neg (by decide), List.append_nil]
    congr 2
    exact (List.takeWhile_sublist _).eq_of_length hall |>.symm
  · rfl

/-- The last of some lines is the last line of a text that is made of them. -/
theorem lastLine_intercalate (lines : List String) {line : String} (h : '\n' ∉ line.toList) :
    lastLine (String.intercalate "\n" (lines ++ [line])) = line := by
  induction lines with
  | nil => exact lastLine_of_no_break h
  | cons first rest ih =>
      obtain ⟨second, others, hrest⟩ : ∃ second others, rest ++ [line] = second :: others :=
        List.exists_cons_of_ne_nil (List.append_ne_nil_of_right_ne_nil _ (List.cons_ne_nil _ _))
      rw [List.cons_append, hrest, String.intercalate_cons_cons, lastLine_after_break, ← hrest]
      exact ih

namespace PeerDirectory

/-- The sightings of an address after those of some discoveries. -/
def sightingsAfter (s : Address.V4 → Sightings) (found : List Discovery) : Address.V4 → Sightings :=
  found.foldl (fun s e => fun x => if x = e.address then count (s x) e.isNew else s x) s

/-- A handshake counts each peer once. -/
theorem sightingsAfter_discover {servers : List Peer} (known : List Address.V4)
    (hnodup : (servers.map Peer.address).Nodup) (s : Address.V4 → Sightings) (x : Address.V4) :
    sightingsAfter s (servers.map fun p => ⟨p.address, !known.contains p.address⟩) x =
      if x ∈ servers.map Peer.address then count (s x) (!known.contains x) else s x := by
  induction servers generalizing s with
  | nil => rfl
  | cons p rest ih =>
      rw [List.map_cons, List.nodup_cons] at hnodup
      rw [List.map_cons, sightingsAfter, List.foldl_cons]
      refine (ih hnodup.2 _).trans ?_
      by_cases hx : x = p.address
      · subst hx
        simp [hnodup.1]
      · simp [hx]

theorem toNat_succ {a : UInt64} (h : a.toNat + 1 < UInt64.size) : (a + 1).toNat = a.toNat + 1 := by
  rw [UInt64.toNat_add]
  exact Nat.mod_eq_of_lt h

theorem new_count {s : Sightings} (isNew : Bool) (h : s.new.toNat + 1 < UInt64.size) :
    (count s isNew).new.toNat = s.new.toNat + if isNew then 1 else 0 := by
  cases isNew with
  | true => exact toNat_succ h
  | false => rfl

theorem known_count {s : Sightings} (isNew : Bool) (h : s.known.toNat + 1 < UInt64.size) :
    (count s isNew).known.toNat = s.known.toNat + if isNew then 0 else 1 := by
  cases isNew with
  | true => rfl
  | false => exact toNat_succ h

/-- A list that has each peer once has one news of a peer at most. -/
theorem count_news {servers : List Peer} (isNew : Address.V4 → Bool) {x : Address.V4}
    (hnodup : (servers.map Peer.address).Nodup) (hx : x ∈ servers.map Peer.address) :
    (servers.map fun p => (p.address, isNew p.address)).count (x, true) =
      if isNew x then 1 else 0 := by
  induction servers with
  | nil => cases hx
  | cons p rest ih =>
      rw [List.map_cons, List.nodup_cons] at hnodup
      rw [List.map_cons, List.count_cons]
      by_cases hfirst : x = p.address
      · have hnone : (rest.map fun p => (p.address, isNew p.address)).count (x, true) = 0 := by
          apply List.count_eq_zero.2
          intro hmem
          obtain ⟨q, hq, heq⟩ := List.mem_map.1 hmem
          apply hnodup.1
          rw [← hfirst]
          exact List.mem_map.2 ⟨q, hq, congrArg Prod.fst heq⟩
        rw [hnone, hfirst]
        simp
      · have hmem : x ∈ rest.map Peer.address := (List.mem_cons.1 hx).resolve_left hfirst
        have hother : ((p.address, isNew p.address) == (x, true)) = false := by
          apply beq_false_of_ne
          intro heq
          exact hfirst (congrArg Prod.fst heq).symm
        rw [ih hnodup.2 hmem, hother]
        rfl

end PeerDirectory

/-- Whether an event is one of a handshake. -/
def Event.isGreeting : Event → Bool
  | .handshake _ _ => true
  | .discovery _ _ _ => true
  | _ => false

/-- A desk leaves handshakes aside if what it emits is not about them. -/
def Desk.Aside (d d' : Desk) : Prop :=
  ∃ es, d'.events = d.events ++ es ∧ ∀ e ∈ es, e.isGreeting = false

namespace Desk

variable {d d' : Desk} {w : Windows} {id : SessionId} {tag : String} {e : Event}

theorem Aside.of_events_eq (h : d'.events = d.events) : d.Aside d' := by
  refine ⟨[], ?_, fun e he => absurd he List.not_mem_nil⟩
  rw [h, List.append_nil]

theorem Aside.congr {d'' : Desk} (h : d.Aside d') (hevents : d''.events = d'.events) :
    d.Aside d'' := by
  obtain ⟨es, hes, hothers⟩ := h
  exact ⟨es, hevents.trans hes, hothers⟩

theorem Aside.emit (h : d.Aside d') (he : e.isGreeting = false) : d.Aside (d'.emit e) := by
  obtain ⟨es, hes, hothers⟩ := h
  refine ⟨es ++ [e], ?_, ?_⟩
  · rw [← List.append_assoc, ← hes]
    rfl
  · intro e' he'
    rcases List.mem_append.1 he' with hbefore | hlast
    · exact hothers e' hbefore
    · rw [List.mem_singleton.1 hlast]
      exact he

theorem aside_connect {fields : Dict String} {now : UInt64} {flushed : Option SessionRecord}
    (h : d.connect w id tag fields now = .ok (flushed, d')) : d.Aside d' := by
  obtain ⟨-, -, rfl⟩ | ⟨f, -, -, rfl⟩ := connect_cases h
  · exact .of_events_eq rfl
  · exact Aside.emit (.of_events_eq rfl) rfl

theorem aside_report {r : Report} {outcome : ReportOutcome}
    (h : d.report id tag r = .ok (outcome, d')) : d.Aside d' := by
  obtain ⟨-, -, rfl⟩ | ⟨f, -, ⟨-, -, rfl⟩ | ⟨-, -, rfl⟩⟩ := report_cases h
  · exact .of_events_eq rfl
  · exact .of_events_eq rfl
  · exact .of_events_eq rfl

theorem events_tryForgetRegion (id : SessionId) (d : Desk) :
    (d.tryForgetRegion id).events = d.events := by
  unfold tryForgetRegion
  split
  · rename_i hforget
    rw [forgetRegion_eq_ok hforget]
    rfl
  · rfl

end Desk

/-- A front end leaves handshakes aside if its key, its peers and the way to the transport stay as
they were, and its desk leaves them aside. -/
structure FrontEnd.Aside (fe fe' : FrontEnd) : Prop where
  rotator : fe'.rotator = fe.rotator
  outlet : fe'.outlet = fe.outlet
  peers : fe'.peers = fe.peers
  desk : fe.desk.Aside fe'.desk

theorem FrontEnd.Aside.refl (fe : FrontEnd) : fe.Aside fe := ⟨rfl, rfl, rfl, .of_events_eq rfl⟩

theorem FrontEnd.Aside.of_untouched {fe fe' : FrontEnd} (h : fe.Untouched fe') : fe.Aside fe' :=
  ⟨h.rotator, h.outlet, h.peers, .of_events_eq (by rw [h.desk])⟩

/-- What a handshake of a client that knows some servers does, with the key that is drawn for it: the
key becomes the current one, the transport has it, each peer is counted, and the events tell of it. -/
structure FrontEnd.Greets (fe : FrontEnd) (key : String) (known : List Address.V4)
    (response : Response) (fe' : FrontEnd) : Prop where
  reply : ∃ lines, response = Site.handshakeReply lines key
  rotator : fe'.rotator = ⟨fe.rotator.next key⟩
  route : fe'.outlet.route = fe.outlet.route
  recorded : fe.outlet.route = .record →
    fe'.outlet.recorded = fe.outlet.recorded ++ [fe.rotator.next key]
  peers : fe'.peers = fe.peers.record (fe.peers.discover known)
  events : ∃ summary, fe'.desk.events = fe.desk.events ++
    Site.handshakeEvents summary (fe.rotator.next key).sequence (fe.peers.discover known)

namespace Site

variable {s : Site} {c : Call} {fe : FrontEnd}

theorem aside_openSession (a : Accepted) (id : SessionId) :
    fe.Aside (s.openSession c a id fe).2 := by
  unfold openSession
  split
  · exact .refl fe
  · dsimp only
    split
    · exact .refl fe
    · rename_i desk hconnect
      have hdesk := (Desk.aside_connect hconnect).congr (Desk.events_tryForgetRegion id desk)
      exact ⟨rfl, rfl, rfl, hdesk.emit rfl⟩

theorem aside_connected : fe.Aside (s.connected c fe).2 := by
  unfold connected
  split
  · exact .refl fe
  · split
    · exact .refl fe
    · exact aside_openSession _ _
    · exact ⟨rfl, rfl, rfl, Desk.Aside.emit (.of_events_eq rfl) rfl⟩

theorem aside_failed : fe.Aside (s.failed c fe).2 := by
  unfold failed
  split
  · exact .refl fe
  · split
    · exact .refl fe
    · exact ⟨rfl, rfl, rfl, Desk.Aside.emit (.of_events_eq rfl) rfl⟩

theorem aside_status : fe.Aside (s.status c fe).2 := by
  unfold status
  split
  · exact .refl fe
  · split
    · exact .refl fe
    · split
      · exact .refl fe
      · split
        · exact .refl fe
        · simp only [reportUsage]
          split
          · exact .refl fe
          · rename_i desk hreport
            exact ⟨rfl, rfl, rfl, (Desk.aside_report hreport).emit rfl⟩

theorem aside_download : fe.Aside (s.download c fe).2 := by
  unfold download
  split
  · exact .refl fe
  · split
    · exact .refl fe
    · exact .refl fe

/-- An accepted handshake greets the client, or is refused and leaves everything as it was. -/
theorem greet_cases (s : Site) (c : Call) (fe : FrontEnd) (a : Accepted) (known : List Address.V4) :
    (∃ response, (s.greet c a known fe).1 = .ok response ∧
      fe.Greets c.draw.key known response (s.greet c a known fe).2) ∨
      ∃ e, (s.greet c a known fe).1 = .error e := by
  unfold greet
  dsimp only
  split
  · exact .inr ⟨_, rfl⟩
  · rename_i k rotator outlet files hrotate
    obtain ⟨rfl, rfl, hpush⟩ := Rotator.rotate_eq_ok hrotate
    obtain ⟨hroute, hrecorded, -⟩ := KeyOutlet.push_eq_ok hpush
    exact .inl ⟨_, rfl, ⟨_, rfl⟩, rfl, hroute, hrecorded, rfl, ⟨_, rfl⟩⟩

/-- A handshake greets the client, or is refused and leaves everything as it was. -/
theorem handshake_cases (s : Site) (c : Call) (fe : FrontEnd) :
    (∃ known response, c.params.knownServers = .ok known ∧ (s.handshake c fe).1 = .ok response ∧
      fe.Greets c.draw.key known response (s.handshake c fe).2) ∨
      ∃ e, (s.handshake c fe).1 = .error e := by
  unfold handshake
  cases s.accept .handshake c.params with
  | error e => exact .inr ⟨e, rfl⟩
  | ok a =>
      cases hknown : c.params.knownServers with
      | error e => exact .inr ⟨_, rfl⟩
      | ok known =>
          rcases greet_cases s c fe a known with ⟨response, hgreet⟩ | herror
          · exact .inl ⟨known, response, rfl, hgreet⟩
          · exact .inr herror

/-- A request other than a handshake leaves handshakes aside. -/
theorem aside_handle {e : Endpoint} (he : e ≠ .handshake) : fe.Aside (s.handle e c fe).2 := by
  cases e with
  | handshake => exact absurd rfl he
  | connected => exact aside_connected
  | failed => exact aside_failed
  | status => exact aside_status
  | download => exact aside_download

end Site

/-- A request that was answered, with the events that it gave rise to. -/
structure Served where
  request : Request
  response : Response
  events : List Event

namespace Served

/-- Whether a handshake was answered with success. -/
def isHandshake (h : Served) : Bool :=
  h.request.path == Endpoint.handshake.path && h.response.status == 200

/-- Whether a client says that it knows a server. -/
def knows (h : Served) (x : Address.V4) : Bool :=
  match (⟨Form.pairs h.request.query⟩ : Params).knownServers with
  | .ok known => known.contains x
  | .error _ => false

/-- The handshakes that were answered with success. -/
def handshakes (served : List Served) : List Served := served.filter isHandshake

/-- What an answered handshake hands to its client and tells of: the last line of the body is the
key, unless only the head of the answer was asked for, and there is one event for the handshake and
then one for each peer in the order of the directory. -/
structure Hands (peers : List Peer) (key : KeyState) (h : Served) : Prop where
  body : h.request.method ≠ "HEAD" → ∃ text, h.response.body = Utf8.encode text ∧
    ('\n' ∉ key.key.toList → lastLine text = "PSK: " ++ key.key)
  head : h.request.method = "HEAD" → h.response.body = []
  events : ∃ summary, h.events = .handshake summary key.sequence ::
    peers.map fun p => .discovery summary p.address (!h.knows p.address)

end Served

namespace Site

variable {s : Site} {r : Request} {fe : FrontEnd}

/-- A request as it is answered. -/
def served (s : Site) (r : Request) (fe : FrontEnd) : Served where
  request := r
  response := (s.route r fe).1
  events := (s.route r fe).2.desk.events.drop fe.desk.events.length

/-- A handshake that may be made with its method greets its client, or fails and changes nothing that
is about handshakes. -/
theorem route_handshake (hpath : r.path = Endpoint.handshake.path)
    (hmethod : Endpoint.handshake.allows r.method = true) :
    ((s.served r fe).isHandshake = true ∧ ∃ known response,
      (⟨Form.pairs r.query⟩ : Params).knownServers = .ok known ∧
      (s.route r fe).1 = (if r.method == "HEAD" then { response with body := [] } else response) ∧
      fe.Greets r.draw.key known response (s.route r fe).2) ∨
    ((s.served r fe).isHandshake = false ∧ fe.Aside (s.route r fe).2) := by
  have hroute : s.route r fe = _ := route_of_allows hpath hmethod
  simp only [handle] at hroute
  rcases handshake_cases s (s.call r) fe with
    ⟨known, response, hknown, hanswer, hgreets⟩ | ⟨rejection, hanswer⟩
  · left
    have hstatus : response.status = 200 := by
      obtain ⟨lines, rfl⟩ := hgreets.reply
      rfl
    have hresponse : (s.route r fe).1 =
        if r.method == "HEAD" then { response with body := [] } else response := by
      rw [hroute, hanswer]
      rfl
    have hserved : (s.route r fe).1.status = 200 := by
      rw [hresponse]
      split
      · exact hstatus
      · exact hstatus
    refine ⟨?_, known, response, hknown, hresponse, ?_⟩
    · rw [Served.isHandshake, Bool.and_eq_true]
      exact ⟨beq_iff_eq.2 hpath, beq_iff_eq.2 hserved⟩
    · rw [hroute]
      exact hgreets
  · right
    have hrefused : Response.notFound.status ≠ 200 := by decide
    have hstatus : (s.route r fe).1.status ≠ 200 := by
      rw [hroute, hanswer]
      dsimp only
      split
      · exact hrefused
      · exact hrefused
    refine ⟨?_, .of_untouched (untouched_of_failure hstatus).2⟩
    rw [Served.isHandshake, Bool.and_eq_false_iff]
    exact .inr (beq_false_of_ne hstatus)

/-- A request is a handshake that greets its client, or no handshake that succeeds, and then it leaves
handshakes aside. -/
theorem route_greets_or_aside (s : Site) (r : Request) (fe : FrontEnd) :
    ((s.served r fe).isHandshake = true ∧ ∃ known response,
      (⟨Form.pairs r.query⟩ : Params).knownServers = .ok known ∧
      (s.route r fe).1 = (if r.method == "HEAD" then { response with body := [] } else response) ∧
      fe.Greets r.draw.key known response (s.route r fe).2) ∨
    ((s.served r fe).isHandshake = false ∧ fe.Aside (s.route r fe).2) := by
  by_cases hpath : r.path = Endpoint.handshake.path
  · cases hmethod : Endpoint.handshake.allows r.method with
    | true => exact route_handshake hpath hmethod
    | false =>
        have hroute : s.route r fe =
            ({ status := 405, allow := some Endpoint.handshake.methods }, fe) := by
          simp only [route, hpath, ofPath?_path, hmethod, Bool.false_eq_true, ↓reduceIte]
        right
        rw [hroute]
        refine ⟨?_, .refl fe⟩
        rw [Served.isHandshake, Bool.and_eq_false_iff]
        right
        dsimp only [served]
        rw [hroute]
        rfl
  · right
    refine ⟨?_, ?_⟩
    · rw [Served.isHandshake, Bool.and_eq_false_iff]
      exact .inl (beq_false_of_ne hpath)
    · rcases route_cases s r fe with ⟨-, hsame⟩ | ⟨e, hpath', hmethod⟩
      · rw [hsame]
        exact .refl fe
      · have he : e ≠ .handshake := by
          rintro rfl
          exact hpath hpath'
        rw [route_of_allows hpath' hmethod]
        exact aside_handle he

end Site

/-- A request together with what its front end finds then: the store that it shares, the time of its
timer, the files, and whether the transport refuses keys. -/
structure Arrival where
  request : Request
  store : Store
  timer : Timer
  files : Files
  refusal : Option String

/-- A front end as a request finds it. -/
def Arrival.meets (a : Arrival) (fe : FrontEnd) : FrontEnd :=
  { fe with
    desk := { fe.desk with store := a.store, timer := a.timer }
    files := a.files
    outlet := { fe.outlet with refusal := a.refusal } }

namespace Site

/-- Answer one more request. -/
def serveNext (s : Site) (so : List Served × FrontEnd) (a : Arrival) : List Served × FrontEnd :=
  (so.1 ++ [s.served a.request (a.meets so.2)], (s.route a.request (a.meets so.2)).2)

/-- Answer requests one after the other. -/
def serve (s : Site) (fe : FrontEnd) (arrivals : List Arrival) : List Served × FrontEnd :=
  arrivals.foldl s.serveNext ([], fe)

end Site

/-- The ledger of handshakes of a front end with some peers: `keys` are those that it has pushed, and
`served` are the requests that it has answered. -/
structure HandshakeLedger (peers : List Peer) (earlier : List KeyState) (before : List Event)
    (served : List Served) (keys : List KeyState) (fe : FrontEnd) : Prop where
  servers : fe.peers.servers = peers
  sequence : fe.rotator.current.sequence.toNat = (Served.handshakes served).length
  numbered : keys.map (fun k => k.sequence.toNat) =
    List.range' 1 (Served.handshakes served).length
  recorded : fe.outlet.route = .record → fe.outlet.recorded = earlier ++ keys
  handed : ∀ (k : Nat) (h : Served), (Served.handshakes served)[k]? = some h →
    ∃ key, keys[k]? = some key ∧ key.sequence.toNat = k + 1 ∧ h.Hands peers key
  others : ∀ h ∈ served, h.isHandshake = false → ∀ e ∈ h.events, e.isGreeting = false
  emitted : fe.desk.events = before ++ served.flatMap Served.events
  new : ∀ p ∈ peers, (fe.peers.sightings p.address).new.toNat =
    ((Served.handshakes served).filter fun h => !h.knows p.address).length
  total : ∀ p ∈ peers, (fe.peers.sightings p.address).new.toNat +
    (fe.peers.sightings p.address).known.toNat = (Served.handshakes served).length
  news : ∀ p ∈ peers, ((served.flatMap Served.events).filterMap Event.discovery?).count
    (p.address, true) = ((Served.handshakes served).filter fun h => !h.knows p.address).length

namespace HandshakeLedger

variable {s : Site} {peers : List Peer} {earlier : List KeyState} {before : List Event}
variable {served : List Served} {keys : List KeyState} {fe fe' : FrontEnd} {h : Served}

theorem handshakes_concat_of_aside (hh : h.isHandshake = false) :
    Served.handshakes (served ++ [h]) = Served.handshakes served := by
  rw [Served.handshakes, List.filter_append, List.filter_cons_of_neg (by rw [hh]; decide)]
  exact List.append_nil _

theorem handshakes_concat (hh : h.isHandshake = true) :
    Served.handshakes (served ++ [h]) = Served.handshakes served ++ [h] := by
  rw [Served.handshakes, List.filter_append, List.filter_cons_of_pos hh]
  rfl

theorem length_filter_concat (test : Served → Bool) (hs : List Served) (h : Served) :
    ((hs ++ [h]).filter test).length = (hs.filter test).length + if test h then 1 else 0 := by
  rw [List.filter_append, List.length_append]
  cases ht : test h with
  | true => rw [List.filter_cons_of_pos ht]; rfl
  | false => rw [List.filter_cons_of_neg (by rw [ht]; decide)]; rfl

/-- What leaves handshakes aside tells of no discoveries. -/
theorem discoveries_of_aside {es : List Event} (h : ∀ e ∈ es, e.isGreeting = false) :
    es.filterMap Event.discovery? = [] := by
  rw [List.filterMap_eq_nil_iff]
  intro e he
  cases e with
  | discovery request server isNew => cases h _ he
  | _ => rfl

/-- A request that leaves handshakes aside keeps the ledger. -/
theorem aside (hledger : HandshakeLedger peers earlier before served keys fe)
    (hh : h.isHandshake = false) (haside : fe.Aside fe')
    (hevents : h.events = fe'.desk.events.drop fe.desk.events.length) :
    HandshakeLedger peers earlier before (served ++ [h]) keys fe' := by
  obtain ⟨es, hes, hothers⟩ := haside.desk
  have hown : h.events = es := by
    rw [hevents, hes, List.drop_left]
  have hhandshakes : Served.handshakes (served ++ [h]) = Served.handshakes served :=
    handshakes_concat_of_aside hh
  have hall : (served ++ [h]).flatMap Served.events = served.flatMap Served.events ++ es := by
    rw [List.flatMap_append, List.flatMap_singleton, hown]
  constructor
  · rw [haside.peers]
    exact hledger.servers
  · rw [haside.rotator, hhandshakes]
    exact hledger.sequence
  · rw [hhandshakes]
    exact hledger.numbered
  · rw [haside.outlet]
    exact hledger.recorded
  · rw [hhandshakes]
    exact hledger.handed
  · intro h' hmem hh' e he
    rcases List.mem_append.1 hmem with hold | hlast
    · exact hledger.others h' hold hh' e he
    · rw [List.mem_singleton.1 hlast, hown] at he
      exact hothers e he
  · rw [hall, hes, hledger.emitted, List.append_assoc]
  · rw [haside.peers, hhandshakes]
    exact hledger.new
  · rw [haside.peers, hhandshakes]
    exact hledger.total
  · rw [hall, List.filterMap_append, discoveries_of_aside hothers, List.append_nil, hhandshakes]
    exact hledger.news

section Greeting

variable {key : String} {known : List Address.V4} {response : Response}

/-- A client that is greeted is handed the key that follows. -/
theorem hands_of_greets {r : Request} (hgreets : fe.Greets r.draw.key known response
    (s.route r fe).2) (hknown : (⟨Form.pairs r.query⟩ : Params).knownServers = .ok known)
    (hresponse : (s.route r fe).1 =
      if r.method == "HEAD" then { response with body := [] } else response) :
    (s.served r fe).Hands fe.peers.servers (fe.rotator.next r.draw.key) where
  body := by
    intro (hmethod : r.method ≠ "HEAD")
    obtain ⟨lines, hreply⟩ := hgreets.reply
    refine ⟨String.intercalate "\n" (lines ++ ["PSK: " ++ r.draw.key]), ?_, ?_⟩
    · rw [beq_false_of_ne hmethod, if_neg Bool.false_ne_true, hreply] at hresponse
      exact congrArg Response.body hresponse
    · intro hkey
      apply lastLine_intercalate
      rw [String.toList_append, List.mem_append]
      rintro (hlabel | hbreak)
      · exact absurd hlabel (by decide)
      · exact hkey hbreak
  head := by
    intro (hmethod : r.method = "HEAD")
    rw [beq_iff_eq.2 hmethod, if_pos rfl] at hresponse
    exact congrArg Response.body hresponse
  events := by
    obtain ⟨summary, hevents⟩ := hgreets.events
    refine ⟨summary, ?_⟩
    dsimp only [Site.served]
    rw [hevents, List.drop_left]
    simp only [Site.handshakeEvents, PeerDirectory.discover, List.map_map, Served.knows, hknown]
    rfl

theorem sightings_of_greets (hgreets : fe.Greets key known response fe')
    (hnodup : (fe.peers.servers.map Peer.address).Nodup) {p : Peer} (hp : p ∈ fe.peers.servers) :
    fe'.peers.sightings p.address =
      PeerDirectory.count (fe.peers.sightings p.address) (!known.contains p.address) := by
  rw [hgreets.peers]
  refine (PeerDirectory.sightingsAfter_discover known hnodup _ _).trans ?_
  exact if_pos (List.mem_map.2 ⟨p, hp, rfl⟩)

theorem length_keys (hledger : HandshakeLedger peers earlier before served keys fe) :
    keys.length = (Served.handshakes served).length := by
  have hnumbered := congrArg List.length hledger.numbered
  rw [List.length_map, List.length_range'] at hnumbered
  exact hnumbered

/-- The key that follows has the number that follows. -/
theorem toNat_next (hledger : HandshakeLedger peers earlier before served keys fe)
    (hroom : served.length + 1 < UInt64.size) (key : String) :
    (fe.rotator.next key).sequence.toNat = (Served.handshakes served).length + 1 := by
  have hlength : (Served.handshakes served).length ≤ served.length := List.length_filter_le _ _
  rw [Rotator.toNat_next, hledger.sequence]
  rw [hledger.sequence]
  omega

/-- The key that follows is in the hands of the client that is greeted, and the keys before it are in
the same hands as before. -/
theorem handed_greets (hledger : HandshakeLedger peers earlier before served keys fe)
    (hroom : served.length + 1 < UInt64.size) (hhands : h.Hands peers (fe.rotator.next key))
    {k : Nat} {h' : Served} (hk : (Served.handshakes served ++ [h])[k]? = some h') :
    ∃ key', (keys ++ [fe.rotator.next key])[k]? = some key' ∧ key'.sequence.toNat = k + 1 ∧
      h'.Hands peers key' := by
  rw [List.getElem?_append, ← hledger.length_keys] at hk
  split at hk
  · rename_i hlt
    rw [List.getElem?_append_left hlt]
    exact hledger.handed k h' hk
  · rename_i hge
    rw [List.getElem?_singleton] at hk
    split at hk
    · rename_i hlast
      cases hk
      obtain rfl : k = keys.length := by omega
      refine ⟨_, List.getElem?_concat_length, ?_, hhands⟩
      rw [hledger.toNat_next hroom, hledger.length_keys]
    · cases hk

/-- A client that is greeted keeps the ledger, with one key more. -/
theorem greets (hledger : HandshakeLedger peers earlier before served keys fe)
    (hnodup : (peers.map Peer.address).Nodup) (hroom : served.length + 1 < UInt64.size)
    (hh : h.isHandshake = true) (hhands : h.Hands peers (fe.rotator.next key))
    (hknows : ∀ x, h.knows x = known.contains x) (hgreets : fe.Greets key known response fe')
    (hevents : fe'.desk.events = fe.desk.events ++ h.events) :
    HandshakeLedger peers earlier before (served ++ [h]) (keys ++ [fe.rotator.next key]) fe' := by
  have hhandshakes : Served.handshakes (served ++ [h]) = Served.handshakes served ++ [h] :=
    handshakes_concat hh
  have hlength : (Served.handshakes served).length ≤ served.length := List.length_filter_le _ _
  have hall : (served ++ [h]).flatMap Served.events = served.flatMap Served.events ++ h.events := by
    rw [List.flatMap_append, List.flatMap_singleton]
  have hnext := hledger.toNat_next hroom key
  have hsightings : ∀ p ∈ peers, fe'.peers.sightings p.address =
      PeerDirectory.count (fe.peers.sightings p.address) (!known.contains p.address) := by
    intro p hp
    rw [← hledger.servers] at hp hnodup
    exact sightings_of_greets hgreets hnodup hp
  constructor
  · rw [hgreets.peers]
    exact hledger.servers
  · rw [hgreets.rotator, hnext, hhandshakes, List.length_append]
    rfl
  · rw [List.map_append, hledger.numbered, hhandshakes, List.length_append]
    refine Eq.trans ?_ List.range'_1_concat.symm
    rw [Nat.add_comm 1, ← hnext]
    rfl
  · intro hroute
    rw [hgreets.route] at hroute
    rw [hgreets.recorded hroute, hledger.recorded hroute, List.append_assoc]
  · intro k h' hk
    rw [hhandshakes] at hk
    exact hledger.handed_greets hroom hhands hk
  · intro h' hmem hh' e he
    rcases List.mem_append.1 hmem with hold | hlast
    · exact hledger.others h' hold hh' e he
    · rw [List.mem_singleton.1 hlast, hh] at hh'
      cases hh'
  · rw [hall, hevents, hledger.emitted, List.append_assoc]
  · intro p hp
    have hold := hledger.new p hp
    have hfilter := List.length_filter_le (fun h => !h.knows p.address) (Served.handshakes served)
    rw [hsightings p hp, PeerDirectory.new_count _ (by omega), hold, hhandshakes,
      length_filter_concat, hknows]
  · intro p hp
    have hold := hledger.total p hp
    rw [hsightings p hp, PeerDirectory.new_count _ (by omega),
      PeerDirectory.known_count _ (by omega), hhandshakes, List.length_append, ← hold]
    cases known.contains p.address with
    | true => exact Nat.add_assoc _ _ 1
    | false => exact Nat.add_right_comm _ 1 _
  · intro p hp
    obtain ⟨summary, hown⟩ := hhands.events
    have hdiscoveries : h.events.filterMap Event.discovery? =
        peers.map fun p => (p.address, !h.knows p.address) := by
      rw [hown, List.filterMap_cons_none rfl, List.filterMap_map]
      exact congrFun List.filterMap_eq_map peers
    have hnews := PeerDirectory.count_news (fun x => !h.knows x) hnodup
      (List.mem_map.2 ⟨p, hp, rfl⟩)
    rw [hall, List.filterMap_append, List.count_append, hledger.news p hp, hdiscoveries, hnews,
      hhandshakes, length_filter_concat]

end Greeting

/-- What a front end finds when a request arrives does not touch the ledger. -/
theorem meets (hledger : HandshakeLedger peers earlier before served keys fe) (a : Arrival) :
    HandshakeLedger peers earlier before served keys (a.meets fe) where
  servers := hledger.servers
  sequence := hledger.sequence
  numbered := hledger.numbered
  recorded := hledger.recorded
  handed := hledger.handed
  others := hledger.others
  emitted := hledger.emitted
  new := hledger.new
  total := hledger.total
  news := hledger.news

/-- A request that is answered keeps the ledger, with a key more if it is a handshake that
succeeds. -/
theorem next (hledger : HandshakeLedger peers earlier before served keys fe)
    (hnodup : (peers.map Peer.address).Nodup) (hroom : served.length + 1 < UInt64.size)
    (a : Arrival) :
    ∃ keys', HandshakeLedger peers earlier before (s.serveNext (served, fe) a).1 keys'
      (s.serveNext (served, fe) a).2 := by
  have hmeets := hledger.meets a
  rcases Site.route_greets_or_aside s a.request (a.meets fe) with
    ⟨hh, known, response, hknown, hresponse, hgreets⟩ | ⟨hh, haside⟩
  · have hhands := hands_of_greets hgreets hknown hresponse
    rw [hmeets.servers] at hhands
    have hknows : ∀ x, (s.served a.request (a.meets fe)).knows x = known.contains x := by
      intro x
      simp only [Served.knows, Site.served, hknown]
    refine ⟨_, hmeets.greets hnodup hroom hh hhands hknows hgreets ?_⟩
    obtain ⟨summary, hevents⟩ := hgreets.events
    dsimp only [Site.served]
    rw [hevents, List.drop_left]
    exact hevents
  · exact ⟨keys, hmeets.aside hh haside rfl⟩

theorem foldl (hledger : HandshakeLedger peers earlier before served keys fe)
    (hnodup : (peers.map Peer.address).Nodup) {arrivals : List Arrival}
    (hroom : served.length + arrivals.length < UInt64.size) :
    let so := arrivals.foldl s.serveNext (served, fe)
    ∃ keys', HandshakeLedger peers earlier before so.1 keys' so.2 := by
  induction arrivals generalizing served keys fe with
  | nil => exact ⟨keys, hledger⟩
  | cons a rest ih =>
      rw [List.length_cons] at hroom
      obtain ⟨keys', hnext⟩ := hledger.next (s := s) hnodup (by omega) a
      apply ih hnext
      dsimp only [Site.serveNext]
      rw [List.length_append, List.length_singleton]
      omega

/-- A front end that has just started has a ledger of no handshakes. -/
theorem of_start {server key : String} {entries : List Settings.PeerEntry}
    (hrotator : fe.rotator = Rotator.start server key)
    (hpeers : fe.peers = PeerDirectory.ofEntries entries) :
    HandshakeLedger fe.peers.servers fe.outlet.recorded fe.desk.events [] [] fe where
  servers := rfl
  sequence := by
    rw [hrotator]
    rfl
  numbered := rfl
  recorded := fun _ => (List.append_nil _).symm
  handed := by
    intro k h hk
    cases hk
  others := by
    intro h hh
    cases hh
  emitted := (List.append_nil _).symm
  new := by
    intro p hp
    rw [hpeers]
    rfl
  total := by
    intro p hp
    rw [hpeers]
    rfl
  news := fun p hp => rfl

end HandshakeLedger

namespace Site

variable {s : Site} {fe : FrontEnd} {server key : String} {entries : List Settings.PeerEntry}

/-- A front end keeps the ledger of its handshakes from its start on, whatever requests it answers
and whenever the transport refuses its keys. -/
theorem serve_keeps_ledger (hrotator : fe.rotator = Rotator.start server key)
    (hpeers : fe.peers = PeerDirectory.ofEntries entries) {arrivals : List Arrival}
    (hroom : arrivals.length < UInt64.size) :
    ∃ keys, HandshakeLedger fe.peers.servers fe.outlet.recorded fe.desk.events
      (s.serve fe arrivals).1 keys (s.serve fe arrivals).2 := by
  have hnodup : (fe.peers.servers.map Peer.address).Nodup := by
    rw [hpeers]
    exact (PeerDirectory.nodup_distinct [] entries).1
  apply (HandshakeLedger.of_start hrotator hpeers).foldl hnodup
  rw [List.length_nil, Nat.zero_add]
  exact hroom

/-- A service with nothing but a secret. -/
def bare : Site :=
  ofSettings { server := { secret := "ab" }, sessions := { databasePath := "" }, downloads := "" }

/-- A front end at start with one peer, and a transport that records its keys. -/
def novice : FrontEnd where
  desk := { store := .memory, timer := { clock := 0 } }
  rotator := Rotator.start "127.0.0.1" "00"
  outlet := { route := .record }
  files := {}
  peers := PeerDirectory.ofEntries [⟨"192.0.2.1", 80, "a", "b"⟩]

/-- A handshake made with a method, for which a key is drawn. -/
def hello (method key : String) (refusal : Option String) : Arrival where
  request :=
    { method := method
      path := "/handshake"
      query := "server_secret=ab&client_id=0a&sponsor_id=0b&client_version=3"
      body := []
      client := .v4 ⟨10, 0, 0, 1⟩
      now := 5
      draw := ⟨"x", key⟩ }
  store := .memory
  timer := { clock := 0 }
  files := {}
  refusal := refusal

/-- Of three handshakes the transport refuses the key of the second one. -/
theorem serve_keeps_ledger_refused :
    let arrivals := [hello "GET" "01" none, hello "GET" "02" (some "busy"), hello "HEAD" "03" none]
    novice.rotator = Rotator.start "127.0.0.1" "00" ∧
      novice.peers = PeerDirectory.ofEntries [⟨"192.0.2.1", 80, "a", "b"⟩] ∧
      arrivals.length < UInt64.size ∧
      (∃ keys, HandshakeLedger novice.peers.servers novice.outlet.recorded novice.desk.events
        (bare.serve novice arrivals).1 keys (bare.serve novice arrivals).2) ∧
      (bare.serve novice arrivals).2.outlet.recorded =
        [⟨1, "127.0.0.1", "01"⟩, ⟨2, "127.0.0.1", "03"⟩] := by
  intro arrivals
  have hroom : arrivals.length < UInt64.size := by decide
  exact ⟨rfl, rfl, hroom, serve_keeps_ledger rfl rfl hroom, by decide +kernel⟩

/-- A handshake of which only the head is asked for takes a key, but its answer has no line. -/
theorem head_is_handed_no_key :
    let result := bare.serve novice [hello "HEAD" "01" none]
    result.2.outlet.recorded = [⟨1, "127.0.0.1", "01"⟩] ∧
      ∃ h, Served.handshakes result.1 = [h] ∧ h.response.status = 200 ∧
        ¬ ∃ text, h.response.body = Utf8.encode text ∧ lastLine text = "PSK: 01" := by
  intro result
  have hanswers : (Served.handshakes result.1).map Served.response =
      [{ status := 200, contentType := some "text/plain" }] := by
    decide +kernel
  obtain ⟨h, hsingle, hresponse⟩ := List.map_eq_singleton_iff.1 hanswers
  refine ⟨by decide +kernel, h, hsingle, ?_, ?_⟩
  · rw [hresponse]
  · rintro ⟨text, hbody, hline⟩
    rw [hresponse] at hbody
    have hempty : text = "" := by
      apply String.toList_eq_nil_iff.1
      apply List.eq_nil_iff_forall_not_mem.2
      intro c hc
      exact String.utf8EncodeChar_ne_nil (List.flatMap_eq_nil_iff.1 hbody.symm c hc)
    rw [hempty] at hline
    exact absurd hline (by decide)

end Site

end Gatehouse
