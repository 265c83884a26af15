import Gatehouse.Proofs.Rotation
import Gatehouse.Proofs.Service.Acceptance
import Gatehouse.Service.Router

/-!
# Refused requests leave no trace

Every handler checks before it changes, and what can still fail then fails before anything has
changed. A request that is not answered with success is therefore answered without a body, and
leaves its front end as it was.
-/

namespace Gatehouse

/-- A front end is untouched if its desk, its key, its peers and the way to the transport are as
they were, and so is what the transport can read. -/
structure FrontEnd.Untouched (fe fe' : FrontEnd) : Prop where
  desk : fe'.desk = fe.desk
  rotator : fe'.rotator = fe.rotator
  peers : fe'.peers = fe.peers
  outlet : fe'.outlet = fe.outlet
  files : (∀ path, fe.outlet.route ≠ .file path) → fe'.files = fe.files
  secrets : ∀ path, fe.outlet.route = .file path → fe'.files.read? path = fe.files.read? path

theorem FrontEnd.Untouched.refl (fe : FrontEnd) : fe.Untouched fe :=
  ⟨rfl, rfl, rfl, rfl, fun _ => rfl, fun _ _ => rfl⟩

namespace Site

/-- A handler is clean if it succeeds with the status of success or leaves the front end
untouched. -/
def Clean (fe : FrontEnd) : Except Rejection Response × FrontEnd → Prop
  | (.ok response, _) => response.status = 200
  | (.error _, fe') => fe.Untouched fe'

variable {s : Site} {c : Call} {fe : FrontEnd}

theorem clean_openSession (a : Accepted) (id : SessionId) : Clean fe (s.openSession c a id fe) := by
  unfold openSession
  split
  · exact .refl fe
  · dsimp only
    split
    · exact .refl fe
    · rfl

theorem clean_connected : Clean fe (s.connected c fe) := by
  unfold connected
  split
  · exact .refl fe
  · split
    · exact .refl fe
    · exact clean_openSession _ _
    · rfl

theorem clean_reportUsage (a : Accepted) (id : SessionId) (up : Bool) (seq : Option UInt64)
    (usage : Usage) : Clean fe (s.reportUsage c a id up seq usage fe) := by
  simp only [reportUsage]
  split
  · exact .refl fe
  · rfl

theorem clean_status : Clean fe (s.status c fe) := by
  unfold status
  split
  · exact .refl fe
  · split
    · exact .refl fe
    · split
      · exact .refl fe
      · split
        · rfl
        · exact clean_reportUsage _ _ _ _ _

theorem clean_greet (a : Accepted) (known : List Address.V4) : Clean fe (s.greet c a known fe) := by
  simp only [greet]
  split
  · rename_i e rotator outlet files hrotate
    obtain ⟨hrotator, hpush⟩ := Rotator.rotate_eq_error hrotate
    obtain ⟨houtlet, hfiles, hsecrets⟩ := KeyOutlet.push_eq_error hpush
    exact ⟨rfl, hrotator, rfl, houtlet, hfiles, hsecrets⟩
  · rfl

theorem clean_handshake : Clean fe (s.handshake c fe) := by
  unfold handshake
  split
  · exact .refl fe
  · split
    · exact .refl fe
    · exact clean_greet _ _

theorem clean_failed : Clean fe (s.failed c fe) := by
  unfold failed
  split
  · exact .refl fe
  · split
    · exact .refl fe
    · rfl

theorem clean_download : Clean fe (s.download c fe) := by
  unfold download
  split
  · exact .refl fe
  · split
    · exact .refl fe
    · rfl

/-- Every handler is clean. -/
theorem clean_handle (s : Site) (e : Endpoint) (c : Call) (fe : FrontEnd) :
    Clean fe (s.handle e c fe) := by
  cases e with
  | handshake => exact clean_handshake
  | connected => exact clean_connected
  | failed => exact clean_failed
  | status => exact clean_status
  | download => exact clean_download

/-- A status report whose body cannot be read changes nothing, however it is answered. -/
theorem status_unreadable (hbody : ∀ body, c.body = some body → usage? body = none) :
    (s.status c fe).2 = fe := by
  unfold status
  split
  · rfl
  · split
    · rfl
    · split
      · rfl
      · rename_i body hsome
        rw [hbody body hsome]

/-- A request whose first secret is not the one expected is not accepted. -/
theorem accept_eq_error {request : Endpoint} {p : Params}
    (h : ∀ presented, p.get? Fault.secretField = some presented →
      Hex.isNumeral presented = false ∨ presented ≠ s.secret) :
    ∃ e, s.accept request p = .error e := by
  cases haccept : s.accept request p with
  | error e => exact ⟨e, rfl⟩
  | ok a =>
      obtain ⟨presented, hpresented, hnumeral, hequal⟩ := (accept_eq_ok.1 haccept).1.secret
      rcases h presented hpresented with hother | hother
      · rw [Hex.isNumeral_iff.2 hnumeral] at hother
        cases hother
      · exact absurd (Utf8.encode_inj.1 hequal) hother

/-- A request that is not accepted is refused by every handler. -/
theorem handle_of_not_accepted (e : Endpoint) (fe : FrontEnd)
    (h : ∀ request, ∃ r, s.accept request c.params = .error r) :
    ∃ r, (s.handle e c fe).1 = .error r := by
  cases e with
  | handshake =>
      obtain ⟨r, hr⟩ := h .handshake
      simp only [handle, handshake, hr]
      exact ⟨r, rfl⟩
  | connected =>
      obtain ⟨r, hr⟩ := h .connected
      simp only [handle, connected, hr]
      exact ⟨r, rfl⟩
  | failed =>
      obtain ⟨r, hr⟩ := h .failed
      simp only [handle, failed, hr]
      exact ⟨r, rfl⟩
  | status =>
      obtain ⟨r, hr⟩ := h .status
      simp only [handle, status, hr]
      exact ⟨r, rfl⟩
  | download =>
      obtain ⟨r, hr⟩ := h .download
      simp only [handle, download, hr]
      exact ⟨r, rfl⟩

theorem ofPath?_path (e : Endpoint) : Endpoint.ofPath? e.path = some e := by
  cases e with
  | _ => decide

theorem ofPath?_eq_some {path : String} {e : Endpoint} (h : Endpoint.ofPath? path = some e) :
    path = e.path := by
  have hfound := List.find?_some h
  exact (beq_iff_eq.1 hfound).symm

/-- The answer to a request that a handler takes. -/
theorem route_of_allows {r : Request} {e : Endpoint} (hpath : r.path = e.path)
    (hmethod : e.allows r.method = true) :
    s.route r fe =
      (if r.method == "HEAD" then { reply (s.handle e (s.call r) fe).1 with body := [] }
        else reply (s.handle e (s.call r) fe).1, (s.handle e (s.call r) fe).2) := by
  simp only [route, hpath, ofPath?_path, hmethod, ↓reduceIte]

/-- A request that no handler takes is answered without a body and changes nothing. -/
theorem route_cases (s : Site) (r : Request) (fe : FrontEnd) :
    ((s.route r fe).1.body = [] ∧ (s.route r fe).2 = fe) ∨
      ∃ e : Endpoint, r.path = e.path ∧ e.allows r.method = true := by
  cases hpath : Endpoint.ofPath? r.path with
  | none =>
      left
      simp only [route, hpath]
      exact ⟨rfl, trivial⟩
  | some e =>
      cases hmethod : e.allows r.method with
      | true => exact .inr ⟨e, ofPath?_eq_some hpath, hmethod⟩
      | false =>
          left
          simp only [route, hpath, hmethod, Bool.false_eq_true, ↓reduceIte]
          exact ⟨trivial, trivial⟩

/-- A request that is answered with success gets the answer of its handler, without the body if only
the head was asked for. -/
theorem answered_of_route {r : Request} {e : Endpoint} (hpath : r.path = e.path)
    (hstatus : (s.route r fe).1.status = 200) :
    ∃ response, s.handle e (s.call r) fe = (.ok response, (s.route r fe).2) ∧
      (s.route r fe).1 = if r.method == "HEAD" then { response with body := [] } else response := by
  cases hmethod : e.allows r.method with
  | false =>
      simp only [route, hpath, ofPath?_path, hmethod, Bool.false_eq_true, ↓reduceIte] at hstatus
      cases hstatus
  | true =>
      rw [route_of_allows hpath hmethod] at hstatus ⊢
      cases hresult : (s.handle e (s.call r) fe).1 with
      | ok response => exact ⟨response, Prod.ext hresult rfl, rfl⟩
      | error rejection =>
          rw [hresult] at hstatus
          dsimp only at hstatus
          split at hstatus
          · cases hstatus
          · cases hstatus

/-- A request that is answered with success was carried out by its handler. -/
theorem handled_of_route {r : Request} {e : Endpoint} (hpath : r.path = e.path)
    (hstatus : (s.route r fe).1.status = 200) :
    ∃ response, s.handle e (s.call r) fe = (.ok response, (s.route r fe).2) := by
  obtain ⟨response, hhandled, -⟩ := answered_of_route hpath hstatus
  exact ⟨response, hhandled⟩

/-- A request that is not answered with success is answered without a body and changes nothing. -/
theorem untouched_of_failure {r : Request} (hstatus : (s.route r fe).1.status ≠ 200) :
    (s.route r fe).1.body = [] ∧ fe.Untouched (s.route r fe).2 := by
  rcases route_cases s r fe with ⟨hbody, hsame⟩ | ⟨e, hpath, hmethod⟩
  · rw [hsame]
    exact ⟨hbody, .refl fe⟩
  · have hclean := clean_handle s e (s.call r) fe
    rw [route_of_allows hpath hmethod] at hstatus ⊢
    generalize s.handle e (s.call r) fe = result at hstatus hclean
    obtain ⟨answer, fe'⟩ := result
    cases answer with
    | ok response =>
        refine absurd ?_ hstatus
        dsimp only
        split
        · exact hclean
        · exact hclean
    | error rejection =>
        refine ⟨?_, hclean⟩
        dsimp only
        split
        · rfl
        · rfl

/-- If the body of a request cannot be read, neither can the body that its handler sees. -/
theorem usage?_of_unreadable {r : Request} (hbody : r.body ≠ [])
    (hread : Usage.decode? r.body = none) {body : Bytes} (hsome : (s.call r).body = some body) :
    usage? body = none := by
  have hfull : r.body.isEmpty = false := by
    rw [Bool.eq_false_iff, Ne, List.isEmpty_iff]
    exact hbody
  simp only [call] at hsome
  split at hsome
  · cases hsome
    simp only [usage?, hfull, Bool.false_eq_true, ↓reduceIte, hread]
  · cases hsome

/-- A status report whose body cannot be read changes nothing. -/
theorem untouched_of_unreadable {r : Request} (hpath : r.path = "/status") (hbody : r.body ≠ [])
    (hread : Usage.decode? r.body = none) : fe.Untouched (s.route r fe).2 := by
  rcases route_cases s r fe with ⟨-, hsame⟩ | ⟨e, hpath', hmethod⟩
  · rw [hsame]
    exact .refl fe
  · have hstatus : e = .status := by
      have hsome := ofPath?_path e
      rw [← hpath', hpath] at hsome
      exact Option.some.inj (hsome.symm.trans (ofPath?_path .status))
    subst hstatus
    have hsame : (s.status (s.call r) fe).2 = fe :=
      status_unreadable fun _ hsome => usage?_of_unreadable hbody hread hsome
    rw [route_of_allows hpath' hmethod]
    dsimp only [handle]
    rw [hsame]
    exact .refl fe

/-- A request that does not present the secret is not found. -/
theorem route_of_wrong_secret {r : Request} {e : Endpoint} (hpath : r.path = e.path)
    (hmethod : e.allows r.method = true)
    (hsecret : ∀ presented, (Form.pairs r.query).lookup "server_secret" = some presented →
      Hex.isNumeral presented = false ∨ presented ≠ s.secret) :
    (s.route r fe).1 = { status := 404, body := [] } := by
  have hrefused : ∀ request, ∃ rejection, s.accept request (s.call r).params = .error rejection :=
    fun request => accept_eq_error hsecret
  obtain ⟨rejection, hrejection⟩ := handle_of_not_accepted e fe hrefused
  rw [route_of_allows hpath hmethod, hrejection]
  dsimp only
  split
  · rfl
  · rfl

/-- A request that is not answered with success leaves no trace, and neither does a status report
whose body cannot be read. A request that does not present the secret is not found, whatever else it
says. -/
theorem route_leaves_no_trace (s : Site) (r : Request) (fe : FrontEnd) :
    ((s.route r fe).1.status ≠ 200 →
      (s.route r fe).1.body = [] ∧ fe.Untouched (s.route r fe).2) ∧
    (r.path = "/status" → (s.route r fe).1.status = 200 → r.body ≠ [] →
      Usage.decode? r.body = none → fe.Untouched (s.route r fe).2) ∧
    ∀ e : Endpoint, r.path = e.path → e.allows r.method = true →
      (∀ presented, (Form.pairs r.query).lookup "server_secret" = some presented →
        Hex.isNumeral presented = false ∨ presented ≠ s.secret) →
      (s.route r fe).1 = { status := 404, body := [] } := by
  refine ⟨untouched_of_failure, ?_, ?_⟩
  · intro hpath _ hbody hread
    exact untouched_of_unreadable hpath hbody hread
  · intro e hpath hmethod hsecret
    exact route_of_wrong_secret hpath hmethod hsecret

end Site

end Gatehouse
