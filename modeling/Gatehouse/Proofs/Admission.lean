import Gatehouse.Dict.Lemmas
import Gatehouse.Proofs.Login
import Gatehouse.Proofs.Tracker
import Gatehouse.Settings.Basic

/-!
# Who is let in

A login comes to one of a few ends, and only the one that names a session leaves a trace: the region
of the client is noted under the session and a wake-up is armed for it. Nobody is let in without the
password whose digest is configured. A session whose id is longer than an id may be is never let in.
-/

namespace Gatehouse

theorem Blake3.length_hash (bytes : Bytes) : (Blake3.hash bytes).length = 32 := by
  have hword : ∀ x, (littleEndian x).length = 4 := fun _ => rfl
  simp only [hash, List.length_flatMap, hword, List.map_const', Vector.length_toList]
  rfl

namespace Verifier

variable {user password : String}

theorem digest?_eq_some {s : String} {bytes : Bytes} :
    digest? s = some bytes ↔ Hex.decode? s = some bytes ∧ bytes.length = 32 := by
  unfold digest?
  cases Hex.decode? s with
  | none => exact iff_of_false nofun fun h => nomatch h.1
  | some found =>
      dsimp only
      split
      · rename_i hlength
        constructor
        · rintro ⟨⟩
          exact ⟨rfl, hlength⟩
        · rintro ⟨⟨⟩, -⟩
          rfl
      · rename_i hlength
        refine iff_of_false nofun ?_
        rintro ⟨⟨⟩, h⟩
        exact hlength h

/-- A verifier holds the digests that are well formed. -/
theorem get?_ofUsers (users : Dict String) (user : String) :
    (ofUsers users).digests.get? user = (users.get? user).bind digest? := by
  have hordered : (users.toList.filterMap fun e => (digest? e.2).map (e.1, ·)).Pairwise
      (fun a b => a.1 < b.1) := by
    refine List.Pairwise.filterMap _ ?_ users.ordered
    intro a b hlt a' ha' b' hb'
    obtain ⟨_, -, rfl⟩ := Option.map_eq_some_iff.1 ha'
    obtain ⟨_, -, rfl⟩ := Option.map_eq_some_iff.1 hb'
    exact hlt
  have hnames := Dict.nodup_of_ordered hordered
  ext bytes
  rw [ofUsers, Dict.get?_ofList hnames, Option.bind_eq_some_iff]
  constructor
  · intro h
    obtain ⟨e, he, heq⟩ := List.mem_filterMap.1 (Dict.mem_of_lookup h)
    obtain ⟨digest, hdigest, hpair⟩ := Option.map_eq_some_iff.1 heq
    cases hpair
    exact ⟨e.2, Dict.get?_eq_some_iff.2 he, hdigest⟩
  · rintro ⟨text, htext, hdigest⟩
    refine Dict.lookup_of_mem hnames (List.mem_filterMap.2 ⟨(user, text), ?_, ?_⟩)
    · exact Dict.get?_eq_some_iff.1 htext
    · rw [hdigest]
      rfl

/-- The password is the one whose digest of thirty-two bytes is configured for the user. -/
def Knows (users : Dict String) (user password : String) : Prop :=
  ∃ text digest, users.get? user = some text ∧ Hex.decode? text = some digest ∧
    digest.length = 32 ∧ digest = Blake3.hash (Utf8.encode password)

theorem verify_iff {users : Dict String} :
    (ofUsers users).verify user password = true ↔ Knows users user password := by
  unfold verify Knows
  rw [get?_ofUsers]
  cases users.get? user with
  | none => exact iff_of_false nofun fun ⟨_, _, h, _⟩ => nomatch h
  | some text =>
      rw [Option.bind_some]
      cases hdigest : digest? text with
      | none =>
          refine iff_of_false nofun ?_
          rintro ⟨_, digest, ⟨⟩, hread, hlength, -⟩
          cases hdigest.symm.trans (digest?_eq_some.2 ⟨hread, hlength⟩)
      | some expected =>
          obtain ⟨hread, hlength⟩ := digest?_eq_some.1 hdigest
          constructor
          · intro h
            exact ⟨text, expected, rfl, hread, hlength, (beq_iff_eq.1 h).symm⟩
          · rintro ⟨_, digest, ⟨⟩, hread', -, rfl⟩
            cases hread.symm.trans hread'
            exact beq_self_eq_true _

/-- The digest may be configured in either letter case. -/
theorem knows_of_lowered {users : Dict String} {text : String} (htext : users.get? user = some text)
    (hdigest : lowered text = Hex.encode (Blake3.hash (Utf8.encode password))) :
    Knows users user password := by
  refine ⟨text, _, htext, ?_, Blake3.length_hash _, rfl⟩
  rw [← Hex.decode?_lowered, hdigest, Hex.decode?_encode]

end Verifier

deriving instance DecidableEq for LoginAnswer

namespace Desk

/-- The desk after a region was noted for a session. -/
def noting (d : Desk) (window : UInt64) (id : SessionId) (region : String) (now : UInt64) : Desk :=
  (d.holding id.regionKey (RegionEntry.encode ⟨region, now + window⟩)).arm id.regionKey window

end Desk

namespace Gate

/-! ## What is left at the end of a token -/

/-- What is left at the end of a token makes no difference. -/
theorem trimmed_append {tail : String} (h : ∀ c ∈ tail.toList, isTrailing c = true)
    (token : String) : trimmed (token ++ tail) = trimmed token := by
  have hall : ∀ c ∈ tail.toList.reverse, isTrailing c = true :=
    fun c hc => h c (List.mem_reverse.1 hc)
  rw [trimmed, trimmed, String.toList_append, List.reverse_append,
    List.dropWhile_append_of_pos hall]

theorem trimmed_of_not_trailing {token : String} (h : ∀ c ∈ token.toList, isTrailing c = false) :
    trimmed token = token.toList := by
  have hkeep : token.toList.reverse.dropWhile isTrailing = token.toList.reverse := by
    cases hreverse : token.toList.reverse with
    | nil => rfl
    | cons c rest =>
        have hc : c ∈ token.toList := List.mem_reverse.1 (hreverse ▸ List.mem_cons_self)
        rw [List.dropWhile_cons, h c hc, if_neg Bool.false_ne_true]
  rw [trimmed, hkeep, List.reverse_reverse]

/-! ## The ends of a login -/

variable {g : Gate} {user token region : String} {remote : Option Address} {now : UInt64} {d d' : Desk}
variable {answer : LoginAnswer} {id : SessionId}

/-- The end that a login comes to, and the desk that it leaves. -/
inductive Ends (g : Gate) (user token : String) (remote : Option Address) (now : UInt64) (d : Desk) :
    LoginAnswer → Desk → Prop
  | stranger (huser : ¬ g.userStem.toList <+: user.toList) :
      Ends g user token remote now d (.refused (.notTunnelUser user)) d
  | torn (huser : g.userStem.toList <+: user.toList) (hparts : g.parts token = .torn) :
      Ends g user token remote now d .brokenOff d
  | rejected {password : String} (huser : g.userStem.toList <+: user.toList)
      (hparts : g.parts token = .bare password)
      (hverify : g.verifier.verify user password = false) :
      Ends g user token remote now d (.refused .rejected) d
  | legacy {password : String} (huser : g.userStem.toList <+: user.toList)
      (hparts : g.parts token = .bare password)
      (hverify : g.verifier.verify user password = true) :
      Ends g user token remote now d .legacy d
  | noId {idText password : String} (huser : g.userStem.toList <+: user.toList)
      (hparts : g.parts token = .named idText password) (hid : SessionId.parse? idText = none) :
      Ends g user token remote now d (.refused .badSessionId) d
  | denied {idText password : String} {id : SessionId} (huser : g.userStem.toList <+: user.toList)
      (hparts : g.parts token = .named idText password) (hid : SessionId.parse? idText = some id)
      (hverify : g.verifier.verify user password = false) :
      Ends g user token remote now d (.refused .rejected) d
  | unnoted {idText password : String} {id : SessionId} (huser : g.userStem.toList <+: user.toList)
      (hparts : g.parts token = .named idText password) (hid : SessionId.parse? idText = some id)
      (hverify : g.verifier.verify user password = true) (hdown : .set ∈ d.store.down) :
      Ends g user token remote now d (.refused (.store ⟨d.store.reason⟩)) d
  | session {idText password : String} {id : SessionId} (huser : g.userStem.toList <+: user.toList)
      (hparts : g.parts token = .named idText password) (hid : SessionId.parse? idText = some id)
      (hverify : g.verifier.verify user password = true) (hup : .set ∉ d.store.down) :
      Ends g user token remote now d (.session id (g.regionOf remote))
        (d.noting g.window id (g.regionOf remote) now)

/-- A login comes to one of its ends. -/
theorem authenticate_ends (g : Gate) (user token : String) (remote : Option Address) (now : UInt64)
    (d : Desk) :
    Ends g user token remote now d (g.authenticate user token remote now d).1
      (g.authenticate user token remote now d).2 := by
  unfold authenticate
  cases hstem : RegionTable.starts g.userStem user with
  | false =>
      refine .stranger fun huser => ?_
      rw [RegionTable.starts_iff.2 huser] at hstem
      cases hstem
  | true =>
      have huser := RegionTable.starts_iff.1 hstem
      rw [Bool.not_true, if_neg Bool.false_ne_true]
      cases hparts : g.parts token with
      | torn => exact .torn huser hparts
      | bare password =>
          dsimp only
          cases hverify : g.verifier.verify user password with
          | false => exact .rejected huser hparts hverify
          | true => exact .legacy huser hparts hverify
      | named idText password =>
          dsimp only
          cases hid : SessionId.parse? idText with
          | none => exact .noId huser hparts hid
          | some id =>
              dsimp only
              cases hverify : g.verifier.verify user password with
              | false => exact .denied huser hparts hid hverify
              | true =>
                  by_cases hup : .set ∈ d.store.down
                  · rw [if_pos rfl, Desk.noteRegion_of_down hup]
                    exact .unnoted huser hparts hid hverify hup
                  · rw [if_pos rfl, Desk.noteRegion_of_up hup]
                    exact .session huser hparts hid hverify hup

/-- A desk was changed by nothing but a region that was noted for a session. -/
structure Notes (window : UInt64) (id : SessionId) (region : String) (now : UInt64) (d d' : Desk) :
    Prop where
  entry : ∃ e : RegionEntry, d'.look id.regionKey = some e.encode ∧ e.region = region ∧
    e.due.toNat = now.toNat + window.toNat
  others : ∀ key, key ≠ id.regionKey → d'.look key = d.look key
  armed : d'.timer.armed.get? id.regionKey = some (d.timer.clock + window.toNat * 1000)
  othersArmed : ∀ key, key ≠ id.regionKey → d'.timer.armed.get? key = d.timer.armed.get? key
  clock : d'.timer.clock = d.timer.clock
  announced : d'.timer.announced = d.timer.announced
  heard : d'.timer.heard = d.timer.heard
  events : d'.events = d.events
  down : d'.store.down = d.store.down
  reason : d'.store.reason = d.store.reason

theorem notes_noting {window : UInt64} (hroom : now.toNat + window.toNat < UInt64.size) :
    Notes window id region now d (d.noting window id region now) where
  entry := by
    refine ⟨⟨region, now + window⟩, (Desk.look_holding d _ _ _).trans (if_pos rfl), rfl, ?_⟩
    rw [UInt64.toNat_add, Nat.mod_eq_of_lt hroom]
  others key hkey := (Desk.look_holding d _ _ _).trans (if_neg hkey)
  armed := (Timer.armed_armSeconds d.timer _ _ _).trans (if_pos rfl)
  othersArmed key hkey := (Timer.armed_armSeconds d.timer _ _ _).trans (if_neg hkey)
  clock := rfl
  announced := rfl
  heard := rfl
  events := rfl
  down := rfl
  reason := rfl

/-- The user is of the tunnel, and the password in the token, behind an id of the configured length,
is the one whose digest is configured. -/
structure Presents (l : Settings.Login) (user token : String) (id : SessionId) : Prop where
  member : l.userStem.toList <+: user.toList
  credentials : ∃ idText password : String, trimmed token = idText.toList ++ password.toList ∧
    byteCount idText.toList = l.sessionBytes * 2 ∧
    byteCount password.toList = l.passwordBytes * 2 ∧
    SessionId.parse? idText = some id ∧ Verifier.Knows l.users user password

/-- The user is of the tunnel, and the token is the password whose digest is configured. -/
structure PresentsBare (l : Settings.Login) (user token : String) : Prop where
  member : l.userStem.toList <+: user.toList
  credentials : Verifier.Knows l.users user (String.ofList (trimmed token))

/-- A login without a session leaves no trace. -/
theorem Ends.no_trace (h : Ends g user token remote now d answer d')
    (hnone : ∀ id region, answer ≠ .session id region) : d' = d := by
  cases h with
  | session => exact absurd rfl (hnone _ _)
  | _ => rfl

/-- Nor does a login during an outage. -/
theorem Ends.no_trace_of_down (h : Ends g user token remote now d answer d')
    (hdown : .set ∈ d.store.down) : d' = d := by
  cases h with
  | session _ _ _ _ hup => exact absurd hdown hup
  | _ => rfl

/-- What is left at the end of a token makes no difference to a login. -/
theorem authenticate_append {tail : String} (h : ∀ c ∈ tail.toList, isTrailing c = true)
    (g : Gate) (user token : String) (remote : Option Address) (now : UInt64) (d : Desk) :
    g.authenticate user (token ++ tail) remote now d = g.authenticate user token remote now d := by
  have hparts : g.parts (token ++ tail) = g.parts token := by
    unfold parts
    rw [trimmed_append h]
  unfold authenticate
  rw [hparts]

/-- A login leaves a trace only if it is answered with a session, and then it notes the region of that
session and does nothing else. A session, or an entry without one, is only for whoever presents a
password that is configured, and what is left at the end of a token makes no difference. -/
theorem only_sessions_leave_a_trace (s : Settings) (user token : String) (remote : Option Address)
    (now : UInt64) (d : Desk)
    (hroom : now.toNat + s.sessions.regionWindow.toNat < UInt64.size) :
    let g := ofSettings s
    let login := g.authenticate user token remote now d
    ((∀ id region, login.1 ≠ .session id region) → login.2 = d) ∧
      (.set ∈ d.store.down → login.2 = d) ∧
      (∀ id region, login.1 = .session id region →
        region = g.regionOf remote ∧ Notes s.sessions.regionWindow id region now d login.2 ∧
          Presents s.login user token id) ∧
      (login.1 = .legacy → PresentsBare s.login user token) ∧
      ∀ tail : String, (∀ c ∈ tail.toList, c = '\x00' ∨ c = '\n' ∨ c = '\r') →
        g.authenticate user (token ++ tail) remote now d = login := by
  intro g login
  have hends : Ends g user token remote now d login.1 login.2 :=
    authenticate_ends g user token remote now d
  refine ⟨hends.no_trace, hends.no_trace_of_down, ?_, ?_, ?_⟩
  · generalize login = found at hends
    obtain ⟨answer, d'⟩ := found
    rintro id region rfl
    cases hends with
    | session huser hparts hid hverify hup =>
        obtain ⟨hlength, htext, hfront⟩ := parts_eq_named.1 hparts
        rw [htext, byteCount_append, hfront] at hlength
        exact ⟨rfl, notes_noting hroom,
          huser, _, _, htext, hfront, Nat.add_left_cancel hlength, hid, Verifier.verify_iff.1 hverify⟩
  · generalize login = found at hends
    obtain ⟨answer, d'⟩ := found
    rintro rfl
    cases hends with
    | legacy huser hparts hverify =>
        refine ⟨huser, ?_⟩
        rw [← (parts_eq_bare.1 hparts).2, String.ofList_toList]
        exact Verifier.verify_iff.1 hverify
  · intro tail htail
    refine authenticate_append (fun c hc => ?_) g user token remote now d
    simpa [isTrailing, or_assoc] using htail c hc

/-- A login with an id of one byte, and then with the end of a line behind the password. -/
theorem one_session_leaves_its_trace :
    let s : Settings :=
      { sessions := { databasePath := "" }
        downloads := ""
        login :=
          { users := .ofList
              [("waypost-1", "f5507c5e9c47112172758eed13f5e67e4314cb924d321e2039e0c2292682423f")]
            sessionBytes := 1
            passwordBytes := 1 } }
    let d : Desk := { store := .memory, timer := { clock := 0 } }
    let login := (ofSettings s).authenticate "waypost-1" "a10b" none 1000 d
    (1000 : UInt64).toNat + s.sessions.regionWindow.toNat < UInt64.size ∧
      (∃ id : SessionId, id.text = "a1" ∧ login.1 = .session id "None" ∧
        Notes 300 id "None" 1000 d login.2 ∧ Presents s.login "waypost-1" "a10b" id) ∧
      (ofSettings s).authenticate "waypost-1" ("a10b" ++ "\r\n") none 1000 d = login := by
  intro s d login
  have hroom : (1000 : UInt64).toNat + s.sessions.regionWindow.toNat < UInt64.size := by decide
  have hsession : login.1 = .session ⟨"a1", by decide, by decide, by decide⟩ "None" := by
    decide +kernel
  obtain ⟨-, -, htrace, -, hrest⟩ :=
    only_sessions_leave_a_trace s "waypost-1" "a10b" none 1000 d hroom
  obtain ⟨-, hnotes, hpresents⟩ := htrace _ _ hsession
  have hline : ∀ c ∈ "\r\n".toList, c = '\x00' ∨ c = '\n' ∨ c = '\r' := by
    simp
  exact ⟨hroom, ⟨_, rfl, hsession, hnotes, hpresents⟩, hrest "\r\n" hline⟩

/-! ## Logins as they are configured -/

variable {idText password : String}

theorem isTrailing_of_isDigit {c : Char} (h : Hex.isDigit c = true) : isTrailing c = false :=
  Hex.isDigit_cases (P := fun c => isTrailing c = false) (by decide) h

theorem byteCount_of_isDigit {cs : List Char} (h : ∀ c ∈ cs, Hex.isDigit c = true) :
    byteCount cs = cs.length := by
  induction cs with
  | nil => rfl
  | cons c rest ih =>
      have hone : (String.utf8EncodeChar c).length = 1 :=
        Hex.isDigit_cases (P := fun c => (String.utf8EncodeChar c).length = 1) (by decide)
          (h c List.mem_cons_self)
      rw [byteCount_cons, hone, ih fun c' hc' => h c' (List.mem_cons_of_mem _ hc'),
        List.length_cons, Nat.add_comm]

/-- A user of the tunnel with an id and a password of the configured lengths, both in hexadecimal
digits, where the digest of the password is configured in either letter case. -/
structure Proper (l : Settings.Login) (user idText password : String) : Prop where
  member : l.userStem.toList <+: user.toList
  digest : ∃ text, l.users.get? user = some text ∧
    lowered text = Hex.encode (Blake3.hash (Utf8.encode password))
  idDigits : ∀ c ∈ idText.toList, Hex.isDigit c = true
  idLength : idText.length = 2 * l.sessionBytes
  passwordDigits : ∀ c ∈ password.toList, Hex.isDigit c = true
  passwordLength : password.length = 2 * l.passwordBytes

/-- The token of such a login is cut behind the id. -/
theorem Proper.parts {s : Settings} (h : Proper s.login user idText password) :
    (ofSettings s).parts (idText ++ password) = .named idText password := by
  have hdigits : ∀ c ∈ (idText ++ password).toList, Hex.isDigit c = true := by
    intro c hc
    rw [String.toList_append, List.mem_append] at hc
    exact hc.elim (h.idDigits c) (h.passwordDigits c)
  have htrimmed : trimmed (idText ++ password) = idText.toList ++ password.toList := by
    rw [trimmed_of_not_trailing fun c hc => isTrailing_of_isDigit (hdigits c hc),
      String.toList_append]
  have hid : byteCount idText.toList = s.login.sessionBytes * 2 := by
    rw [byteCount_of_isDigit h.idDigits, String.length_toList, h.idLength, Nat.mul_comm]
  have hpassword : byteCount password.toList = s.login.passwordBytes * 2 := by
    rw [byteCount_of_isDigit h.passwordDigits, String.length_toList, h.passwordLength, Nat.mul_comm]
  refine parts_eq_named.2 ⟨?_, htrimmed, hid⟩
  rw [htrimmed, byteCount_append, hid, hpassword]
  rfl

/-- The id of such a login can be read exactly if its configured length is that of an id. -/
theorem Proper.exists_id {l : Settings.Login} (h : Proper l user idText password) :
    (∃ id, SessionId.parse? idText = some id) ↔ 1 ≤ l.sessionBytes ∧ l.sessionBytes ≤ 32 := by
  have hnumeral : Hex.isNumeral idText = true ↔ idText.length ≠ 0 := by
    rw [Hex.isNumeral, List.all_eq_true.2 h.idDigits, Bool.and_true, Bool.not_eq_true',
      List.isEmpty_eq_false_iff, ← List.length_pos_iff, String.length_toList, Nat.pos_iff_ne_zero]
  rw [SessionId.exists_parse?_iff, hnumeral, h.idLength]
  omega

/-- A login as it is configured is answered with a session of the id in lower case if the configured
length is that of an id, and is refused otherwise. The check of the settings does not look at that
length, nor at anything else that concerns logins. -/
theorem lets_in_ids_that_fit (s : Settings) (user idText password : String) (remote : Option Address)
    (now : UInt64) (d : Desk) (h : Proper s.login user idText password)
    (hup : .set ∉ d.store.down) :
    let g := ofSettings s
    let login := g.authenticate user (idText ++ password) remote now d
    (1 ≤ s.login.sessionBytes ∧ s.login.sessionBytes ≤ 32 →
        ∃ id, id.text = lowered idText ∧
          login = (.session id (g.regionOf remote),
            d.noting s.sessions.regionWindow id (g.regionOf remote) now)) ∧
      (s.login.sessionBytes = 0 ∨ 32 < s.login.sessionBytes → login = (.refused .badSessionId, d)) ∧
      ∀ l, { s with login := l }.flaw? = s.flaw? := by
  intro g login
  have hstem : RegionTable.starts g.userStem user = true := RegionTable.starts_iff.2 h.member
  have hparts : g.parts (idText ++ password) = .named idText password := h.parts
  have hverify : g.verifier.verify user password = true := by
    obtain ⟨text, htext, hdigest⟩ := h.digest
    exact Verifier.verify_iff.2 (Verifier.knows_of_lowered htext hdigest)
  refine ⟨fun hfits => ?_, fun hunfit => ?_, fun l => rfl⟩
  · obtain ⟨id, hid⟩ := h.exists_id.2 hfits
    refine ⟨id, SessionId.text_of_parse? hid, ?_⟩
    unfold login authenticate
    rw [hstem, hparts, Bool.not_true, if_neg Bool.false_ne_true]
    dsimp only
    rw [hid]
    dsimp only
    rw [hverify, if_pos rfl, Desk.noteRegion_of_up hup]
    rfl
  · have hnone : SessionId.parse? idText = none := by
      cases hid : SessionId.parse? idText with
      | none => rfl
      | some id =>
          have hfits := h.exists_id.1 ⟨id, hid⟩
          omega
    unfold login authenticate
    rw [hstem, hparts, Bool.not_true, if_neg Bool.false_ne_true]
    dsimp only
    rw [hnone]

/-- A login with an id in upper case, of one byte, and a digest in upper case. -/
theorem lets_in_upper_case :
    let s : Settings :=
      { sessions := { databasePath := "" }
        downloads := ""
        login :=
          { users := .ofList
              [("waypost-1", "F5507C5E9C47112172758EED13F5E67E4314CB924D321E2039E0C2292682423F")]
            sessionBytes := 1
            passwordBytes := 1 } }
    let d : Desk := { store := .memory, timer := { clock := 0 } }
    let login := (ofSettings s).authenticate "waypost-1" ("A1" ++ "0b") none 1000 d
    s.flaw? = none ∧ Proper s.login "waypost-1" "A1" "0b" ∧ .set ∉ d.store.down ∧
      ∃ id : SessionId, id.text = "a1" ∧ login = (.session id "None", d.noting 300 id "None" 1000) := by
  intro s d login
  have hproper : Proper s.login "waypost-1" "A1" "0b" :=
    ⟨by decide, ⟨_, rfl, by decide +kernel⟩, List.all_eq_true.1 (by decide), by decide,
      List.all_eq_true.1 (by decide), by decide⟩
  have hup : .set ∉ d.store.down := List.not_mem_nil
  obtain ⟨hfits, -, -⟩ := lets_in_ids_that_fit s "waypost-1" "A1" "0b" none 1000 d hproper hup
  exact ⟨by decide, hproper, hup, hfits (by decide)⟩

/-- Settings without a fault whose ids of thirty-three bytes are all refused. -/
theorem refuses_ids_of_thirty_three_bytes :
    let s : Settings :=
      { sessions := { databasePath := "" }
        downloads := ""
        login :=
          { users := .ofList
              [("waypost-1", "f5507c5e9c47112172758eed13f5e67e4314cb924d321e2039e0c2292682423f")]
            sessionBytes := 33
            passwordBytes := 1 } }
    let d : Desk := { store := .memory, timer := { clock := 0 } }
    let idText := String.ofList (List.replicate 66 'a')
    s.flaw? = none ∧ Proper s.login "waypost-1" idText "0b" ∧ .set ∉ d.store.down ∧
      (ofSettings s).authenticate "waypost-1" (idText ++ "0b") none 1000 d
        = (.refused .badSessionId, d) := by
  intro s d idText
  refine ⟨by decide, ⟨by decide, ⟨_, rfl, by decide +kernel⟩, List.all_eq_true.1 (by decide +kernel),
    by decide +kernel, List.all_eq_true.1 (by decide), by decide⟩, List.not_mem_nil, ?_⟩
  decide +kernel

end Gate

end Gatehouse
