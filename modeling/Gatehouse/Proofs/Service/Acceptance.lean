import Gatehouse.Proofs.Text.Utf8
import Gatehouse.Service.Answers

/-!
# What is accepted

A request is accepted for the first values of six names, and for nothing else that it carries. Other
names, another order of the names and further values of a name make no difference.
-/

namespace Gatehouse

/-- A text is one or more hexadecimal digits. -/
def Hex.Numeral (s : String) : Prop :=
  s ≠ "" ∧ ∀ c ∈ s.toList, ('0' ≤ c ∧ c ≤ '9') ∨ ('a' ≤ c ∧ c ≤ 'f') ∨ ('A' ≤ c ∧ c ≤ 'F')

theorem Hex.isNumeral_iff {s : String} : Hex.isNumeral s = true ↔ Hex.Numeral s := by
  simp only [isNumeral, Numeral, isDigit, Bool.and_eq_true, Bool.not_eq_true', List.all_eq_true,
    Bool.or_eq_true, decide_eq_true_iff, List.isEmpty_eq_false_iff, ne_eq, String.toList_eq_nil_iff,
    or_assoc]

/-- A text is one or more decimal digits. -/
def Decimal.Numeral (s : String) : Prop := s ≠ "" ∧ ∀ c ∈ s.toList, '0' ≤ c ∧ c ≤ '9'

theorem Decimal.isNumeral_iff {s : String} :
    Decimal.isNumeral s.toList = true ↔ Decimal.Numeral s := by
  simp only [isNumeral, Numeral, Char.isDigit, Bool.and_eq_true, Bool.not_eq_true',
    List.all_eq_true, decide_eq_true_iff, List.isEmpty_eq_false_iff, ne_eq, String.toList_eq_nil_iff]
  rfl

namespace Params

/-- The text that names the channel of a client, under its own name or else under the older one. -/
def channelText? (p : Params) : Option String :=
  (p.get? "propagation_channel_id").or (p.get? "client_id")

/-- What a request must present. -/
structure Acceptable (p : Params) (secret : String) : Prop where
  secret : ∃ v, p.get? "server_secret" = some v ∧ Hex.Numeral v ∧ Utf8.encode v = Utf8.encode secret
  channel : ∃ v, p.channelText? = some v ∧ Hex.Numeral v
  sponsor : ∃ v, p.get? "sponsor_id" = some v ∧ Hex.Numeral v
  version : ∃ v, p.get? "client_version" = some v ∧ Decimal.Numeral v ∧
    Decimal.value v.toList < UInt32.size
  relay : ∀ v, p.get? "relay_protocol" = some v → v = "VPN" ∨ v = "SSH" ∨ v = "OSSH"

/-- What a request says about its client. -/
structure Carries (p : Params) (a : Accepted) : Prop where
  channel : p.channelText? = some a.identity.channel
  sponsor : p.get? "sponsor_id" = some a.identity.sponsor
  version : ∃ v, p.get? "client_version" = some v ∧
    a.identity.version.toNat = Decimal.value v.toList
  /-- A request without a protocol is of a client that only speaks VPN. -/
  relay : a.relay.text = (p.get? "relay_protocol").getD "VPN"

/-- The names whose first values decide on a request. -/
def decisive : List String :=
  ["server_secret", "propagation_channel_id", "client_id", "sponsor_id", "client_version",
    "relay_protocol"]

variable {p p' : Params} {f : Field} {v : String}

/-! ## What is read -/

theorem require_eq_ok : p.require f = .ok v ↔ p.get? f.name = some v ∧ f.accepts v = true := by
  unfold require
  cases p.get? f.name with
  | none => exact iff_of_false nofun fun h => nomatch h.1
  | some v' =>
      dsimp only
      split
      · rename_i hv
        constructor
        · intro h
          cases h
          exact ⟨rfl, hv⟩
        · rintro ⟨h, -⟩
          cases h
          rfl
      · rename_i hv
        refine iff_of_false nofun ?_
        rintro ⟨h, haccepts⟩
        cases h
        exact hv haccepts

theorem checkSecret_eq_ok {secret : String} : p.checkSecret secret = .ok () ↔
    ∃ v, p.get? "server_secret" = some v ∧ Hex.Numeral v ∧ Utf8.encode v = Utf8.encode secret := by
  have hfield : p.get? Fault.secretField = p.get? "server_secret" := rfl
  unfold checkSecret
  rw [hfield]
  cases p.get? "server_secret" with
  | none => exact iff_of_false nofun fun ⟨v, h, _⟩ => nomatch h
  | some v =>
      simp only [Option.some.injEq, exists_eq_left', ← Hex.isNumeral_iff, Utf8.encode_inj]
      cases Hex.isNumeral v with
      | false => simp
      | true => simp

theorem optional_of_eq_none (h : p.get? f.name = none) : p.optional f = .ok none := by
  unfold optional
  rw [h]

theorem optional_of_eq_some (h : p.get? f.name = some v) :
    p.optional f = if f.accepts v then .ok (some v) else .error (.invalid f.name) := by
  unfold optional
  rw [h]

theorem channel_eq_ok : p.channel = .ok v ↔ p.channelText? = some v ∧ Hex.Numeral v := by
  unfold channel channelText?
  rw [← Hex.isNumeral_iff]
  cases hown : p.get? "propagation_channel_id" with
  | none =>
      rw [optional_of_eq_none hown, Option.none_or]
      dsimp only
      refine Iff.trans ?_ (require_eq_ok (f := .legacyChannel))
      cases p.require .legacyChannel with
      | ok v' => exact Iff.rfl
      | error e => exact iff_of_false nofun nofun
  | some v' =>
      have hrule : Field.channel.accepts v' = Hex.isNumeral v' := rfl
      rw [optional_of_eq_some hown, hrule, Option.some_or, Option.some.injEq]
      by_cases hv : Hex.isNumeral v' = true
      · rw [if_pos hv]
        constructor
        · intro h
          cases h
          exact ⟨rfl, hv⟩
        · rintro ⟨rfl, -⟩
          rfl
      · rw [if_neg hv]
        exact iff_of_false nofun fun ⟨heq, hnumeral⟩ => hv (heq ▸ hnumeral)

theorem requireNumber_eq_ok {bound n : Nat} : p.requireNumber f bound = .ok n ↔
    ∃ v, p.get? f.name = some v ∧ f.accepts v = true ∧ Decimal.Numeral v ∧
      Decimal.value v.toList < bound ∧ n = Decimal.value v.toList := by
  unfold requireNumber Decimal.below?
  cases hrequire : p.require f with
  | error e =>
      refine iff_of_false nofun ?_
      rintro ⟨v, hv, haccepts, -⟩
      cases hrequire.symm.trans (require_eq_ok.2 ⟨hv, haccepts⟩)
  | ok v =>
      obtain ⟨hget, haccepts⟩ := require_eq_ok.1 hrequire
      simp only [hget, Option.some.injEq, exists_eq_left', ← Decimal.isNumeral_iff, haccepts, true_and,
        Bool.and_eq_true, decide_eq_true_iff]
      by_cases hv : Decimal.isNumeral v.toList = true ∧ Decimal.value v.toList < bound
      · rw [if_pos hv]
        simp only [Except.ok.injEq, hv, true_and, eq_comm]
      · rw [if_neg hv]
        exact iff_of_false nofun fun ⟨hnumeral, hbelow, _⟩ => hv ⟨hnumeral, hbelow⟩

theorem identity_eq_ok {identity : Identity} : p.identity = .ok identity ↔
    (p.channelText? = some identity.channel ∧ Hex.Numeral identity.channel) ∧
      (p.get? "sponsor_id" = some identity.sponsor ∧ Hex.Numeral identity.sponsor) ∧
        ∃ v, p.get? "client_version" = some v ∧ Decimal.Numeral v ∧
          identity.version.toNat = Decimal.value v.toList := by
  unfold Params.identity
  constructor
  · intro h
    split at h
    · cases h
    · rename_i channel hchannel
      split at h
      · cases h
      · rename_i sponsor hsponsor
        split at h
        · cases h
        · rename_i version hversion
          cases h
          obtain ⟨hget, haccepts⟩ := require_eq_ok.1 hsponsor
          obtain ⟨v, hget', -, hnumeral, hbelow, rfl⟩ := requireNumber_eq_ok.1 hversion
          exact ⟨channel_eq_ok.1 hchannel, ⟨hget, Hex.isNumeral_iff.1 haccepts⟩,
            v, hget', hnumeral, UInt32.toNat_ofNat_of_lt hbelow⟩
  · rintro ⟨hchannel, ⟨hsponsor, hhex⟩, v, hversion, hnumeral, hvalue⟩
    have hrequired : p.require .sponsor = .ok identity.sponsor :=
      require_eq_ok.2 ⟨hsponsor, Hex.isNumeral_iff.2 hhex⟩
    have hnumber : p.requireNumber .version UInt32.size = .ok identity.version.toNat :=
      requireNumber_eq_ok.2 ⟨v, hversion, Decimal.isNumeral_iff.2 hnumeral, hnumeral,
        hvalue ▸ identity.version.toNat_lt, hvalue⟩
    rw [channel_eq_ok.2 hchannel]
    dsimp only
    rw [hrequired]
    dsimp only
    rw [hnumber]
    dsimp only
    rw [UInt32.ofNat_toNat]

theorem ofText?_eq_some {r : Relay} : Relay.ofText? v = some r ↔ v = r.text := by
  constructor
  · intro h
    unfold Relay.ofText? at h
    split at h
    · cases h
      assumption
    · split at h
      · cases h
        assumption
      · split at h
        · cases h
          assumption
        · cases h
  · rintro rfl
    cases r with
    | vpn => rfl
    | ssh => rfl
    | ossh => rfl

theorem relay_eq_ok {r : Relay} :
    p.relay = .ok r ↔ r.text = (p.get? "relay_protocol").getD "VPN" := by
  unfold Params.relay
  cases hget : p.get? "relay_protocol" with
  | none =>
      rw [optional_of_eq_none hget]
      cases r with
      | vpn => exact iff_of_true rfl rfl
      | ssh => exact iff_of_false nofun (by decide)
      | ossh => exact iff_of_false nofun (by decide)
  | some v =>
      have hrule : Field.relay.accepts v = (Relay.ofText? v).isSome := rfl
      rw [optional_of_eq_some hget, hrule, Option.getD_some, eq_comm (a := r.text),
        ← ofText?_eq_some]
      cases htext : Relay.ofText? v with
      | none => exact iff_of_false nofun nofun
      | some r' =>
          rw [Option.isSome_some, if_pos rfl]
          dsimp only
          rw [htext, Option.some.injEq, Except.ok.injEq]

/-! ## What makes no difference -/

/-- The first values of the decisive names are the same. -/
def Agree (p p' : Params) : Prop := ∀ name ∈ decisive, p.get? name = p'.get? name

theorem Agree.require (h : p.Agree p') (hf : f.name ∈ decisive) : p.require f = p'.require f := by
  unfold Params.require
  rw [h _ hf]

theorem Agree.optional (h : p.Agree p') (hf : f.name ∈ decisive) : p.optional f = p'.optional f := by
  unfold Params.optional
  rw [h _ hf]

theorem Agree.checkSecret (h : p.Agree p') (secret : String) :
    p.checkSecret secret = p'.checkSecret secret := by
  unfold Params.checkSecret
  rw [h Fault.secretField (by decide)]

theorem Agree.identity (h : p.Agree p') : p.identity = p'.identity := by
  unfold Params.identity channel requireNumber
  rw [h.optional (f := .channel) (by decide), h.require (f := .legacyChannel) (by decide),
    h.require (f := .sponsor) (by decide), h.require (f := .version) (by decide)]

theorem Agree.relay (h : p.Agree p') : p.relay = p'.relay := by
  unfold Params.relay
  rw [h.optional (f := .relay) (by decide)]

/-- The values of a name, with it. -/
def under (name : String) (pairs : List (String × String)) : List (String × String) :=
  pairs.filter fun e => e.1 == name

section Under

variable {before between after pairs : List (String × String)}
variable {name name' value value' : String}

theorem under_append (name : String) (pairs pairs' : List (String × String)) :
    under name (pairs ++ pairs') = under name pairs ++ under name pairs' := List.filter_append ..

theorem under_cons_self :
    under name ((name, value) :: pairs) = (name, value) :: under name pairs :=
  List.filter_cons_of_pos (beq_self_eq_true name)

theorem under_cons_of_ne (h : name' ≠ name) :
    under name ((name', value) :: pairs) = under name pairs :=
  List.filter_cons_of_neg fun heq => h (beq_iff_eq.1 heq)

/-- Neighbours of different names may change places. -/
theorem under_swap {other : String} (hne : name ≠ name') :
    under other (before ++ (name, value) :: (name', value') :: after) =
      under other (before ++ (name', value') :: (name, value) :: after) := by
  rw [under_append, under_append]
  by_cases hname : name = other
  · subst hname
    rw [under_cons_self, under_cons_of_ne hne.symm, under_cons_of_ne hne.symm, under_cons_self]
  · rw [under_cons_of_ne hname]
    by_cases hname' : name' = other
    · subst hname'
      rw [under_cons_self, under_cons_self, under_cons_of_ne hname]
    · rw [under_cons_of_ne hname', under_cons_of_ne hname', under_cons_of_ne hname]

theorem get?_eq_head? (p : Params) (name : String) :
    p.get? name = (under name p.pairs).head?.map (·.2) := by
  rcases p with ⟨pairs⟩
  unfold get?
  induction pairs with
  | nil => rfl
  | cons e rest ih =>
      rcases e with ⟨name', value⟩
      rw [List.lookup_cons]
      by_cases hname : name' = name
      · subst hname
        rw [beq_self_eq_true, under_cons_self]
        rfl
      · rw [beq_eq_false_iff_ne.2 (Ne.symm hname), under_cons_of_ne hname]
        exact ih

theorem agree_of_head? (h : ∀ name ∈ decisive,
    (under name p.pairs).head? = (under name p'.pairs).head?) : p.Agree p' := by
  intro name hname
  rw [get?_eq_head?, get?_eq_head?, h name hname]

/-- A name that decides nothing may stand anywhere. -/
theorem agree_stranger (hname : name ∉ decisive) :
    Agree ⟨before ++ (name, value) :: after⟩ ⟨before ++ after⟩ := by
  apply agree_of_head?
  intro name' hname'
  have hother : name ≠ name' := fun heq => hname (heq ▸ hname')
  rw [under_append, under_append, under_cons_of_ne hother]

/-- Only the first value of a name counts. -/
theorem agree_repeated :
    Agree ⟨before ++ (name, value) :: between ++ (name, value') :: after⟩
      ⟨before ++ (name, value) :: between ++ after⟩ := by
  apply agree_of_head?
  intro name' _
  by_cases hname : name = name'
  · subst hname
    simp only [under_append, under_cons_self, List.head?_append, List.head?_cons, Option.or_assoc,
      Option.some_or]
  · simp only [under_append, under_cons_of_ne hname]

end Under

end Params

namespace Site

variable {s : Site} {request : Endpoint} {p p' : Params} {a : Accepted}

theorem check_eq_ok : s.check p = .ok a ↔
    p.checkSecret s.secret = .ok () ∧ p.identity = .ok a.identity ∧ p.relay = .ok a.relay := by
  unfold check
  constructor
  · intro h
    split at h
    · cases h
    · rename_i hsecret
      split at h
      · cases h
      · rename_i identity hidentity
        split at h
        · cases h
        · rename_i relay hrelay
          cases h
          exact ⟨hsecret, hidentity, hrelay⟩
  · rintro ⟨hsecret, hidentity, hrelay⟩
    rw [hsecret, hidentity, hrelay]

theorem accept_eq_ok :
    s.accept request p = .ok a ↔ p.Acceptable s.secret ∧ p.Carries a := by
  have haccept : s.accept request p = .ok a ↔ s.check p = .ok a := by
    unfold accept
    cases s.check p with
    | error e => exact iff_of_false nofun nofun
    | ok a' =>
        constructor
        · intro h
          cases h
          rfl
        · intro h
          cases h
          rfl
  rw [haccept, check_eq_ok, Params.checkSecret_eq_ok, Params.identity_eq_ok, Params.relay_eq_ok]
  constructor
  · rintro ⟨hsecret, ⟨⟨hchannel, hhex⟩, ⟨hsponsor, hhex'⟩, v, hversion, hnumeral, hvalue⟩, hrelay⟩
    refine ⟨⟨hsecret, ⟨_, hchannel, hhex⟩, ⟨_, hsponsor, hhex'⟩, ⟨v, hversion, hnumeral, ?_⟩, ?_⟩,
      hchannel, hsponsor, ⟨v, hversion, hvalue⟩, hrelay⟩
    · exact hvalue ▸ a.identity.version.toNat_lt
    · intro protocol hprotocol
      rw [hprotocol, Option.getD_some] at hrelay
      rw [← hrelay]
      cases a.relay with
      | vpn => exact .inl rfl
      | ssh => exact .inr (.inl rfl)
      | ossh => exact .inr (.inr rfl)
  · rintro ⟨⟨hsecret, ⟨channel, hchannel, hhex⟩, ⟨sponsor, hsponsor, hhex'⟩,
      ⟨v, hversion, hnumeral, -⟩, -⟩, ⟨hchannel', hsponsor', ⟨v', hversion', hvalue⟩, hrelay⟩⟩
    cases hchannel.symm.trans hchannel'
    cases hsponsor.symm.trans hsponsor'
    cases hversion.symm.trans hversion'
    exact ⟨hsecret, ⟨⟨hchannel, hhex⟩, ⟨hsponsor, hhex'⟩, v, hversion, hnumeral, hvalue⟩, hrelay⟩

/-- Whatever is acceptable says something about its client. -/
theorem exists_carries {secret : String} (h : p.Acceptable secret) : ∃ a, p.Carries a := by
  obtain ⟨channel, hchannel, -⟩ := h.channel
  obtain ⟨sponsor, hsponsor, -⟩ := h.sponsor
  obtain ⟨v, hversion, -, hbelow⟩ := h.version
  have hprotocol : ∃ r : Relay, r.text = (p.get? "relay_protocol").getD "VPN" := by
    cases hget : p.get? "relay_protocol" with
    | none => exact ⟨.vpn, rfl⟩
    | some protocol =>
        rcases h.relay protocol hget with rfl | rfl | rfl
        · exact ⟨.vpn, rfl⟩
        · exact ⟨.ssh, rfl⟩
        · exact ⟨.ossh, rfl⟩
  obtain ⟨r, hrelay⟩ := hprotocol
  exact ⟨⟨⟨channel, sponsor, UInt32.ofNat (Decimal.value v.toList)⟩, r⟩, hchannel, hsponsor,
    ⟨v, hversion, UInt32.toNat_ofNat_of_lt hbelow⟩, hrelay⟩

theorem accept_congr (h : p.Agree p') : s.accept request p = s.accept request p' := by
  unfold accept check
  rw [h.checkSecret, h.identity, h.relay]

/-- A request is accepted exactly if it presents what it must, and with what it says about its client.
The answer does not hang on names that decide nothing, on the order of different names or on later
values of a name, and an empty secret admits nobody. -/
theorem accepts_exactly (s : Site) (request : Endpoint) (p : Params) :
    ((∃ a, s.accept request p = .ok a) ↔ p.Acceptable s.secret) ∧
      (∀ a, s.accept request p = .ok a → p.Carries a) ∧
      (∀ before name value after, name ∉ Params.decisive →
        p.pairs = before ++ (name, value) :: after →
          s.accept request p = s.accept request ⟨before ++ after⟩) ∧
      (∀ p' : Params, (∀ name, Params.under name p.pairs = Params.under name p'.pairs) →
        s.accept request p = s.accept request p') ∧
      (∀ before name value between value' after,
        p.pairs = before ++ (name, value) :: between ++ (name, value') :: after →
          s.accept request p = s.accept request ⟨before ++ (name, value) :: between ++ after⟩) ∧
      (s.secret = "" → ∀ a, s.accept request p ≠ .ok a) := by
  refine ⟨⟨?_, ?_⟩, ?_, ?_, ?_, ?_, ?_⟩
  · rintro ⟨a, ha⟩
    exact (accept_eq_ok.1 ha).1
  · intro h
    obtain ⟨a, ha⟩ := exists_carries h
    exact ⟨a, accept_eq_ok.2 ⟨h, ha⟩⟩
  · intro a ha
    exact (accept_eq_ok.1 ha).2
  · intro before name value after hname hpairs
    obtain rfl : p = ⟨before ++ (name, value) :: after⟩ := congrArg Params.mk hpairs
    exact accept_congr (Params.agree_stranger hname)
  · intro p' hunder
    exact accept_congr (Params.agree_of_head? fun name _ => congrArg List.head? (hunder name))
  · intro before name value between value' after hpairs
    obtain rfl : p = ⟨before ++ (name, value) :: between ++ (name, value') :: after⟩ :=
      congrArg Params.mk hpairs
    exact accept_congr Params.agree_repeated
  · intro hempty a ha
    obtain ⟨v, -, hnumeral, hequal⟩ := (accept_eq_ok.1 ha).1.secret
    rw [hempty, Utf8.encode_inj] at hequal
    exact hnumeral.1 hequal

/-- A client of the older kind presents the secret twice, the second time without its first digit, and
a name that nobody knows. Without a secret nobody would be accepted. -/
theorem accepts_an_older_client :
    let s : Site := { address := "192.0.2.1", secret := "feed", catalog := ⟨.empty, .empty⟩,
                      regions := ⟨[]⟩, windows := ⟨900, 300, 900⟩, downloads := "", maxBody := 0 }
    let own := [("client_id", "0a"), ("sponsor_id", "0B"), ("client_version", "007")]
    let p : Params := ⟨own ++ [("server_secret", "feed"), ("x", "y"), ("server_secret", "eed")]⟩
    let p' : Params := ⟨own ++ [("x", "y"), ("server_secret", "feed"), ("server_secret", "eed")]⟩
    let a : Accepted := ⟨⟨"0a", "0B", 7⟩, .vpn⟩
    s.accept .status p = .ok a ∧ p.Acceptable s.secret ∧ p.Carries a ∧
      "x" ∉ Params.decisive ∧ s.accept .status p =
        s.accept .status ⟨own ++ [("server_secret", "feed"), ("server_secret", "eed")]⟩ ∧
      (∀ name, Params.under name p.pairs = Params.under name p'.pairs) ∧
      s.accept .status p = s.accept .status p' ∧
      s.accept .status p = s.accept .status ⟨own ++ [("server_secret", "feed"), ("x", "y")]⟩ ∧
      ∀ a, { s with secret := "" }.accept .status p ≠ .ok a := by
  intro s own p p' a
  have haccept : s.accept .status p = .ok a := rfl
  have hstranger : "x" ∉ Params.decisive := by decide
  have hunder : ∀ name, Params.under name p.pairs = Params.under name p'.pairs :=
    fun _ => Params.under_swap (by decide)
  obtain ⟨hexact, hcarries, hothers, horder, hlater, -⟩ := accepts_exactly s .status p
  exact ⟨haccept, hexact.1 ⟨a, haccept⟩, hcarries a haccept, hstranger,
    hothers (own ++ [("server_secret", "feed")]) "x" "y" [("server_secret", "eed")] hstranger rfl,
    hunder, horder p' hunder,
    hlater own "server_secret" "feed" [("x", "y")] "eed" [] rfl,
    (accepts_exactly { s with secret := "" } .status p).2.2.2.2.2 rfl⟩

end Site

end Gatehouse
