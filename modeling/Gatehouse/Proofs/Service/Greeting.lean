import Gatehouse.Proofs.Peer
import Gatehouse.Proofs.Service.Acceptance
import Gatehouse.Proofs.Service.Handshakes

/-!
# The answer to a handshake is read back

A handshake is answered in lines, each with a label that says what it is. The labels, the numbers, the
entries of the peers and the key hold no breaks, so the answer comes apart into the lines that it was
made of, and a client that knows nothing but the format finds in them what it was meant to be told.
-/

namespace Gatehouse

/-- The lines of a text. -/
def lines (text : String) : List String := (text.split '\n').toList.map String.Slice.copy

theorem lines_intercalate {ls : List String} (h : ∀ l ∈ ls, '\n' ∉ l.toList) (hne : ls ≠ []) :
    lines (String.intercalate "\n" ls) = ls := by
  have hsplit := String.toList_split_intercalate h
  rw [if_neg hne] at hsplit
  exact hsplit

theorem lines_empty : lines "" = [""] := by
  have hline : ∀ l ∈ [""], '\n' ∉ l.toList := by decide
  exact lines_intercalate hline (List.cons_ne_nil _ _)

theorem unbroken_append {label text : String} (hlabel : '\n' ∉ label.toList)
    (htext : '\n' ∉ text.toList) : '\n' ∉ (label ++ text).toList := by
  rw [String.toList_append, List.mem_append]
  exact not_or_intro hlabel htext

theorem unbroken_encode (bytes : Bytes) : '\n' ∉ (Hex.encode bytes).toList := by
  intro hbreak
  have hdigit : Hex.isDigit '\n' = true := Hex.isDigit_of_mem_encode hbreak
  cases hdigit

/-- A page that a catalog has for a sponsor in a region is listed in it. -/
theorem Catalog.listed_of_mem_homePages {c : Catalog} {sponsor region url : String}
    (h : url ∈ c.homePages sponsor region) :
    ∃ regions ∈ c.pages.entries, ∃ pages ∈ regions.2.entries, url ∈ pages.2 := by
  unfold homePages at h
  split at h
  · cases h
  · rename_i regions hregions
    have hmem := Dict.mem_of_lookup hregions
    split at h
    · rename_i urls hurls
      exact ⟨_, hmem, _, Dict.mem_of_lookup hurls, h⟩
    · cases hany : regions.get? anyRegion with
      | none =>
          rw [hany] at h
          cases h
      | some urls =>
          rw [hany] at h
          exact ⟨_, hmem, _, Dict.mem_of_lookup hany, h⟩

namespace Site

/-- What a client is to read in the answer to its handshake: the home pages of its sponsor in its
region, the newer version if its channel has one, the peers, each of them once and so that it can be
read back, and the key. -/
structure Tells (s : Site) (peers : List Peer) (identity : Identity) (region key text : String) :
    Prop where
  lines : lines text =
    (s.catalog.homePages identity.sponsor region).map ("Homepage: " ++ ·) ++
      (s.catalog.upgrade? identity.channel identity.version).toList.map
        (fun v => "Upgrade: " ++ Decimal.text v.toNat) ++
      peers.map (fun p => "Server: " ++ p.encoded) ++ ["PSK: " ++ key]
  distinct : (peers.map fun p => "Server: " ++ p.encoded).Nodup
  readable : ∀ p ∈ peers, Peer.read? p.encoded = some p

variable {s : Site} {c : Call} {fe fe' : FrontEnd} {a : Accepted} {response : Response}
variable {peers : List Peer} {region key : String}

theorem greeting_eq : s.greeting peers a region =
    (s.catalog.homePages a.identity.sponsor region).map ("Homepage: " ++ ·) ++
      (s.catalog.upgrade? a.identity.channel a.identity.version).toList.map
        (fun v => "Upgrade: " ++ Decimal.text v.toNat) ++
      peers.map (fun p => "Server: " ++ p.encoded) := by
  unfold greeting
  cases s.catalog.upgrade? a.identity.channel a.identity.version with
  | _ => rfl

/-- No line of a greeting is broken, if no home page is. -/
theorem unbroken_greeting
    (hpages : ∀ url ∈ s.catalog.homePages a.identity.sponsor region, '\n' ∉ url.toList) :
    ∀ l ∈ s.greeting peers a region, '\n' ∉ l.toList := by
  intro l hl
  rw [greeting_eq, List.mem_append, List.mem_append] at hl
  rcases hl with (hpage | hupgrade) | hserver
  · obtain ⟨url, hurl, rfl⟩ := List.mem_map.1 hpage
    exact unbroken_append (by decide) (hpages url hurl)
  · obtain ⟨v, -, rfl⟩ := List.mem_map.1 hupgrade
    exact unbroken_append (by decide) (Decimal.not_mem_text (by decide) _)
  · obtain ⟨p, -, rfl⟩ := List.mem_map.1 hserver
    exact unbroken_append (by decide) (unbroken_encode _)

/-- What a reply says is what it was made of, if nothing in it is broken. -/
theorem tells_greeting
    (hpages : ∀ url ∈ s.catalog.homePages a.identity.sponsor region, '\n' ∉ url.toList)
    (hkey : '\n' ∉ key.toList) (hnodup : peers.Nodup) (hsecrets : ∀ p ∈ peers, ' ' ∉ p.secret.toList) :
    s.Tells peers a.identity region key
      (String.intercalate "\n" (s.greeting peers a region ++ ["PSK: " ++ key])) where
  lines := by
    rw [lines_intercalate, greeting_eq]
    · intro l hl
      rcases List.mem_append.1 hl with hgreeting | hlast
      · exact unbroken_greeting hpages l hgreeting
      · rw [List.mem_singleton.1 hlast]
        exact unbroken_append (by decide) hkey
    · exact List.append_ne_nil_of_right_ne_nil _ (List.cons_ne_nil _ _)
  distinct := by
    apply hnodup.map_on
    intro p hp q hq hsame
    have hentry : p.encoded = q.encoded := String.append_right_inj _ |>.1 hsame
    have hread := Peer.read?_encoded (hsecrets p hp)
    rw [hentry, Peer.read?_encoded (hsecrets q hq)] at hread
    exact (Option.some.inj hread).symm
  readable := fun p hp => Peer.read?_encoded (hsecrets p hp)

/-- An answered handshake of an accepted client says what there is for that client, and the key that
was drawn for it, which is the current one from then on. -/
theorem handshake_eq_ok (h : s.handshake c fe = (.ok response, fe')) :
    ∃ a, c.params.Carries a ∧ fe'.rotator.current.key = c.draw.key ∧
      response = handshakeReply (s.greeting fe.peers.servers a (s.clientRegion c)) c.draw.key := by
  unfold handshake at h
  split at h
  · cases h
  · rename_i a haccept
    split at h
    · cases h
    · unfold greet at h
      dsimp only at h
      split at h
      · cases h
      · rename_i k rotator outlet files hrotate
        obtain ⟨rfl, rfl, -⟩ := Rotator.rotate_eq_ok hrotate
        cases h
        exact ⟨a, (accept_eq_ok.1 haccept).2, rfl, rfl⟩

/-- The answer to a handshake that succeeds can be read back, unless only its head was asked for.
Whatever the catalog and the peers are, if no home page has a break and no secret a space, the lines
of the answer are what the client is to be told, and each entry of a server gives that server. Keys
are drawn as bytes and written in hexadecimal, so the key has no break either. -/
theorem greeting_is_read_back {entries : List Settings.PeerEntry} {r : Request} {drawn : Bytes}
    (hservers : fe.peers.servers = (PeerDirectory.ofEntries entries).servers)
    (hsecrets : ∀ e ∈ entries, ' ' ∉ e.secret.toList)
    (hpages : ∀ sponsor region, ∀ url ∈ s.catalog.homePages sponsor region, '\n' ∉ url.toList)
    (hkey : r.draw.key = Hex.encode drawn) (hpath : r.path = Endpoint.handshake.path)
    (hmethod : r.method ≠ "HEAD") (hstatus : (s.route r fe).1.status = 200) :
    ∃ a text, (⟨Form.pairs r.query⟩ : Params).Carries a ∧
      (s.route r fe).1.body = Utf8.encode text ∧
      s.Tells fe.peers.servers a.identity (s.regions.lookup r.client)
        (s.route r fe).2.rotator.current.key text := by
  obtain ⟨response, hhandled, hanswer⟩ := answered_of_route hpath hstatus
  obtain ⟨a, hcarries, hcurrent, rfl⟩ := handshake_eq_ok hhandled
  rw [beq_false_of_ne hmethod, if_neg Bool.false_ne_true] at hanswer
  refine ⟨a, _, hcarries, congrArg Response.body hanswer, ?_⟩
  rw [hcurrent]
  apply tells_greeting (hpages _ _)
  · have hdrawn : (s.call r).draw.key = Hex.encode drawn := hkey
    rw [hdrawn]
    exact unbroken_encode drawn
  · rw [hservers]
    exact (PeerDirectory.nodup_distinct [] entries).1.of_map _
  · intro p hp
    rw [hservers] at hp
    obtain ⟨e, he, hentry⟩ := PeerDirectory.exists_entry_of_mem_distinct hp
    rw [Peer.secret_of_ofEntry? hentry]
    exact hsecrets e he

/-- A service with a home page for every region and a version that is newer than that of its client. -/
def portal : Site :=
  { bare with
    catalog := Catalog.ofSettings [⟨"0b", [⟨"*", "https://home.example/"⟩]⟩] [⟨"0a", 9⟩] }

/-- A front end with two peers, one of them with a certificate of several words and lines. -/
def guide : FrontEnd :=
  { novice with
    peers := PeerDirectory.ofEntries
      [⟨"192.0.2.1", 80, "a", "b"⟩, ⟨"192.0.2.2", 443, "c", "d e\nf"⟩] }

/-- The greeting of an older client, with a page, a newer version and two servers. -/
theorem greeting_is_read_back_portal :
    let entries : List Settings.PeerEntry :=
      [⟨"192.0.2.1", 80, "a", "b"⟩, ⟨"192.0.2.2", 443, "c", "d e\nf"⟩]
    let r := (hello "GET" "01" none).request
    guide.peers.servers = (PeerDirectory.ofEntries entries).servers ∧
      (∀ e ∈ entries, ' ' ∉ e.secret.toList) ∧
      (∀ sponsor region, ∀ url ∈ portal.catalog.homePages sponsor region, '\n' ∉ url.toList) ∧
      r.draw.key = Hex.encode [1] ∧ r.path = Endpoint.handshake.path ∧ r.method ≠ "HEAD" ∧
      (portal.route r guide).1.status = 200 ∧ guide.peers.servers.length = 2 ∧
      ∃ a text, (⟨Form.pairs r.query⟩ : Params).Carries a ∧
        (portal.route r guide).1.body = Utf8.encode text ∧
        portal.Tells guide.peers.servers a.identity (portal.regions.lookup r.client)
          (portal.route r guide).2.rotator.current.key text := by
  intro entries r
  have hsecrets : ∀ e ∈ entries, ' ' ∉ e.secret.toList := by decide
  have hpages : ∀ sponsor region, ∀ url ∈ portal.catalog.homePages sponsor region,
      '\n' ∉ url.toList := by
    intro sponsor region url hurl
    have hlisted : ∀ regions ∈ portal.catalog.pages.entries, ∀ pages ∈ regions.2.entries,
        ∀ url ∈ pages.2, '\n' ∉ url.toList := by
      decide +kernel
    obtain ⟨regions, hregions, pages, hmem, hin⟩ := Catalog.listed_of_mem_homePages hurl
    exact hlisted regions hregions pages hmem url hin
  have hkey : r.draw.key = Hex.encode [1] := by decide
  have hpath : r.path = Endpoint.handshake.path := by decide
  have hmethod : r.method ≠ "HEAD" := by decide
  have hstatus : (portal.route r guide).1.status = 200 := by decide +kernel
  exact ⟨rfl, hsecrets, hpages, hkey, hpath, hmethod, hstatus, by decide +kernel,
    greeting_is_read_back rfl hsecrets hpages hkey hpath hmethod hstatus⟩

/-- A handshake of which only the head is asked for succeeds with an answer that tells nothing. -/
theorem head_tells_nothing :
    let entries : List Settings.PeerEntry := [⟨"192.0.2.1", 80, "a", "b"⟩]
    let r := (hello "HEAD" "01" none).request
    novice.peers.servers = (PeerDirectory.ofEntries entries).servers ∧
      (∀ e ∈ entries, ' ' ∉ e.secret.toList) ∧
      (∀ sponsor region, ∀ url ∈ bare.catalog.homePages sponsor region, '\n' ∉ url.toList) ∧
      r.draw.key = Hex.encode [1] ∧ r.path = Endpoint.handshake.path ∧
      (bare.route r novice).1.status = 200 ∧
      ¬ ∃ a text, (⟨Form.pairs r.query⟩ : Params).Carries a ∧
        (bare.route r novice).1.body = Utf8.encode text ∧
        bare.Tells novice.peers.servers a.identity (bare.regions.lookup r.client)
          (bare.route r novice).2.rotator.current.key text := by
  intro entries r
  have hpages : ∀ sponsor region, ∀ url ∈ bare.catalog.homePages sponsor region,
      '\n' ∉ url.toList := by
    intro sponsor region url hurl
    obtain ⟨regions, hregions, -⟩ := Catalog.listed_of_mem_homePages hurl
    exact absurd hregions List.not_mem_nil
  have hbody : (bare.route r novice).1.body = Utf8.encode "" := by decide +kernel
  refine ⟨rfl, by decide, hpages, by decide, by decide, by decide +kernel, ?_⟩
  rintro ⟨a, text, -, htext, htells⟩
  obtain rfl : text = "" := Utf8.encode_inj.1 (htext.symm.trans hbody)
  have hlast := congrArg List.getLast? htells.lines
  rw [lines_empty, List.getLast?_concat] at hlast
  have hlength := congrArg String.length (Option.some.inj hlast)
  rw [String.length_append] at hlength
  exact absurd hlength (by decide +kernel)

end Site

end Gatehouse
