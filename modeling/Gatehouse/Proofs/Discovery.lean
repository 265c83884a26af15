import Gatehouse.Proofs.Peer
import Mathlib.Data.List.Induction
import Mathlib.Data.List.Nodup

/-!
# The peers of a directory and their sightings

The list of peers is built with a list of the addresses seen so far. Said without it, an entry counts at
its place if its address is one and no entry before it has the same. A discovery moves one counter of
one address by one, so the counters are the numbers of the discoveries that were recorded.
-/

namespace Gatehouse

namespace PeerDirectory

variable {seen known known' : List Address.V4} {entries : List Settings.PeerEntry}
variable {e : Settings.PeerEntry} {p : Peer} {x : Address.V4}

/-! ## Which entries count -/

/-- Whether some entry has an address. -/
def isListed (entries : List Settings.PeerEntry) (x : Address.V4) : Bool :=
  entries.any fun e => Address.V4.parse? e.address == some x

/-- The peer that the entry at a place stands for: its address is one, and no entry before it has the
same. -/
def counted? (entries : List Settings.PeerEntry) (i : Nat) : Option Peer :=
  (entries[i]?.bind Peer.ofEntry?).filter fun p => !isListed (entries.take i) p.address

/-- The first entry that has an address. -/
def first? (entries : List Settings.PeerEntry) (x : Address.V4) : Option Settings.PeerEntry :=
  entries.find? fun e => Address.V4.parse? e.address == some x

theorem parse?_of_ofEntry? (h : Peer.ofEntry? e = some p) :
    Address.V4.parse? e.address = some p.address := by
  obtain ⟨x, hx, rfl⟩ := Option.map_eq_some_iff.1 h
  exact hx

theorem parse?_of_ofEntry?_none (h : Peer.ofEntry? e = none) : Address.V4.parse? e.address = none :=
  Option.map_eq_none_iff.1 h

/-- Whether an address is among those seen or is that of some entry. -/
def isTaken (seen : List Address.V4) (entries : List Settings.PeerEntry) (x : Address.V4) : Bool :=
  seen.contains x || isListed entries x

theorem isTaken_cons_of_none (h : Address.V4.parse? e.address = none) :
    isTaken seen (e :: entries) = isTaken seen entries := by
  ext x
  simp [isTaken, isListed, h]

/-- The address of the first entry may as well be among those seen. -/
theorem isTaken_cons (h : Address.V4.parse? e.address = some x) :
    isTaken seen (e :: entries) = isTaken (x :: seen) entries := by
  ext y
  by_cases hy : y = x
  · simp [isTaken, isListed, h, hy]
  · have hother : (x == y) = false := beq_false_of_ne (Ne.symm hy)
    simp [isTaken, isListed, h, hy, hother]

theorem isTaken_cons_of_mem (hx : x ∈ seen) : isTaken (x :: seen) entries = isTaken seen entries := by
  ext y
  by_cases hy : y = x
  · simp [isTaken, hy, hx]
  · simp [isTaken, hy]

/-- An entry that comes last adds its peer if the address is not taken. -/
theorem distinct_concat (seen : List Address.V4) (entries : List Settings.PeerEntry)
    (e : Settings.PeerEntry) : distinct seen (entries ++ [e]) = distinct seen entries ++
      ((Peer.ofEntry? e).filter fun p => !isTaken seen entries p.address).toList := by
  induction entries generalizing seen with
  | nil =>
      simp only [List.nil_append, distinct]
      cases Peer.ofEntry? e with
      | none => rfl
      | some p =>
          by_cases hseen : p.address ∈ seen
          · simp [isTaken, isListed, hseen, Option.filter]
          · simp [isTaken, isListed, hseen, Option.filter]
  | cons first rest ih =>
      rw [List.cons_append, distinct, distinct]
      cases hfirst : Peer.ofEntry? first with
      | none => simp only [ih, isTaken_cons_of_none (parse?_of_ofEntry?_none hfirst)]
      | some q =>
          have hq := parse?_of_ofEntry? hfirst
          by_cases hseen : q.address ∈ seen
          · simp only [hseen, ↓reduceIte, ih, isTaken_cons hq, isTaken_cons_of_mem hseen]
          · simp only [hseen, ↓reduceIte, ih, isTaken_cons hq, List.cons_append]

/-- The peers are those of the entries that count, in their order. -/
theorem servers_eq (entries : List Settings.PeerEntry) :
    (ofEntries entries).servers = (List.range entries.length).filterMap (counted? entries) := by
  unfold ofEntries
  dsimp only
  induction entries using List.reverseRecOn with
  | nil => rfl
  | append_singleton entries e ih =>
      have hearlier : (List.range entries.length).filterMap (counted? (entries ++ [e])) =
          (List.range entries.length).filterMap (counted? entries) := by
        apply List.filterMap_congr
        intro i hi
        have hlt : i < entries.length := List.mem_range.1 hi
        rw [counted?, counted?, List.getElem?_append_left hlt,
          List.take_append_of_le_length (Nat.le_of_lt hlt)]
      have hlast : counted? (entries ++ [e]) entries.length =
          (Peer.ofEntry? e).filter fun p => !isListed entries p.address := by
        rw [counted?, List.getElem?_concat_length, List.take_left]
        rfl
      rw [distinct_concat, ih, List.length_append, List.length_singleton, List.range_succ,
        List.filterMap_append, hearlier]
      congr 1
      simp only [isTaken, List.contains_nil, Bool.false_or, ← hlast]
      cases h : counted? (entries ++ [e]) entries.length with
      | none => simp [h]
      | some p => simp [h]

/-- An address that was seen has no peer, and any other one has that of the first entry with it. -/
theorem filter_distinct (hx : x ∉ seen) : (distinct seen entries).filter (·.address == x) =
    ((first? entries x).map fun e => ⟨x, e.port, e.secret, e.certificate⟩).toList := by
  induction entries generalizing seen with
  | nil => rfl
  | cons e rest ih =>
      unfold distinct first?
      cases hentry : Peer.ofEntry? e with
      | none =>
          have hnone := parse?_of_ofEntry?_none hentry
          rw [List.find?_cons_of_neg (by simp [hnone])]
          exact ih hx
      | some p =>
          have hp := parse?_of_ofEntry? hentry
          by_cases hpx : p.address = x
          · subst hpx
            -- what comes later has another address, since this one has been seen then
            have hlater : (distinct (p.address :: seen) rest).filter (·.address == p.address) = [] := by
              rw [List.filter_eq_nil_iff]
              intro q hq hsame
              apply (nodup_distinct (p.address :: seen) rest).2 q hq
              rw [eq_of_beq hsame]
              exact List.mem_cons_self
            have hfields : p = ⟨p.address, e.port, e.secret, e.certificate⟩ := by
              obtain ⟨y, -, rfl⟩ := Option.map_eq_some_iff.1 hentry
              rfl
            rw [List.find?_cons_of_pos (by simp [hp])]
            simp only [hx, ↓reduceIte, List.filter_cons, BEq.rfl, hlater, Option.map_some,
              Option.toList_some, ← hfields]
          · rw [List.find?_cons_of_neg (by simp [hp, hpx])]
            dsimp only
            split
            · exact ih hx
            · rename_i hunseen
              rw [List.filter_cons_of_neg (by simp [hpx])]
              apply ih
              simp only [List.mem_cons, not_or]
              exact ⟨Ne.symm hpx, hx⟩

/-! ## Discoveries -/

/-- A discovery is news exactly of a peer that the client does not know, and the peers come in order. -/
theorem discover_eq (d : PeerDirectory) (known : List Address.V4) :
    (d.discover known).map Discovery.address = d.servers.map Peer.address ∧
      ∀ found ∈ d.discover known, found.isNew = true ↔ found.address ∉ known := by
  constructor
  · simp [discover, Function.comp_def]
  · intro found hfound
    obtain ⟨p, -, rfl⟩ := List.mem_map.1 hfound
    simp

/-- Only what a client knows of the peers makes a difference. -/
theorem discover_congr {d : PeerDirectory}
    (h : ∀ x ∈ d.servers.map Peer.address, x ∈ known ↔ x ∈ known') :
    d.discover known = d.discover known' := by
  apply List.map_congr_left
  intro p hp
  have hsame : known.contains p.address = known'.contains p.address := by
    rw [Bool.eq_iff_iff, List.contains_iff_mem, List.contains_iff_mem]
    exact h _ (List.mem_map_of_mem hp)
  rw [hsame]

theorem nodup_discover {d : PeerDirectory} (h : (d.servers.map Peer.address).Nodup)
    (known : List Address.V4) : (d.discover known).Nodup := by
  apply List.Nodup.of_map Discovery.address
  rw [(discover_eq d known).1]
  exact h

/-! ## Sightings -/

@[simp] theorem discover_record (d : PeerDirectory) (found : List Discovery) :
    (d.record found).discover = d.discover := rfl

/-- The discoveries of a peer are counted one by one. -/
theorem sightings_record (d : PeerDirectory) (found : List Discovery) (x : Address.V4) :
    (d.record found).sightings x =
      ⟨(d.sightings x).new + UInt64.ofNat (found.count ⟨x, true⟩),
        (d.sightings x).known + UInt64.ofNat (found.count ⟨x, false⟩)⟩ := by
  induction found generalizing d with
  | nil => simp [record]
  | cons first rest ih =>
      refine (ih { d with sightings := fun x =>
        if x = first.address then count (d.sightings x) first.isNew else d.sightings x }).trans ?_
      obtain ⟨address, isNew⟩ := first
      by_cases hx : x = address
      · subst hx
        cases isNew with
        | true => simp [count, UInt64.ofNat_add, UInt64.add_assoc, UInt64.add_comm 1]
        | false => simp [count, UInt64.ofNat_add, UInt64.add_assoc, UInt64.add_comm 1]
      · simp [hx, Ne.symm hx]

/-- A client is told of the peers, and what it is told is counted. -/
def tell (d : PeerDirectory) (known : List Address.V4) : PeerDirectory := d.record (d.discover known)

/-- Clients are told of the peers one after the other, each of them knowing some addresses. -/
def tellAll (d : PeerDirectory) (clients : List (List Address.V4)) : PeerDirectory :=
  clients.foldl tell d

/-- The sightings of an address after some clients are those from before and the discoveries of it. -/
theorem sightings_tellAll (d : PeerDirectory) (clients : List (List Address.V4)) (x : Address.V4) :
    (d.tellAll clients).sightings x =
      ⟨(d.sightings x).new + UInt64.ofNat ((clients.flatMap d.discover).count ⟨x, true⟩),
        (d.sightings x).known + UInt64.ofNat ((clients.flatMap d.discover).count ⟨x, false⟩)⟩ := by
  induction clients generalizing d with
  | nil => simp [tellAll]
  | cons known rest ih =>
      refine (ih (d.tell known)).trans ?_
      simp [tell, sightings_record, UInt64.ofNat_add, UInt64.add_assoc]

/-- Each client is told of a discovery once at most. -/
theorem count_flatMap_discover_le {d : PeerDirectory} (h : (d.servers.map Peer.address).Nodup)
    (clients : List (List Address.V4)) (found : Discovery) :
    (clients.flatMap d.discover).count found ≤ clients.length := by
  induction clients with
  | nil => simp
  | cons known rest ih =>
      have honce := List.nodup_iff_count_le_one.1 (nodup_discover h known) found
      rw [List.flatMap_cons, List.count_append, List.length_cons]
      omega

/-- Whatever entries are configured, the peers are those of the entries whose address is one and was not
given before, in their order: no address comes twice, and each one that is given has the fields of the
first entry with it. Whatever a client knows, it discovers each peer once, as news exactly if it does
not know the address; order, repetitions and other addresses in what it knows make no difference. After
any clients the counters of an address, which are words, are the numbers of the discoveries of it that
were and were not news, and those of an address without a peer are zero. -/
theorem peers_are_listed_and_counted (entries : List Settings.PeerEntry) :
    let d := ofEntries entries
    d.servers = (List.range entries.length).filterMap (counted? entries) ∧
    (d.servers.map Peer.address).Nodup ∧
    (∀ x, d.servers.filter (·.address == x) =
      ((first? entries x).map fun e => ⟨x, e.port, e.secret, e.certificate⟩).toList) ∧
    (∀ known, (d.discover known).map Discovery.address = d.servers.map Peer.address ∧
      ∀ found ∈ d.discover known, found.isNew = true ↔ found.address ∉ known) ∧
    (∀ known known', (∀ x ∈ d.servers.map Peer.address, x ∈ known ↔ x ∈ known') →
      d.discover known = d.discover known') ∧
    ∀ clients x, let told := clients.flatMap d.discover
      let s := (d.tellAll clients).sightings x
      s = ⟨UInt64.ofNat (told.count ⟨x, true⟩), UInt64.ofNat (told.count ⟨x, false⟩)⟩ ∧
      (clients.length < UInt64.size →
        s.new.toNat = told.count ⟨x, true⟩ ∧ s.known.toNat = told.count ⟨x, false⟩) ∧
      (x ∉ d.servers.map Peer.address → s = ⟨0, 0⟩) := by
  intro d
  have hnodup : (d.servers.map Peer.address).Nodup := (nodup_distinct [] entries).1
  refine ⟨servers_eq entries, hnodup, fun x => filter_distinct List.not_mem_nil, discover_eq d,
    fun _ _ => discover_congr, ?_⟩
  intro clients x told s
  have hs : s = ⟨UInt64.ofNat (told.count ⟨x, true⟩), UInt64.ofNat (told.count ⟨x, false⟩)⟩ := by
    refine (sightings_tellAll d clients x).trans ?_
    simp [d, told, ofEntries]
  refine ⟨hs, ?_, ?_⟩
  · intro hroom
    have htoNat : ∀ found, (UInt64.ofNat (told.count found)).toNat = told.count found := by
      intro found
      apply UInt64.toNat_ofNat_of_lt'
      exact Nat.lt_of_le_of_lt (count_flatMap_discover_le hnodup clients found) hroom
    rw [hs]
    exact ⟨htoNat _, htoNat _⟩
  · intro hx
    have hnone : ∀ isNew, told.count ⟨x, isNew⟩ = 0 := by
      intro isNew
      rw [List.count_eq_zero]
      intro hmem
      obtain ⟨known, -, hfound⟩ := List.mem_flatMap.1 hmem
      apply hx
      rw [← (discover_eq d known).1]
      exact List.mem_map_of_mem hfound
    rw [hs, hnone, hnone]
    rfl

/-- An entry without an address and two entries with one address, and three clients. -/
example :
    let d := ofEntries [⟨"192.0.2.1", 80, "a", "b"⟩, ⟨"peer", 81, "c", "d"⟩, ⟨"192.0.2.1", 82, "e", "f"⟩]
    d.servers = [⟨⟨192, 0, 2, 1⟩, 80, "a", "b"⟩] ∧
      (d.tellAll [[], [⟨192, 0, 2, 1⟩], [⟨192, 0, 2, 2⟩]]).sightings ⟨192, 0, 2, 1⟩ = ⟨2, 1⟩ := by
  decide +kernel

end PeerDirectory

end Gatehouse
