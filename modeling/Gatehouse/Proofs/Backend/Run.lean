import Gatehouse.Proofs.Apart.Timer
import Gatehouse.Proofs.Backend.Store
import Gatehouse.Proofs.Beside.Run

/-!
# Runs on either kind of table

What front ends do to alike tables is the same in every respect. The one place where a table's order
of keys could show is a recovery or a purge, which go through the listed keys one by one; neither
depends on the order.
-/

namespace Gatehouse

/-- Arming some keys, each after its own wait, does not depend on the order. -/
theorem Timer.armEach_perm {keys keys' : List String} (h : keys.Perm keys') (t : Timer)
    (wait : String → UInt64) : t.armEach wait keys = t.armEach wait keys' := by
  apply Timer.ext_armed
  · rw [clock_armEach, clock_armEach]
  · intro key
    rw [armed_armEach, armed_armEach]
    simp only [h.mem_iff]
  · rw [announced_armEach, announced_armEach]
  · rw [heard_armEach, heard_armEach]

theorem Timer.disarm_comm (t : Timer) (key key' : String) :
    (t.disarm key).disarm key' = (t.disarm key').disarm key := by
  refine Timer.ext_armed rfl (fun other => ?_) rfl rfl
  simp only [armed_disarm]
  split
  · rw [ite_self]
  · rfl

theorem Table.remove_comm (t : Table) (key key' : String) :
    (t.remove key).remove key' = (t.remove key').remove key := by
  cases t with
  | memory values =>
      refine congrArg Table.memory (Dict.ext_get? fun other => ?_)
      simp only [Dict.get?_erase]
      split
      · rw [ite_self]
      · rfl
  | database rows =>
      refine congrArg Table.database ?_
      unfold Rows.delete
      rw [List.filter_filter, List.filter_filter]
      simp only [Bool.and_comm]

namespace Desk

/-- The desk without some keys and without wake-ups for them. -/
def dropping (keys : List String) (d : Desk) : Desk :=
  keys.foldl (fun d key => (d.without key).disarm key) d

variable {d d' : Desk} {now : UInt64} {keys keys' : List String}

theorem dropping_perm (h : keys.Perm keys') (d : Desk) : d.dropping keys = d.dropping keys' := by
  apply h.foldl_eq'
  intro key _ key' _ d
  have htable := d.store.table.remove_comm key key'
  have htimer := d.timer.disarm_comm key key'
  unfold without disarm
  dsimp only
  rw [htable, htimer]

/-- Whether a key holds a value that is stale as a region entry. -/
def holdsStale (now : UInt64) (d : Desk) (key : String) : Bool := (d.look key).any (isStale now)

/-- A purge of some keys drops the stale ones and counts them. -/
theorem purgeKeys_of_up (hup : .removeIf ∉ d.store.down) (hkeys : keys.Nodup) :
    purgeKeys now keys d = .ok ((keys.filter (d.holdsStale now)).length,
      d.dropping (keys.filter (d.holdsStale now))) := by
  induction keys generalizing d with
  | nil => rfl
  | cons key rest ih =>
      obtain ⟨hkey, hrest⟩ := List.nodup_cons.1 hkeys
      obtain ⟨found, store, hremove⟩ : ∃ found store,
          d.store.removeIf key (isStale now) = .ok (found, store) := by
        cases hremove : d.store.removeIf key (isStale now) with
        | ok result => exact ⟨_, _, rfl⟩
        | error e => exact absurd (Store.removeIf_eq_error hremove) hup
      obtain ⟨hfound, ⟨hstale, hstore⟩ | ⟨hstale, hstore⟩⟩ := removeIf_cases hremove
      · have hholds : d.holdsStale now key = true := by rw [holdsStale, ← hfound, hstale]
        -- the other keys hold what they held
        have hothers : rest.filter (((d.without key).disarm key).holdsStale now) =
            rest.filter (d.holdsStale now) := by
          apply List.filter_congr
          intro key' hmem
          have hne : key' ≠ key := fun heq => hkey (heq ▸ hmem)
          exact congrArg (Option.any (isStale now)) ((look_without d key key').trans (if_neg hne))
        have hdrop := ih (d := (d.without key).disarm key) hup hrest
        rw [hothers] at hdrop
        rw [List.filter_cons_of_pos hholds]
        simp only [purgeKeys, hremove, hstale, ↓reduceIte, hstore, hdrop]
        rfl
      · have hholds : ¬ d.holdsStale now key = true := by
          rw [holdsStale, ← hfound, hstale]
          exact Bool.false_ne_true
        rw [List.filter_cons_of_neg hholds]
        simp only [purgeKeys, hremove, hstale, Bool.false_eq_true, ↓reduceIte, hstore, ih hup hrest]

/-- A purge fails at its first key if the store removes nothing. -/
theorem purgeKeys_of_down (hdown : .removeIf ∈ d.store.down) (key : String) (rest : List String) :
    purgeKeys now (key :: rest) d = .error ⟨d.store.reason⟩ := by
  rw [purgeKeys, Store.removeIf_of_down hdown]

/-- A recovery fails at its first key if the store answers no look-up. -/
theorem armStored_of_down (hdown : .get ∈ d.store.down) (left : Option Bytes → UInt64)
    (key : String) (rest : List String) :
    d.armStored left (key :: rest) = .error ⟨d.store.reason⟩ := by
  have hget : d.store.get key = .error ⟨d.store.reason⟩ := Store.answer_of_down hdown _
  rw [armStored, hget]

end Desk

/-- Tables of either kind that are alike, whatever events were emitted. -/
def Backed (t t' : Table) (_ : List Event) : Prop := t.Alike t'

namespace Desk.Beside

variable {d d' : Desk} {key : String} {now : UInt64} {keys keys' : List String}

/-- A desk on another store with an alike table. -/
theorem stored {store store' : Store} (h : d.Beside Backed d') (hstore : Store.Alike store store') :
    ({ d with store := store } : Desk).Beside Backed { d' with store := store' } := by
  obtain ⟨t, rfl, -⟩ := h
  obtain ⟨u, rfl, halike⟩ := hstore
  exact ⟨u, rfl, halike⟩

theorem update (h : d.Beside Backed d') (key : String) (next : Option Bytes → Option Bytes) :
    Matches (Abreast Store.Alike) (d.store.update key next) (d'.store.update key next) := by
  obtain ⟨t, rfl, halike⟩ := h
  exact Store.update_matches halike key next

theorem removeIf (h : d.Beside Backed d') (key : String) (test : Bytes → Bool) :
    Matches (Abreast Store.Alike) (d.store.removeIf key test) (d'.store.removeIf key test) := by
  obtain ⟨t, rfl, halike⟩ := h
  exact Store.removeIf_matches halike key test

theorem arm (h : d.Beside Backed d') (key : String) (seconds : UInt64) :
    (d.arm key seconds).Beside Backed (d'.arm key seconds) := by
  obtain ⟨t, rfl, halike⟩ := h
  exact ⟨t, rfl, halike⟩

theorem finish (h : d.Beside Backed d') (bytes : Bytes) :
    Abreast (Desk.Beside Backed) (d.finish bytes) (d'.finish bytes) := by
  unfold Desk.finish
  obtain ⟨t, rfl, halike⟩ := h
  cases Fragment.decode? bytes with
  | none => exact ⟨rfl, t, rfl, halike⟩
  | some f => exact ⟨rfl, t, rfl, halike⟩

theorem connect (h : d.Beside Backed d') (w : Windows) (id : SessionId) (tag : String)
    (fields : Dict String) (now : UInt64) :
    Matches (Abreast (Desk.Beside Backed)) (d.connect w id tag fields now)
      (d'.connect w id tag fields now) := by
  unfold Desk.connect
  dsimp only
  obtain ⟨e, hx, hy⟩ | ⟨⟨_, store⟩, ⟨found, store'⟩, hx, hy, rfl, hstore⟩ := h.update id.fragmentKey
    fun _ => some ((Fragment.opened id.text tag fields now).extend now w.fragment).encode
  · rw [hx, hy]
    exact .inl ⟨e, rfl, rfl⟩
  · rw [hx, hy]
    have hopened := (h.stored hstore).arm id.fragmentKey w.fragment
    cases found with
    | none => exact .inr ⟨_, _, rfl, rfl, rfl, hopened⟩
    | some bytes => exact .inr ⟨_, _, rfl, rfl, hopened.finish bytes⟩

theorem report (h : d.Beside Backed d') (id : SessionId) (tag : String) (r : Report) :
    Matches (Abreast (Desk.Beside Backed)) (d.report id tag r) (d'.report id tag r) := by
  unfold Desk.report
  obtain ⟨e, hx, hy⟩ | ⟨⟨_, store⟩, ⟨found, store'⟩, hx, hy, rfl, hstore⟩ := h.update id.fragmentKey
    fun found => (r.fold id tag found).2.map Fragment.encode
  · rw [hx, hy]
    exact .inl ⟨e, rfl, rfl⟩
  · rw [hx, hy]
    dsimp only
    have hdone := h.stored hstore
    cases (r.fold id tag found).1 with
    | applied => exact .inr ⟨_, _, rfl, rfl, rfl, hdone.arm id.fragmentKey r.window⟩
    | openedPartial => exact .inr ⟨_, _, rfl, rfl, rfl, hdone.arm id.fragmentKey r.window⟩
    | duplicate => exact .inr ⟨_, _, rfl, rfl, rfl, hdone⟩

theorem flushIfDue (h : d.Beside Backed d') (key : String) (now : UInt64) :
    Matches (Abreast (Desk.Beside Backed)) (d.flushIfDue key now) (d'.flushIfDue key now) := by
  unfold Desk.flushIfDue
  obtain ⟨e, hx, hy⟩ | ⟨⟨_, store⟩, ⟨found, store'⟩, hx, hy, rfl, hstore⟩ :=
    h.removeIf key (isFinal now)
  · rw [hx, hy]
    exact .inl ⟨e, rfl, rfl⟩
  · rw [hx, hy]
    have hdone := h.stored hstore
    cases found with
    | none => exact .inr ⟨_, _, rfl, rfl, rfl, hdone⟩
    | some bytes =>
        dsimp only
        cases Fragment.decode? bytes with
        | none => exact .inr ⟨_, _, rfl, rfl, rfl, hdone⟩
        | some f =>
            dsimp only
            split
            · exact .inr ⟨_, _, rfl, rfl, hdone.finish bytes⟩
            · exact .inr ⟨_, _, rfl, rfl, rfl, hdone.arm key (f.due - now)⟩

theorem dropIfStale (h : d.Beside Backed d') (key : String) (now : UInt64) :
    Matches (Desk.Beside Backed) (d.dropIfStale key now) (d'.dropIfStale key now) := by
  unfold Desk.dropIfStale
  obtain ⟨e, hx, hy⟩ | ⟨⟨_, store⟩, ⟨found, store'⟩, hx, hy, rfl, hstore⟩ :=
    h.removeIf key (isStale now)
  · rw [hx, hy]
    exact .inl ⟨e, rfl, rfl⟩
  · rw [hx, hy]
    dsimp only
    have hdone := h.stored hstore
    cases found.bind fun b => RegionEntry.left? b now with
    | none => exact .inr ⟨_, _, rfl, rfl, hdone⟩
    | some left => exact .inr ⟨_, _, rfl, rfl, hdone.arm key left⟩

theorem handleExpiry (h : d.Beside Backed d') (key : String) (now : UInt64) :
    Matches (Abreast (Desk.Beside Backed)) (d.handleExpiry key now) (d'.handleExpiry key now) := by
  unfold Desk.handleExpiry
  split
  · exact h.flushIfDue key now
  · split
    · obtain ⟨e, hx, hy⟩ | ⟨a, b, hx, hy, hdone⟩ := h.dropIfStale key now
      · rw [hx, hy]
        exact .inl ⟨e, rfl, rfl⟩
      · rw [hx, hy]
        exact .inr ⟨_, _, rfl, rfl, rfl, hdone⟩
    · exact .inr ⟨_, _, rfl, rfl, rfl, h⟩

/-- Wake-ups are armed for stored keys in either order. -/
theorem armStored (h : d.Beside Backed d') (left : Option Bytes → UInt64)
    (hkeys : keys.Perm keys') :
    Matches (Desk.Beside Backed) (d.armStored left keys) (d'.armStored left keys') := by
  obtain ⟨t, rfl, halike⟩ := h
  by_cases hget : .get ∈ d.store.down
  · cases keys with
    | nil =>
        rw [← hkeys.nil_eq]
        exact .inr ⟨d, d.on t, rfl, rfl, t, rfl, halike⟩
    | cons key rest =>
        cases keys' with
        | nil => exact absurd hkeys.eq_nil (List.cons_ne_nil key rest)
        | cons key' rest' =>
            exact .inl ⟨_, armStored_of_down hget left key rest,
              armStored_of_down (d := d.on t) hget left key' rest'⟩
  · refine .inr ⟨_, _, armStored_of_up hget left keys, armStored_of_up (d := d.on t) hget left keys',
      t, ?_, halike⟩
    have hlook : (fun key => left ((d.on t).look key)) = fun key => left (d.look key) :=
      funext fun key => congrArg left (halike.look key)
    rw [hlook, ← Timer.armEach_perm hkeys]
    rfl

theorem recover (h : d.Beside Backed d') (now : UInt64) :
    Matches (Abreast (Desk.Beside Backed)) (d.recover now) (d'.recover now) := by
  have hlist (stem : String) (hstem : ∀ c ∈ stem.toList, (c != '\x00') = true) :
      Matches List.Perm (d.store.keys stem) (d'.store.keys stem) := by
    obtain ⟨t, rfl, halike⟩ := h
    exact Store.answer_matches d.store t .keys (halike.keys hstem)
  unfold Desk.recover
  obtain ⟨e, hx, hy⟩ | ⟨fragments, fragments', hx, hy, hfragments⟩ :=
    hlist SessionId.fragmentStem (by simp [SessionId.fragmentStem])
  · rw [hx, hy]
    exact .inl ⟨e, rfl, rfl⟩
  obtain ⟨e, hx', hy'⟩ | ⟨regions, regions', hx', hy', hregions⟩ :=
    hlist SessionId.regionStem (by simp [SessionId.regionStem])
  · rw [hx, hy, hx', hy']
    exact .inl ⟨e, rfl, rfl⟩
  rw [hx, hy, hx', hy']
  dsimp only
  obtain ⟨e, hx, hy⟩ | ⟨_, _, hx, hy, harmed⟩ := h.armStored (fragmentLeft now) hfragments
  · rw [hx, hy]
    exact .inl ⟨e, rfl, rfl⟩
  rw [hx, hy]
  dsimp only
  obtain ⟨e, hx, hy⟩ | ⟨_, _, hx, hy, harmed⟩ := harmed.armStored (regionLeft now) hregions
  · rw [hx, hy]
    exact .inl ⟨e, rfl, rfl⟩
  rw [hx, hy, hfragments.length_eq, hregions.length_eq]
  exact .inr ⟨_, _, rfl, rfl, rfl, harmed⟩

theorem dropping (h : d.Beside Backed d') (keys : List String) :
    (d.dropping keys).Beside Backed (d'.dropping keys) := by
  induction keys generalizing d d' with
  | nil => exact h
  | cons key rest ih =>
      apply ih
      obtain ⟨t, rfl, halike⟩ := h
      exact ⟨t.remove key, rfl, halike.remove key⟩

/-- Keys are purged in either order, if each is listed once. -/
theorem purgeKeys (h : d.Beside Backed d') (hkeys : keys.Perm keys') (hnodup : keys.Nodup) :
    Matches (Abreast (Desk.Beside Backed)) (Desk.purgeKeys now keys d)
      (Desk.purgeKeys now keys' d') := by
  have hdropping := h.dropping
  obtain ⟨t, rfl, halike⟩ := h
  by_cases hremove : .removeIf ∈ d.store.down
  · cases keys with
    | nil =>
        rw [← hkeys.nil_eq]
        exact .inr ⟨(0, d), (0, d.on t), rfl, rfl, rfl, t, rfl, halike⟩
    | cons key rest =>
        cases keys' with
        | nil => exact absurd hkeys.eq_nil (List.cons_ne_nil key rest)
        | cons key' rest' =>
            exact .inl ⟨_, purgeKeys_of_down hremove key rest,
              purgeKeys_of_down (d := d.on t) hremove key' rest'⟩
  · have hholds : (d.on t).holdsStale now = d.holdsStale now :=
      funext fun key => congrArg (Option.any (isStale now)) (halike.look key)
    have hstale := hkeys.filter (d.holdsStale now)
    have hpurge : Desk.purgeKeys now keys' (d.on t) = _ :=
      purgeKeys_of_up hremove (hkeys.nodup_iff.1 hnodup)
    rw [hholds, ← hstale.length_eq, ← dropping_perm hstale] at hpurge
    exact .inr ⟨_, _, purgeKeys_of_up hremove hnodup, hpurge, rfl, hdropping _⟩

theorem purgeRegions (h : d.Beside Backed d') (now : UInt64) :
    Matches (Abreast (Desk.Beside Backed)) (d.purgeRegions now) (d'.purgeRegions now) := by
  have hbeside := h
  obtain ⟨t, rfl, halike⟩ := h
  have hstem : ∀ c ∈ SessionId.regionStem.toList, (c != '\x00') = true := by
    simp [SessionId.regionStem]
  have hlisted : Matches (fun keys keys' : List String => keys.Perm keys' ∧ keys.Nodup)
      (d.store.keys SessionId.regionStem) ((d.on t).store.keys SessionId.regionStem) :=
    Store.answer_matches d.store t .keys ⟨halike.keys hstem, (halike.nodup_keys _).1⟩
  unfold Desk.purgeRegions
  obtain ⟨e, hx, hy⟩ | ⟨keys, keys', hx, hy, hkeys, hnodup⟩ := hlisted
  · rw [hx, hy]
    exact .inl ⟨e, rfl, rfl⟩
  · rw [hx, hy]
    exact hbeside.purgeKeys hkeys hnodup

end Desk.Beside

/-- Every operation respects that tables are alike, at any time and for any key. -/
theorem respected_backed : Respected (fun _ => True) (fun _ => True) Backed where
  look h key := h.look key
  tell h _ := h
  put h _ value := h.put _ value
  remove h _ := h.remove _
  connect h := h.connect
  report h := h.report
  expiry h _ key := h.handleExpiry key _
  recover h now := h.recover now
  purge h _ := h.purgeRegions _

/-- Requests to an empty store in memory and to one in a database: every request is answered alike,
what is stored is the same in the end, and the database has one row a key. -/
structure StoreRequest.Interchange (requests : List StoreRequest) : Prop where
  replies : List.Forall₂ Store.RepliesAgree (Store.memory.serve requests).1
    (Store.database.serve requests).1
  stored : ∃ rows, (Store.database.serve requests).2.table = .database rows ∧
    rows.columns.Nodup ∧
    (Store.database.serve requests).2.contents = (Store.memory.serve requests).2.contents

theorem StoreRequest.interchange {requests : List StoreRequest}
    (hstems : ∀ stem, .keys stem ∈ requests → '\x00' ∉ stem.toList) :
    StoreRequest.Interchange requests := by
  have hfree : ∀ stem, .keys stem ∈ requests → ∀ c ∈ stem.toList, (c != '\x00') = true := by
    intro stem hmem c hc
    rw [bne_iff_ne]
    intro hnul
    exact hstems stem hmem (hnul ▸ hc)
  obtain ⟨hreplies, halike⟩ := Store.serve_alike (s := .memory) rfl .empty hfree
  obtain ⟨rows, hrows, hnodup⟩ := halike.database
  exact ⟨hreplies, rows, hrows, hnodup, halike.contents⟩

namespace Fleet

/-- Where all is granted, every history asks for nothing but what is granted. -/
theorem permitsAll_trivial (f : Fleet) (steps : List Step) :
    f.PermitsAll (fun _ => True) (fun _ => True) steps := by
  induction steps generalizing f with
  | nil => exact trivial
  | cons s rest ih =>
      exact ⟨⟨fun _ _ => trivial, fun _ _ => trivial, fun _ _ => trivial⟩, ih (f.step s).2⟩

/-- A history of a fleet from an empty store in memory and from one in a database: every step is
answered alike, in the end the fleets differ in their tables alone, these hold the same, and the
database has one row a key. -/
structure Interchange (f : Fleet) (steps : List Step) : Prop where
  answers : ({ f with store := .database }.history steps).1 =
    ({ f with store := .memory }.history steps).1
  stored : ∃ rows,
    ({ f with store := .database }.history steps).2 =
      ({ f with store := .memory }.history steps).2.on (.database rows) ∧
    rows.columns.Nodup ∧
    Table.contents (.database rows) = ({ f with store := .memory }.history steps).2.store.contents

/-- The two kinds of stores are interchangeable: the one in a database does what the one in memory
does, request by request, whatever functions and tests are handed over; and so does a fleet on it,
step by step, whatever fails meanwhile. -/
theorem stores_interchange {requests : List StoreRequest}
    (hstems : ∀ stem, .keys stem ∈ requests → '\x00' ∉ stem.toList) (f : Fleet)
    (steps : List Step) : StoreRequest.Interchange requests ∧ f.Interchange steps := by
  refine ⟨StoreRequest.interchange hstems, ?_⟩
  have hbeside : ({ f with store := .memory } : Fleet).Beside Backed
      { f with store := .database } := ⟨.database [], rfl, .empty⟩
  obtain ⟨hanswers, t, hlast, halike⟩ :=
    hbeside.history respected_backed (permitsAll_trivial _ steps)
  obtain ⟨rows, rfl, hnodup⟩ := Table.Alike.database halike
  exact ⟨hanswers, rows, hlast, hnodup, Table.Alike.contents halike⟩

/-- A value is set, replaced, left alone and listed; meanwhile a session connects, and its wake-up is
answered after its deadline. -/
theorem stores_interchange_flushed :
    let id : SessionId := ⟨"a1", by decide, by decide, by decide⟩
    let requests : List StoreRequest :=
      [.set "a" [1], .update "a" (fun found => found.map (2 :: ·)), .update "b" (fun _ => none),
        .removeIf "a" (fun bytes => bytes.length < 2), .keys ""]
    let steps : List Step :=
      [.visit 0 ⟨id, .connect Dict.empty, 0, "x"⟩, .skip 900, .wakeAll 900, .purgeRegions 1 900]
    (∀ stem, .keys stem ∈ requests → '\x00' ∉ stem.toList) ∧
      StoreRequest.Interchange requests ∧ pair.Interchange steps ∧
      ((Store.database.serve requests).2.table = .database [⟨"a", [2, 1]⟩]) := by
  intro id requests steps
  have hstems : ∀ stem, .keys stem ∈ requests → '\x00' ∉ stem.toList := by
    intro stem hmem
    simp only [requests, List.mem_cons, StoreRequest.keys.injEq, List.not_mem_nil, reduceCtorEq,
      false_or, or_false] at hmem
    rw [hmem]
    decide
  obtain ⟨hinterchange, hfleet⟩ := stores_interchange hstems pair steps
  exact ⟨hstems, hinterchange, hfleet, by decide⟩

end Fleet

end Gatehouse
