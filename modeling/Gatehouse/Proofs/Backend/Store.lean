import Gatehouse.Proofs.Beside.Desk
import Mathlib.Data.List.Forall2

/-!
# Stores on either kind of table

A table in memory and one in a database are alike if they hold the same under every key and the
database has no two rows for one. Every call keeps them alike and finds the same on both, down to
what it shows to the caller's function; only the order in which keys are listed differs.
-/

namespace Gatehouse

namespace Rows

variable {rows : Rows} {key : String}

/-- The keys of some rows, in their order. -/
def columns (rows : Rows) : List String := rows.map Row.key

theorem mem_columns_iff : key ∈ rows.columns ↔ (rows.any fun r => r.key == key) = true := by
  rw [columns, List.mem_map, List.any_eq_true]
  simp only [beq_iff_eq]

/-- Setting a value adds a row only for a key that has none. -/
theorem columns_upsert (rows : Rows) (key : String) (value : Bytes) :
    (rows.upsert key value).columns =
      if key ∈ rows.columns then rows.columns else rows.columns ++ [key] := by
  unfold upsert
  by_cases hmem : key ∈ rows.columns
  · rw [if_pos (mem_columns_iff.1 hmem), if_pos hmem, columns, List.map_map]
    apply List.map_congr_left
    intro r _
    exact key_ite key value r
  · rw [if_neg (fun hany => hmem (mem_columns_iff.2 hany)), if_neg hmem, columns, List.map_append]
    rfl

theorem nodup_upsert (h : rows.columns.Nodup) (key : String) (value : Bytes) :
    (rows.upsert key value).columns.Nodup := by
  rw [columns_upsert]
  split
  · exact h
  · rename_i hnew
    apply List.nodup_append.2
    refine ⟨h, List.nodup_cons.2 ⟨List.not_mem_nil, List.nodup_nil⟩, ?_⟩
    intro a ha b hb heq
    rw [heq, List.mem_singleton.1 hb] at ha
    exact hnew ha

theorem nodup_delete (h : rows.columns.Nodup) (key : String) : (rows.delete key).columns.Nodup :=
  h.sublist (List.filter_sublist.map Row.key)

/-- The value of the first row for a key is the first one that is paired with the key. -/
theorem select_eq_lookup (rows : Rows) (key : String) :
    rows.select key = (rows.map fun r => (r.key, r.value)).lookup key := by
  induction rows with
  | nil => rfl
  | cons r rest ih =>
      rw [List.map_cons, List.lookup_cons, ← ih]
      by_cases hkey : key = r.key
      · have hsame : (r.key == key) = true := beq_iff_eq.2 hkey.symm
        have hlookup : (key == r.key) = true := beq_iff_eq.2 hkey
        simp only [select, List.find?_cons, hsame, hlookup, Option.map_some]
      · have hother : (r.key == key) = false := beq_false_of_ne (Ne.symm hkey)
        have hlookup : (key == r.key) = false := beq_false_of_ne hkey
        simp only [select, List.find?_cons, hother, hlookup]

/-- Rows without two for one key are entered into a table one by one. -/
theorem get?_foldl_insert (h : rows.columns.Nodup) (d : Dict Bytes) (key : String) :
    ((rows.map fun r => (r.key, r.value)).foldl (fun d e => d.insert e.1 e.2) d).get? key =
      (rows.select key).or (d.get? key) := by
  have hkeys : ((rows.map fun r => (r.key, r.value)).map (·.1)).Nodup := by
    rw [List.map_map]
    exact h
  rw [Dict.get?_foldl_insert hkeys, select_eq_lookup]

end Rows

/-- No key of a map is listed twice. -/
theorem Dict.nodup_keys {α : Type} (d : Dict α) : d.keys.Nodup := by
  apply (List.pairwise_map.2 d.ordered).imp
  intro a b hlt heq
  rw [heq] at hlt
  exact String.lt_irrefl b hlt

namespace Table

/-- A table is keyed if it has no two rows for one key, as the key column of a database has it. -/
def Keyed : Table → Prop
  | .memory _ => True
  | .database rows => rows.columns.Nodup

/-- A keyed table lists no key twice. -/
theorem Keyed.nodup_keys {t : Table} (h : t.Keyed) (stem : String) : (t.keys stem).Nodup := by
  cases t with
  | memory values => exact values.nodup_keys.sublist List.filter_sublist
  | database rows => exact List.Nodup.sublist (List.filter_sublist.map Row.key) h

/-- A table in memory and one in a database are alike if they hold the same under every key and the
database has no two rows for one. -/
inductive Alike : Table → Table → Prop
  | intro {values : Dict Bytes} {rows : Rows} (look : ∀ key, rows.select key = values.get? key)
      (keyed : rows.columns.Nodup) : Alike (.memory values) (.database rows)

namespace Alike

variable {t t' : Table} {key stem : String}

/-- The empty tables are alike. -/
theorem empty : Alike (.memory Dict.empty) (.database []) := .intro (fun _ => rfl) List.nodup_nil

theorem look (h : t.Alike t') (key : String) : t'.get? key = t.get? key := by
  cases h with
  | intro look keyed => exact look key

theorem put (h : t.Alike t') (key : String) (value : Bytes) :
    (t.put key value).Alike (t'.put key value) := by
  cases h with
  | intro look keyed =>
      refine .intro ?_ (Rows.nodup_upsert keyed key value)
      intro key'
      rw [Rows.select_upsert, Dict.get?_insert, look]

theorem remove (h : t.Alike t') (key : String) : (t.remove key).Alike (t'.remove key) := by
  cases h with
  | intro look keyed =>
      refine .intro ?_ (Rows.nodup_delete keyed key)
      intro key'
      rw [Rows.select_delete, Dict.get?_erase, look]

/-- No key is listed twice. -/
theorem nodup_keys (h : t.Alike t') (stem : String) :
    (t.keys stem).Nodup ∧ (t'.keys stem).Nodup := by
  cases h with
  | @intro values rows look keyed =>
      exact ⟨Keyed.nodup_keys (t := .memory values) trivial stem,
        Keyed.nodup_keys (t := .database rows) keyed stem⟩

/-- The same keys are listed. -/
theorem keys (h : t.Alike t') (hstem : ∀ c ∈ stem.toList, (c != '\x00') = true) :
    (t.keys stem).Perm (t'.keys stem) := by
  obtain ⟨hmemory, hdatabase⟩ := h.nodup_keys stem
  apply (List.perm_ext_iff_of_nodup hmemory hdatabase).2
  intro key
  rw [mem_keys_iff hstem, mem_keys_iff hstem, h.look]

/-- What is stored in one table is what is stored in the other. -/
theorem contents (h : t.Alike t') : t'.contents = t.contents := by
  cases h with
  | intro look keyed =>
      apply Dict.ext_get?
      intro key
      have hentered := Rows.get?_foldl_insert keyed Dict.empty key
      rw [Dict.get?_empty, Option.or_none, look] at hentered
      exact hentered

/-- The second table is a database with one row a key. -/
theorem database (h : t.Alike t') : ∃ rows, t' = .database rows ∧ rows.columns.Nodup := by
  cases h with
  | intro look keyed => exact ⟨_, rfl, keyed⟩

end Alike

end Table

namespace Store

variable {s : Store} {t : Table}

/-- Two stores are alike if they differ in their tables alone, and these are alike. -/
def Alike (s s' : Store) : Prop := ∃ t, s' = s.on t ∧ s.table.Alike t

theorem answer_matches {α : Type} {R : α → α → Prop} {a b : α} (s : Store) (t : Table)
    (c : StoreCall) (h : R a b) : Matches R (s.answer c a) ((s.on t).answer c b) := by
  by_cases hdown : c ∈ s.down
  · rw [answer_of_down hdown, answer_of_down (s := s.on t) hdown]
    exact .inl ⟨_, rfl, rfl⟩
  · rw [answer_of_up hdown, answer_of_up (s := s.on t) hdown]
    exact .inr ⟨a, b, rfl, rfl, h⟩

/-- An update shows the same value to its function and puts the same successor in place. -/
theorem update_matches (h : s.table.Alike t) (key : String)
    (next : Option Bytes → Option Bytes) :
    Matches (Abreast Alike) (s.update key next) ((s.on t).update key next) := by
  rw [update_eq, update_eq]
  apply answer_matches
  have hlook : (s.on t).table.get? key = s.table.get? key := h.look key
  refine ⟨hlook, ?_⟩
  rw [hlook]
  cases next (s.table.get? key) with
  | none => exact ⟨t, rfl, h⟩
  | some value => exact ⟨t.put key value, rfl, h.put key value⟩

/-- A removal tests the same value. -/
theorem removeIf_matches (h : s.table.Alike t) (key : String) (test : Bytes → Bool) :
    Matches (Abreast Alike) (s.removeIf key test) ((s.on t).removeIf key test) := by
  have hlook : (s.on t).table.get? key = s.table.get? key := h.look key
  unfold removeIf
  rw [hlook]
  dsimp only
  split
  · exact answer_matches s t _ ⟨rfl, t.remove key, rfl, h.remove key⟩
  · exact answer_matches s t _ ⟨rfl, t, rfl, h⟩

end Store

/-- A call to a store, with the function or the test that it hands over. -/
inductive StoreRequest
  | get (key : String)
  | set (key : String) (value : Bytes)
  | delete (key : String)
  | update (key : String) (next : Option Bytes → Option Bytes)
  | removeIf (key : String) (test : Bytes → Bool)
  | keys (stem : String)

/-- What a store does with a call: what it gives back, and the value that it shows to the function or
the test. -/
inductive StoreReply
  | found (value : Option Bytes)
  | done
  | updated (shown : Option Bytes)
  | removed (shown taken : Option Bytes)
  | listed (keys : List String)

/-- Two replies agree if they are the same but for the order of keys. -/
inductive StoreReply.Agree : StoreReply → StoreReply → Prop
  | same (r : StoreReply) : Agree r r
  | listed {keys keys' : List String} (h : keys.Perm keys') : Agree (.listed keys) (.listed keys')

namespace Store

/-- Answer a request. -/
def respond (s : Store) : StoreRequest → Except Unavailable (StoreReply × Store)
  | .get key => (s.get key).map fun value => (.found value, s)
  | .set key value => (s.set key value).map fun s' => (.done, s')
  | .delete key => (s.delete key).map fun r => (.found r.1, r.2)
  | .update key next => (s.update key next).map fun r => (.updated r.1, r.2)
  | .removeIf key test => (s.removeIf key test).map fun r => (.removed r.1 (r.1.filter test), r.2)
  | .keys stem => (s.keys stem).map fun keys => (.listed keys, s)

/-- Answer requests one after the other. One that fails leaves the store as it was. -/
def serve : List StoreRequest → Store → List (Except Unavailable StoreReply) × Store
  | [], s => ([], s)
  | request :: rest, s =>
      match s.respond request with
      | .error e => (.error e :: (serve rest s).1, (serve rest s).2)
      | .ok (reply, s') => (.ok reply :: (serve rest s').1, (serve rest s').2)

/-- Two answers agree if both are there and the replies agree. -/
def RepliesAgree (x y : Except Unavailable StoreReply) : Prop :=
  ∃ r r', x = .ok r ∧ y = .ok r' ∧ r.Agree r'

variable {s : Store} {t : Table}

/-- Alike stores answer a request alike. -/
theorem respond_matches (h : s.table.Alike t) {request : StoreRequest}
    (hstem : ∀ stem, request = .keys stem → ∀ c ∈ stem.toList, (c != '\x00') = true) :
    Matches (fun x y => x.1.Agree y.1 ∧ Alike x.2 y.2) (s.respond request)
      ((s.on t).respond request) := by
  cases request with
  | get key =>
      have hget : Matches Eq (s.get key) ((s.on t).get key) :=
        answer_matches s t .get (h.look key).symm
      obtain ⟨e, hx, hy⟩ | ⟨found, _, hx, hy, rfl⟩ := hget
      · exact .inl ⟨e, by rw [respond, hx]; rfl, by rw [respond, hy]; rfl⟩
      · exact .inr ⟨(.found found, s), (.found found, s.on t), by rw [respond, hx]; rfl,
          by rw [respond, hy]; rfl, .same _, t, rfl, h⟩
  | set key value =>
      have hset : Matches Alike (s.set key value) ((s.on t).set key value) :=
        answer_matches s t .set ⟨t.put key value, rfl, h.put key value⟩
      exact hset.map _ fun a b halike => ⟨.same _, halike⟩
  | delete key =>
      have hdelete : Matches (Abreast Alike) (s.delete key) ((s.on t).delete key) :=
        answer_matches s t .delete ⟨h.look key, t.remove key, rfl, h.remove key⟩
      exact hdelete.map _ fun a b hab => ⟨hab.answer ▸ .same _, hab.state⟩
  | update key next =>
      exact (update_matches h key next).map _ fun a b hab => ⟨hab.answer ▸ .same _, hab.state⟩
  | removeIf key test =>
      exact (removeIf_matches h key test).map _ fun a b hab => ⟨hab.answer ▸ .same _, hab.state⟩
  | keys stem =>
      have hkeys : Matches List.Perm (s.keys stem) ((s.on t).keys stem) :=
        answer_matches s t .keys (h.keys (hstem stem rfl))
      obtain ⟨e, hx, hy⟩ | ⟨keys, keys', hx, hy, hperm⟩ := hkeys
      · exact .inl ⟨e, by rw [respond, hx]; rfl, by rw [respond, hy]; rfl⟩
      · exact .inr ⟨(.listed keys, s), (.listed keys', s.on t), by rw [respond, hx]; rfl,
          by rw [respond, hy]; rfl, .listed hperm, t, rfl, h⟩

/-- A store without outages answers every request. -/
theorem respond_of_up (hup : s.down = []) (request : StoreRequest) :
    ∃ r s', s.respond request = .ok (r, s') ∧ s'.down = [] := by
  have hanswer {α : Type} (c : StoreCall) (a : α) : s.answer c a = .ok a :=
    answer_of_up (not_down_of_nil hup c) a
  cases request with
  | get key => exact ⟨_, s, by rw [respond, get, hanswer]; rfl, hup⟩
  | set key value =>
      exact ⟨_, s.on (s.table.put key value), by rw [respond, set, hanswer]; rfl, hup⟩
  | delete key =>
      exact ⟨_, s.on (s.table.remove key), by rw [respond, delete, hanswer]; rfl, hup⟩
  | update key next =>
      exact ⟨_, s.on (change s.table key (next (s.table.get? key))), by
        rw [respond, update_eq, hanswer]; rfl, hup⟩
  | removeIf key test =>
      rw [respond, removeIf, hanswer, hanswer]
      split
      · exact ⟨_, s.on (s.table.remove key), rfl, hup⟩
      · exact ⟨_, s, rfl, hup⟩
  | keys stem => exact ⟨_, s, by rw [respond, keys, hanswer]; rfl, hup⟩

/-- Alike stores without outages answer requests alike and stay alike. -/
theorem serve_alike (hup : s.down = []) (h : s.table.Alike t) {requests : List StoreRequest}
    (hstems : ∀ stem, .keys stem ∈ requests → ∀ c ∈ stem.toList, (c != '\x00') = true) :
    List.Forall₂ RepliesAgree (serve requests s).1 (serve requests (s.on t)).1 ∧
      (serve requests s).2.table.Alike (serve requests (s.on t)).2.table := by
  induction requests generalizing s t with
  | nil => exact ⟨.nil, h⟩
  | cons request rest ih =>
      obtain ⟨r, s', hr, hup'⟩ := respond_of_up hup request
      have hstem : ∀ stem, request = .keys stem → ∀ c ∈ stem.toList, (c != '\x00') = true :=
        fun stem heq => hstems stem (heq ▸ List.mem_cons_self)
      have hmatches := respond_matches h hstem
      rw [hr] at hmatches
      obtain ⟨e, herror, -⟩ | ⟨a, b, ha, hr', hagree, u, hu, halike⟩ := hmatches
      · cases herror
      · cases ha
        obtain ⟨hrest, hlast⟩ := ih hup' halike fun stem hmem =>
          hstems stem (List.mem_cons_of_mem request hmem)
        unfold serve
        rw [hr, hr', ← hu] at *
        exact ⟨.cons ⟨_, _, rfl, rfl, hagree⟩ hrest, hlast⟩

end Store

end Gatehouse
