/-! # Tables keyed by text

A `Dict` holds its entries in increasing order of key. Listing one is therefore deterministic,
and two tables that answer every look-up alike are equal (`Dict.ext_get?` in `Dict.Lemmas`). -/

namespace Gatehouse

universe u v

/-- A table from text keys to values, at most one value a key, held in key order. -/
structure Dict (α : Type u) where
  entries : List (String × α)
  ordered : entries.Pairwise (fun a b => a.1 < b.1)
  deriving DecidableEq

namespace Dict

variable {α : Type u} {β : Type v}

theorem lt_of_not_lt_of_ne {a b : String} (h : ¬ a < b) (hne : a ≠ b) : b < a := by
  rcases Std.le_total (a := a) (b := b) with hab | hba
  · exact absurd (Std.lt_of_le_of_ne hab hne) h
  · exact Std.lt_of_le_of_ne hba (Ne.symm hne)

/-- Put a value under a key of an ordered list, in place of the one that was there. -/
def insertEntry (k : String) (v : α) : List (String × α) → List (String × α)
  | [] => [(k, v)]
  | (k', v') :: rest =>
      if k < k' then (k, v) :: (k', v') :: rest
      else if k = k' then (k, v) :: rest
      else (k', v') :: insertEntry k v rest

theorem mem_insertEntry {k : String} {v : α} {e : String × α} :
    ∀ {l : List (String × α)}, e ∈ insertEntry k v l → e = (k, v) ∨ e ∈ l
  | [], h => by simpa [insertEntry] using h
  | (k', v') :: rest, h => by
      unfold insertEntry at h
      split at h
      · simpa using h
      · split at h
        · rcases List.mem_cons.1 h with h | h
          · exact .inl h
          · exact .inr (List.mem_cons_of_mem _ h)
        · rcases List.mem_cons.1 h with h | h
          · exact .inr (h ▸ List.mem_cons_self)
          · exact (mem_insertEntry h).imp id (List.mem_cons_of_mem _)

theorem ordered_insertEntry (k : String) (v : α) :
    ∀ {l : List (String × α)}, l.Pairwise (fun a b => a.1 < b.1) →
      (insertEntry k v l).Pairwise (fun a b => a.1 < b.1)
  | [], _ => by simp [insertEntry]
  | (k', v') :: rest, h => by
      have hhead := (List.pairwise_cons.1 h).1
      have htail := (List.pairwise_cons.1 h).2
      unfold insertEntry
      split
      case isTrue hlt =>
        refine List.pairwise_cons.2 ⟨fun e he => ?_, h⟩
        rcases List.mem_cons.1 he with he | he
        · simpa [he] using hlt
        · exact String.lt_trans hlt (hhead e he)
      case isFalse hnlt =>
        split
        case isTrue heq =>
          subst heq
          exact List.pairwise_cons.2 ⟨hhead, htail⟩
        case isFalse hne =>
          refine List.pairwise_cons.2 ⟨fun e he => ?_, ordered_insertEntry k v htail⟩
          rcases mem_insertEntry he with he | he
          · simpa [he] using lt_of_not_lt_of_ne hnlt hne
          · exact hhead e he

/-- The table without entries. -/
def empty : Dict α := ⟨[], .nil⟩

instance : Inhabited (Dict α) := ⟨empty⟩

/-- The value under a key. -/
def get? (d : Dict α) (k : String) : Option α := d.entries.lookup k

/-- Whether a key has a value. -/
def contains (d : Dict α) (k : String) : Bool := (d.get? k).isSome

/-- Put a value under a key, in place of the one that was there. -/
def insert (d : Dict α) (k : String) (v : α) : Dict α :=
  ⟨insertEntry k v d.entries, ordered_insertEntry k v d.ordered⟩

/-- Take a key out. -/
def erase (d : Dict α) (k : String) : Dict α :=
  ⟨d.entries.filter (fun e => e.1 != k), d.ordered.filter _⟩

/-- Keep the entries that pass a test. -/
def filter (d : Dict α) (p : String → α → Bool) : Dict α :=
  ⟨d.entries.filter (fun e => p e.1 e.2), d.ordered.filter _⟩

/-- Change every value, leaving the keys as they are. -/
def map (f : α → β) (d : Dict α) : Dict β :=
  ⟨d.entries.map (fun e => (e.1, f e.2)), by
    rw [List.pairwise_map]
    exact d.ordered⟩

/-- Replace the value under a key by what `f` makes of the present one. -/
def alter (d : Dict α) (k : String) (f : Option α → α) : Dict α :=
  d.insert k (f (d.get? k))

/-- Enter pairs from left to right, so that a later value replaces an earlier one. -/
def ofList (l : List (String × α)) : Dict α :=
  l.foldl (fun d e => d.insert e.1 e.2) empty

/-- The entries in key order. -/
def toList (d : Dict α) : List (String × α) := d.entries

/-- The keys in increasing order. -/
def keys (d : Dict α) : List String := d.entries.map (·.1)

/-- How many keys have a value. -/
def size (d : Dict α) : Nat := d.entries.length

/-- Whether no key has a value. -/
def isEmpty (d : Dict α) : Bool := d.entries.isEmpty

end Dict

end Gatehouse
