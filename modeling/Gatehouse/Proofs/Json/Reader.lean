import Gatehouse.Json.Reader
import Gatehouse.Proofs.Json.Lexer
import Gatehouse.Proofs.Text.Utf8

/-!
# Written values are read back

The machine that builds values from tokens finishes each value with the stack it started from, so a
written value is the one that is read, whatever its nesting and its layout.
-/

namespace Gatehouse

namespace Json

namespace Machine

/-- A machine that takes a token goes on from there. -/
theorem run_cons {m m' : Machine} {t : Token} (h : m.step t = some m') (rest : List Token) :
    run m (t :: rest) = run m' rest := by
  simp only [run, h]

/-- The first token of a value opens an array's first item just as it opens any other value. -/
theorem run_firstItem (j : Json) (stack : List Frame) (rest : List Token) :
    run ⟨.array [] :: stack, .firstItem⟩ (j.tokens ++ rest) =
      run ⟨.array [] :: stack, .value⟩ (j.tokens ++ rest) := by
  cases j <;> rfl

theorem run_firstItem_items (v : Json) (vs : List Json) (stack : List Frame) (rest : List Token) :
    run ⟨.array [] :: stack, .firstItem⟩ (itemTokens (v :: vs) ++ rest) =
      run ⟨.array [] :: stack, .value⟩ (itemTokens (v :: vs) ++ rest) := by
  cases vs with
  | nil =>
      rw [itemTokens, List.append_assoc]
      exact run_firstItem v stack _
  | cons w vs =>
      rw [itemTokens, List.append_assoc]
      exact run_firstItem v stack _

theorem run_firstKey (m : Option String × Json) (ms : List (Option String × Json))
    (stack : List Frame) (rest : List Token) :
    run ⟨stack, .firstKey⟩ (memberTokens (m :: ms) ++ rest) =
      run ⟨stack, .key []⟩ (memberTokens (m :: ms) ++ rest) := by
  obtain ⟨k, v⟩ := m
  cases ms with
  | nil => rw [memberTokens, List.cons_append, run_cons rfl, run_cons rfl]
  | cons m ms => rw [memberTokens, List.cons_append, run_cons rfl, run_cons rfl]

mutual

/-- The machine finishes a value with the stack it started from. -/
theorem run_tokens : ∀ (j : Json) (stack : List Frame) (rest : List Token),
    run ⟨stack, .value⟩ (j.tokens ++ rest) = run ⟨stack, .finished j⟩ rest
  | .atom _, _, rest => run_cons rfl rest
  | .array [], stack, rest => by
      rw [tokens, itemTokens, List.cons_append, run_cons rfl, List.cons_append, run_cons rfl]
      rfl
  | .array (v :: vs), stack, rest => by
      have hitems := run_itemTokens (v :: vs) (List.cons_ne_nil v vs) [] stack rest
      rw [List.reverse_nil, List.nil_append] at hitems
      rw [tokens, List.cons_append, run_cons rfl, run_firstItem_items, hitems]
  | .object [], stack, rest => by
      rw [tokens, memberTokens, List.cons_append, run_cons rfl, List.cons_append, run_cons rfl]
      rfl
  | .object (m :: ms), stack, rest => by
      have hmembers := run_memberTokens (m :: ms) (List.cons_ne_nil m ms) [] stack rest
      rw [List.reverse_nil, List.nil_append] at hmembers
      rw [tokens, List.cons_append, run_cons rfl, run_firstKey, hmembers]

theorem run_itemTokens : ∀ items : List Json, items ≠ [] → ∀ (before : List Json)
    (stack : List Frame) (rest : List Token),
    run ⟨.array before :: stack, .value⟩ (itemTokens items ++ rest) =
      run ⟨stack, .finished (.array (before.reverse ++ items))⟩ rest
  | [], h, _, _, _ => absurd rfl h
  | [v], _, before, stack, rest => by
      rw [itemTokens, List.append_assoc, run_tokens v, List.cons_append, run_cons rfl,
        List.reverse_cons, List.nil_append]
  | v :: w :: vs, _, before, stack, rest => by
      have hitems := run_itemTokens (w :: vs) (List.cons_ne_nil w vs) (v :: before) stack rest
      rw [List.reverse_cons, List.append_assoc] at hitems
      rw [itemTokens, List.append_assoc, run_tokens v, List.cons_append, run_cons rfl, hitems]
      rfl

theorem run_memberTokens : ∀ members : List (Option String × Json), members ≠ [] →
    ∀ (before : List (Option String × Json)) (stack : List Frame) (rest : List Token),
    run ⟨stack, .key before⟩ (memberTokens members ++ rest) =
      run ⟨stack, .finished (.object (before.reverse ++ members))⟩ rest
  | [], h, _, _, _ => absurd rfl h
  | [(k, v)], _, before, stack, rest => by
      rw [memberTokens, List.cons_append, run_cons rfl, List.cons_append, run_cons rfl,
        List.append_assoc, run_tokens v, List.cons_append, run_cons rfl, List.reverse_cons,
        List.nil_append]
  | (k, v) :: m :: ms, _, before, stack, rest => by
      have hmembers :=
        run_memberTokens (m :: ms) (List.cons_ne_nil m ms) ((k, v) :: before) stack rest
      rw [List.reverse_cons, List.append_assoc] at hmembers
      rw [memberTokens, List.cons_append, run_cons rfl, List.cons_append, run_cons rfl,
        List.append_assoc, run_tokens v, List.cons_append, run_cons rfl, hmembers]
      rfl

end

end Machine

/-- The tokens of a value build that value. -/
theorem ofTokens?_tokens (j : Json) : ofTokens? j.tokens = some j := by
  have h := Machine.run_tokens j [] []
  rw [List.append_nil] at h
  exact h

/-- A value is read from every layout. -/
theorem parse?_writes {text : String} {j : Json} (h : Writes text j) :
    parse? (Utf8.encode text) = some j := by
  rw [parse?, Utf8.scan_encode, lex?_writes h]
  exact ofTokens?_tokens j

/-- A written value is read back. -/
theorem parse?_bytes (j : Json) : parse? j.bytes = some j := parse?_writes (writes_render j)

end Json

end Gatehouse
