import Gatehouse.Dict.Lemmas
import Gatehouse.Event
import Gatehouse.Proofs.Json.Reader

/-!
# One event, one line

The printer escapes every control character, so the bytes of a written value hold no break, and a file
to which events are appended comes apart at its breaks into the values that were appended. What a sink
of a list receives does not depend on the others, only on how often it is listed.
-/

namespace Gatehouse

/-! ## Written values have no control characters -/

/-- A character is visible if it is no control character. -/
def IsVisible (c : Char) : Prop := 0x20 ≤ c.toNat

instance (c : Char) : Decidable (IsVisible c) := inferInstanceAs (Decidable (_ ≤ _))

theorem isVisible_of_isDigit {c : Char} (h : c.isDigit = true) : IsVisible c := by
  simp only [Char.isDigit, Bool.and_eq_true, decide_eq_true_eq] at h
  have hlow : '0'.toNat ≤ c.toNat := h.1
  exact Nat.le_trans (by decide) hlow

namespace Hex

theorem isVisible_digit {n : Nat} (h : n < 16) : IsVisible (digit n) := by
  have hall : ∀ m < 16, IsVisible (digit m) := by decide
  exact hall n h

end Hex

namespace Json

theorem isVisible_escape {c d : Char} (h : d ∈ escape c) : IsVisible d := by
  unfold escape at h
  split at h
  case h_8 =>
    split at h
    case isTrue hlow =>
      have hhigh : c.toNat / 16 < 16 := by omega
      have hrest : c.toNat % 16 < 16 := by omega
      simp only [List.mem_cons, List.not_mem_nil, or_false] at h
      rcases h with rfl | rfl | rfl | rfl | rfl | rfl
      · decide
      · decide
      · decide
      · decide
      · exact Hex.isVisible_digit hhigh
      · exact Hex.isVisible_digit hrest
    case isFalse hhigh =>
      rw [List.mem_singleton.1 h]
      exact Nat.le_of_not_lt hhigh
  all_goals
    simp only [List.mem_cons, List.not_mem_nil, or_false] at h
    rcases h with rfl | rfl
    all_goals decide

theorem isVisible_token {t : Token} {c : Char} (h : c ∈ t.chars) : IsVisible c := by
  have hfixed : ∀ cs : List Char, cs.all (fun d => decide (IsVisible d)) = true → c ∈ cs →
      IsVisible c :=
    fun _ hall hc => of_decide_eq_true (List.all_eq_true.1 hall c hc)
  cases t with
  | atom a =>
      cases a with
      | null => exact hfixed _ (by decide) h
      | bool b =>
          cases b with
          | false => exact hfixed _ (by decide) h
          | true => exact hfixed _ (by decide) h
      | number n =>
          cases n with
          | none => exact hfixed _ (by decide) h
          | some n =>
              exact isVisible_of_isDigit (Nat.isDigit_of_mem_toDigits (by decide) (by decide) h)
      | text s =>
          cases s with
          | none => exact hfixed _ (by decide) h
          | some s =>
              simp only [Token.chars, Atom.chars, List.mem_cons, List.mem_append, List.mem_flatMap,
                List.not_mem_nil, or_false] at h
              rcases h with rfl | ⟨d, -, hd⟩ | rfl
              · decide
              · exact isVisible_escape hd
              · decide
  | _ => exact hfixed _ (by decide) h

/-- A written value has no control characters. -/
theorem isVisible_render (j : Json) : ∀ c ∈ j.render.toList, IsVisible c := by
  intro c hc
  rw [render, String.toList_ofList] at hc
  obtain ⟨t, -, ht⟩ := List.mem_flatMap.1 hc
  exact isVisible_token ht

end Json

/-- The byte that ends a line. -/
def lineBreak : UInt8 := 10

namespace Utf8

/-- No other character has the byte of a control character. -/
theorem le_of_mem_encodeChar {c : Char} {b : UInt8} (hc : IsVisible c)
    (hb : b ∈ String.utf8EncodeChar c) : 0x20 ≤ b.toNat := by
  have hvisible : 0x20 ≤ c.val.toNat := hc
  have hword : ∀ {n : Nat}, 0x20 ≤ n → n < 256 → 0x20 ≤ (UInt8.ofNat n).toNat := by
    intro n hlow hn
    rw [toNat_ofNat_of_lt hn]
    exact hlow
  unfold String.utf8EncodeChar at hb
  generalize c.val.toNat = v at hvisible hb
  dsimp only at hb
  split at hb
  · simp only [List.mem_cons, List.not_mem_nil, or_false] at hb
    rw [hb]
    exact hword hvisible (by omega)
  · split at hb
    · simp only [List.mem_cons, List.not_mem_nil, or_false] at hb
      rcases hb with rfl | rfl
      all_goals exact hword (by omega) (by omega)
    · split at hb
      · simp only [List.mem_cons, List.not_mem_nil, or_false] at hb
        rcases hb with rfl | rfl | rfl
        all_goals exact hword (by omega) (by omega)
      · simp only [List.mem_cons, List.not_mem_nil, or_false] at hb
        rcases hb with rfl | rfl | rfl | rfl
        all_goals exact hword (by omega) (by omega)

theorem lineBreak_not_mem_encode {s : String} (h : ∀ c ∈ s.toList, IsVisible c) :
    lineBreak ∉ encode s := by
  intro hmem
  obtain ⟨c, hc, hb⟩ := List.mem_flatMap.1 hmem
  exact absurd (le_of_mem_encodeChar (h c hc) hb) (by decide)

end Utf8

/-! ## Lines of a file -/

/-- The lines of a file. What stands behind the last break is no line. -/
def fileLines (bytes : Bytes) : List Bytes := (bytes.splitOn lineBreak).dropLast

/-- Lines as they stand in a file, each with a break behind it. -/
def terminated (ls : List Bytes) : Bytes := ls.flatMap (· ++ [lineBreak])

@[simp] theorem terminated_append (ls ms : List Bytes) :
    terminated (ls ++ ms) = terminated ls ++ terminated ms := List.flatMap_append

/-- Lines without breaks are read back from a file in which nothing follows them. -/
theorem fileLines_terminated {ls : List Bytes} (h : ∀ l ∈ ls, lineBreak ∉ l) :
    fileLines (terminated ls) = ls := by
  induction ls with
  | nil => rfl
  | cons l rest ih =>
      have hrest := ih fun l' hl' => h l' (List.mem_cons_of_mem _ hl')
      have hsplit := List.splitOn_append_cons_self_of_not_mem (h l List.mem_cons_self)
        (terminated rest)
      have hbytes : terminated (l :: rest) = l ++ lineBreak :: terminated rest := by
        simp [terminated]
      rw [fileLines, hbytes, hsplit, List.dropLast_cons_of_ne_nil (List.splitOn_ne_nil _ _)]
      exact congrArg (l :: ·) hrest

/-- Whatever is appended to a file that ends a line starts a line. -/
theorem fileLines_append {bytes : Bytes} (h : bytes = [] ∨ bytes.getLast? = some lineBreak)
    (rest : Bytes) : fileLines (bytes ++ rest) = fileLines bytes ++ fileLines rest := by
  rcases h with rfl | hlast
  · rfl
  · obtain ⟨before, rfl⟩ := List.getLast?_eq_some_iff.1 hlast
    have hbefore : fileLines (before ++ [lineBreak]) = before.splitOn lineBreak := by
      rw [fileLines, List.splitOn_append_cons_self, List.splitOn_nil, List.dropLast_concat]
    rw [hbefore, List.append_assoc, List.singleton_append, fileLines, List.splitOn_append_cons_self,
      List.dropLast_append_of_ne_nil (List.splitOn_ne_nil _ _)]
    rfl

/-! ## Lines of events -/

namespace Event

/-- A line tells of an event if it is a text without control characters that writes one object, with the
kind of the event and its members, each of them under a name of its own. -/
structure IsLine (e : Event) (line : Bytes) : Prop where
  visible : ∃ text, line = Utf8.encode text ∧ ∀ c ∈ text.toList, IsVisible c
  object : Json.parse? line = some (Json.record (("event", Json.text e.kind) :: e.members))
  distinct : ("event" :: e.members.map Prod.fst).Nodup

theorem nodup_names (e : Event) : ("event" :: e.members.map Prod.fst).Nodup := by
  cases e with
  | _ => simp [members, RequestSummary.members, SessionRecord.members]

theorem isLine_bytes (e : Event) : e.IsLine e.toJson.bytes where
  visible := ⟨e.toJson.render, rfl, Json.isVisible_render e.toJson⟩
  object := Json.parse?_bytes e.toJson
  distinct := e.nodup_names

theorem lineBreak_not_mem_bytes (e : Event) : lineBreak ∉ e.toJson.bytes :=
  Utf8.lineBreak_not_mem_encode (Json.isVisible_render e.toJson)

theorem encode_line (e : Event) : Utf8.encode e.line = e.toJson.bytes ++ [lineBreak] := by
  rw [line, Utf8.encode, String.toList_append, List.flatMap_append]
  rfl

end Event

/-! ## Sinks -/

namespace Received

variable {sinks : List EventSink} {r : Received} {e : Event} {name : String}

theorem events_send (e : Event) (r : Received) (sink : EventSink) (name : String) :
    (send e r sink).events name =
      r.events name ++ List.replicate ([sink].count (.memory name)) e := by
  cases sink with
  | memory other =>
      by_cases hname : name = other
      · subst hname
        simp [send, events]
      · have hother : EventSink.memory other ≠ .memory name := by simp [Ne.symm hname]
        simp [send, events, hname, hother]
  | log => simp [send]
  | lines => simp [send, events]

theorem file_send (e : Event) (r : Received) (sink : EventSink) : (send e r sink).file =
    r.file ++ terminated (List.replicate ([sink].count .lines) e.toJson.bytes) := by
  cases sink with
  | memory other => simp [send, terminated]
  | log => simp [send, terminated]
  | lines => simp [send, terminated, Event.encode_line]

/-- A memory receives an event as often as it is listed. -/
theorem events_emit (sinks : List EventSink) (r : Received) (e : Event) (name : String) :
    (emit sinks r e).events name =
      r.events name ++ List.replicate (sinks.count (.memory name)) e := by
  induction sinks generalizing r with
  | nil => simp [emit]
  | cons sink rest ih =>
      have hcount : (sink :: rest).count (.memory name) =
          [sink].count (.memory name) + rest.count (.memory name) := by
        rw [← List.count_append, List.singleton_append]
      refine (ih (send e r sink)).trans ?_
      rw [events_send, hcount, List.replicate_add, List.append_assoc]

/-- A file receives the line of an event as often as it is listed. -/
theorem file_emit (sinks : List EventSink) (r : Received) (e : Event) : (emit sinks r e).file =
    r.file ++ terminated (List.replicate (sinks.count .lines) e.toJson.bytes) := by
  induction sinks generalizing r with
  | nil => simp [emit, terminated]
  | cons sink rest ih =>
      have hcount : (sink :: rest).count .lines = [sink].count .lines + rest.count .lines := by
        rw [← List.count_append, List.singleton_append]
      refine (ih (send e r sink)).trans ?_
      rw [file_send, hcount, List.replicate_add, terminated_append, List.append_assoc]

/-- Events, each repeated some number of times. -/
def repeated {α : Type} (n : Nat) (xs : List α) : List α := xs.flatMap (List.replicate n)

@[simp] theorem repeated_one {α : Type} (xs : List α) : repeated 1 xs = xs :=
  List.flatMap_singleton' xs

theorem events_emitAll (sinks : List EventSink) (r : Received) (es : List Event) (name : String) :
    (emitAll sinks r es).events name =
      r.events name ++ repeated (sinks.count (.memory name)) es := by
  induction es generalizing r with
  | nil => simp [emitAll, repeated]
  | cons e rest ih =>
      refine (ih (emit sinks r e)).trans ?_
      rw [events_emit, List.append_assoc]
      rfl

theorem file_emitAll (sinks : List EventSink) (r : Received) (es : List Event) :
    (emitAll sinks r es).file =
      r.file ++ terminated (repeated (sinks.count .lines) (es.map fun e => e.toJson.bytes)) := by
  induction es generalizing r with
  | nil => simp [emitAll, repeated, terminated]
  | cons e rest ih =>
      refine (ih (emit sinks r e)).trans ?_
      rw [file_emit, List.append_assoc, ← terminated_append]
      rfl

/-- Whatever sinks are listed and whatever texts the events hold: a memory receives the events in order,
each as often as the memory is listed, and a file that is empty or ends a line receives the lines of the
events in order, each as often as the file is listed. Each line is one object of the event's members
without control characters, and the file comes apart at its breaks into the lines it had and these. What
is listed once receives the events just as they are. -/
theorem sinks_receive_events (sinks : List EventSink) {r : Received} (es : List Event)
    (hfile : r.file = [] ∨ r.file.getLast? = some lineBreak) :
    let r' := r.emitAll sinks es
    let told := repeated (sinks.count .lines) (es.map fun e => e.toJson.bytes)
    (∀ name, r'.events name = r.events name ++ repeated (sinks.count (.memory name)) es) ∧
    (∀ name, sinks.count (.memory name) = 1 → r'.events name = r.events name ++ es) ∧
    r'.file = r.file ++ terminated told ∧ fileLines (terminated told) = told ∧
    fileLines r'.file = fileLines r.file ++ told ∧
    (sinks.count .lines = 1 → told = es.map fun e => e.toJson.bytes) ∧
    ∀ e ∈ es, e.IsLine e.toJson.bytes := by
  intro r' told
  have hunbroken : ∀ l ∈ told, lineBreak ∉ l := by
    intro l hl
    obtain ⟨l', hl', hrepeated⟩ := List.mem_flatMap.1 hl
    obtain ⟨e, -, rfl⟩ := List.mem_map.1 hl'
    rw [List.eq_of_mem_replicate hrepeated]
    exact e.lineBreak_not_mem_bytes
  have hevents : ∀ name, r'.events name = r.events name ++ repeated (sinks.count (.memory name)) es :=
    events_emitAll sinks r es
  have hbytes : r'.file = r.file ++ terminated told := file_emitAll sinks r es
  have hlines := fileLines_terminated hunbroken
  refine ⟨hevents, ?_, hbytes, hlines, ?_, ?_, fun e _ => e.isLine_bytes⟩
  · intro name honce
    rw [hevents, honce, repeated_one]
  · rw [hbytes, fileLines_append hfile, hlines]
  · intro honce
    simp [told, honce]

/-- A summary with a quote, a break and a character beyond ASCII in it. -/
def awkward : RequestSummary := ⟨"192.0.2.1", "\"\né", ⟨"0a", "0b", 3⟩, .ssh⟩

/-- Two memories and a file with a line in it. -/
theorem sinks_receive_events_awkward :
    let sinks : List EventSink := [.memory "a", .lines, .log, .memory "b"]
    let r : Received := { file := [0x61, lineBreak] }
    let es : List Event := [.failed awkward 12, .connected awkward "ab"]
    let r' := r.emitAll sinks es
    let told := repeated (sinks.count .lines) (es.map fun e => e.toJson.bytes)
    (r.file = [] ∨ r.file.getLast? = some lineBreak) ∧ told.length = 2 ∧
      (∀ name, r'.events name = r.events name ++ repeated (sinks.count (.memory name)) es) ∧
      (∀ name, sinks.count (.memory name) = 1 → r'.events name = r.events name ++ es) ∧
      r'.file = r.file ++ terminated told ∧ fileLines (terminated told) = told ∧
      fileLines r'.file = fileLines r.file ++ told ∧
      (sinks.count .lines = 1 → told = es.map fun e => e.toJson.bytes) ∧
      ∀ e ∈ es, e.IsLine e.toJson.bytes := by
  intro sinks r es r' told
  have hfile : r.file = [] ∨ r.file.getLast? = some lineBreak := .inr rfl
  exact ⟨hfile, rfl, sinks_receive_events sinks es hfile⟩

/-- A memory that is listed twice holds each event twice. -/
theorem listed_twice_receives_twice :
    let sinks : List EventSink := [.memory "a", .memory "a", .lines]
    let es : List Event := [.failed ⟨"192.0.2.1", "CA", ⟨"0a", "0b", 3⟩, .ssh⟩ 12]
    let r' := Received.emitAll sinks {} es
    .memory "a" ∈ sinks ∧ .lines ∈ sinks ∧ r'.events "a" = es ++ es ∧ r'.events "a" ≠ es := by
  decide

end Received

end Gatehouse
