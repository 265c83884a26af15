import Gatehouse.Proofs.Json.Reader
import Gatehouse.Proofs.Json.Record
import Gatehouse.Region
import Gatehouse.Session.Codec

/-!
# Readers are tolerant

Several versions share one store, and a client may be older or newer than the service. A fragment, a
region entry and a usage report are each read from every arrangement of their members and from every
layout of it. A member whose name spells no text spoils the object it stands in.
-/

namespace Gatehouse

namespace Fragment

/-- The members of a fragment, whose descriptive fields are written in some order. -/
def members (f : Fragment) (entries : List (String × String)) : List (String × Json) :=
  [("session_id", Json.text f.session),
    ("fragment_id", Json.text f.tag),
    ("start_time", Json.number f.start),
    ("end_time", Json.number f.last),
    ("bytes_transferred", Json.number f.bytes),
    ("partial", Json.bool f.isPartial),
    ("last_seq", f.lastSeq.elim Json.null Json.number),
    ("fields", Json.record (entries.map fun e => (e.1, Json.text e.2))),
    ("expires_at", Json.number f.due)]

/-- The members that a fragment has if they are left out. -/
def defaults : List (String × Json) :=
  [("partial", Json.bool false), ("last_seq", Json.null), ("fields", Json.record []),
    ("expires_at", Json.number 0)]

theorem toJson_eq (f : Fragment) : f.toJson = Json.record (f.members f.fields.toList) := by
  unfold toJson members
  cases f.lastSeq with
  | none => rfl
  | some n => rfl

variable {f : Fragment} {entries : List (String × String)} {ms : List (String × Json)}

theorem names_members (f : Fragment) (entries : List (String × String)) :
    (f.members entries).map (·.1) = fieldNames := rfl

/-- A fragment is read from every arrangement of its members. -/
theorem ofJson?_arranges (hentries : entries.Perm f.fields.toList)
    (h : Json.Arranges (f.members entries) defaults ms) : ofJson? (Json.record ms) = some f := by
  have hnames : fieldNames.Nodup := by decide
  have hdefaults : (defaults.map (·.1)).Nodup := by decide
  obtain ⟨hfields, hfound⟩ := Json.fields?_arranges (f.names_members entries) hnames h
  simp only [members, List.forall_mem_cons, List.not_mem_nil, false_implies, implies_true] at hfound
  obtain ⟨hsession, htag, hstart, hlast, hbytes, hpartial, hseq, htable, hdue, -⟩ := hfound
  have hentry : Json.texts? (Json.record (entries.map fun e => (e.1, Json.text e.2))) = some f.fields :=
    Json.texts?_perm hentries
  have hnumber : Json.optionalNumber? (f.lastSeq.elim Json.null Json.number) = some f.lastSeq := by
    cases f.lastSeq with
    | none => rfl
    | some n => rfl
  rw [ofJson?, hfields]
  simp only [fieldNames, List.map_cons, List.map_nil]
  rw [Json.required_found _ hsession (by decide), Json.required_found _ htag (by decide),
    Json.required_found _ hstart (by decide), Json.required_found _ hlast (by decide),
    Json.required_found _ hbytes (by decide),
    Json.defaulted_found _ Json.bool? hpartial hdefaults (List.mem_of_getElem? (i := 0) rfl) rfl,
    Json.defaulted_found _ Json.optionalNumber? hseq hdefaults (List.mem_of_getElem? (i := 1) rfl) rfl,
    Json.defaulted_found Dict.empty Json.texts? htable hdefaults
      (List.mem_of_getElem? (i := 2) rfl) rfl,
    Json.defaulted_found _ Json.number? hdue hdefaults (List.mem_of_getElem? (i := 3) rfl) rfl, hnumber,
    hentry]
  rfl

/-- A fragment whose due time is left out is due at every time. -/
theorem isDue_of_left_out (h : Json.Arranges (f.members entries) defaults ms)
    (hout : "expires_at" ∉ ms.map (·.1)) (now : UInt64) : f.isDue now = true := by
  obtain ⟨kept, strangers, hperm, -, hdefault, -⟩ := h
  have hown : ("expires_at", Json.number f.due) ∈ f.members entries := List.mem_of_getElem? (i := 8) rfl
  have hkept : ("expires_at", Json.number f.due) ∉ kept := fun hmem =>
    hout (List.mem_map.2 ⟨_, hperm.mem_iff.2 (List.mem_append_left strangers hmem), rfl⟩)
  have hdue : f.due = 0 := by
    have hmem := hdefault _ hown hkept
    simpa [defaults, Json.number] using hmem
  rw [isDue, hdue]
  exact decide_eq_true UInt64.zero_le

theorem ofJson?_nameless {members : List (Option String × Json)} {v : Json} (h : (none, v) ∈ members) :
    ofJson? (.object members) = none := by
  simp only [ofJson?, Json.fields?_of_nameless h]

end Fragment

namespace RegionEntry

/-- The members of a region entry. -/
def members (e : RegionEntry) : List (String × Json) :=
  [("region", Json.text e.region), ("expires_at", Json.number e.due)]

/-- A region entry is read from every arrangement of its members. -/
theorem ofJson?_arranges {e : RegionEntry} {ms : List (String × Json)}
    (h : Json.Arranges e.members [] ms) : ofJson? (Json.record ms) = some e := by
  have hnames : e.members.map (·.1) = ["region", "expires_at"] := rfl
  obtain ⟨hfields, hfound⟩ := Json.fields?_arranges hnames (by decide) h
  simp only [members, List.forall_mem_cons, List.not_mem_nil, false_implies, implies_true] at hfound
  obtain ⟨hregion, hdue, -⟩ := hfound
  rw [ofJson?, hfields]
  simp only [List.map_cons, List.map_nil]
  rw [Json.required_found _ hregion (by decide), Json.required_found _ hdue (by decide)]
  rfl

theorem ofJson?_nameless {members : List (Option String × Json)} {v : Json} (h : (none, v) ∈ members) :
    ofJson? (.object members) = none := by
  simp only [ofJson?, Json.fields?_of_nameless h]

end RegionEntry

namespace Usage

/-- The members of a usage report. -/
def members (u : Usage) : List (String × Json) :=
  [("bytes_transferred", Json.number u.bytes), ("page_views", Json.number u.pageViews),
    ("https_requests", Json.number u.httpsRequests)]

/-- A usage report is read from every arrangement of its members, of which every zero may be left
out. -/
theorem ofJson?_arranges {u : Usage} {ms : List (String × Json)}
    (h : Json.Arranges u.members (members {}) ms) : ofJson? (Json.record ms) = some u := by
  have hnames : u.members.map (·.1) = ["bytes_transferred", "page_views", "https_requests"] := rfl
  have hdefaults : ((members {}).map (·.1)).Nodup := by decide
  obtain ⟨hfields, hfound⟩ := Json.fields?_arranges hnames (by decide) h
  simp only [members, List.forall_mem_cons, List.not_mem_nil, false_implies, implies_true] at hfound
  obtain ⟨hbytes, hviews, hrequests, -⟩ := hfound
  rw [ofJson?, hfields]
  simp only [List.map_cons, List.map_nil]
  rw [Json.defaulted_found 0 Json.number? hbytes hdefaults (List.mem_of_getElem? (i := 0) rfl) rfl,
    Json.defaulted_found 0 Json.number? hviews hdefaults (List.mem_of_getElem? (i := 1) rfl) rfl,
    Json.defaulted_found 0 Json.number? hrequests hdefaults (List.mem_of_getElem? (i := 2) rfl) rfl]
  rfl

theorem ofJson?_nameless {members : List (Option String × Json)} {v : Json} (h : (none, v) ∈ members) :
    ofJson? (.object members) = none := by
  simp only [ofJson?, Json.fields?_of_nameless h]

end Usage

/-- Readers accept every layout of every arrangement: the members of a fragment, of a region entry and
of a usage report may come in any order, among members with other names that hold any value, with
blanks between the tokens and without those that have their default, and are read as the same value. A
fragment without its due time is due at every time. A name that spells no text is not accepted. -/
theorem every_layout_is_read :
    (∀ (f : Fragment) (entries : List (String × String)) (ms : List (String × Json)) (text : String),
      entries.Perm f.fields.toList → Json.Arranges (f.members entries) Fragment.defaults ms →
      Json.Writes text (Json.record ms) →
      Fragment.decode? (Utf8.encode text) = some f ∧
        ("expires_at" ∉ ms.map (·.1) → ∀ now, f.isDue now = true)) ∧
    (∀ (e : RegionEntry) (ms : List (String × Json)) (text : String),
      Json.Arranges e.members [] ms → Json.Writes text (Json.record ms) →
      RegionEntry.decode? (Utf8.encode text) = some e) ∧
    (∀ (u : Usage) (ms : List (String × Json)) (text : String),
      Json.Arranges u.members (Usage.members {}) ms → Json.Writes text (Json.record ms) →
      Usage.decode? (Utf8.encode text) = some u) ∧
    ∀ (ms : List (Option String × Json)) (v : Json) (text : String), (none, v) ∈ ms →
      Json.Writes text (.object ms) →
      Fragment.decode? (Utf8.encode text) = none ∧ RegionEntry.decode? (Utf8.encode text) = none ∧
        Usage.decode? (Utf8.encode text) = none := by
  refine ⟨?_, ?_, ?_, ?_⟩
  · intro f entries ms text hentries hms htext
    rw [Fragment.decode?, Json.parse?_writes htext]
    exact ⟨Fragment.ofJson?_arranges hentries hms, Fragment.isDue_of_left_out hms⟩
  · intro e ms text hms htext
    rw [RegionEntry.decode?, Json.parse?_writes htext]
    exact RegionEntry.ofJson?_arranges hms
  · intro u ms text hms htext
    rw [Usage.decode?, Json.parse?_writes htext]
    exact Usage.ofJson?_arranges hms
  · intro ms v text hnameless htext
    have hparse := Json.parse?_writes htext
    rw [Fragment.decode?, RegionEntry.decode?, Usage.decode?, hparse]
    exact ⟨Fragment.ofJson?_nameless hnameless, RegionEntry.ofJson?_nameless hnameless,
      Usage.ofJson?_nameless hnameless⟩

/-- A fragment as another version may write it. A member that is not known comes first and twice, the
others stand in another order, and those that have their default are left out. -/
def foreignMembers : List (String × Json) :=
  [("x", .array [.atom (.number none), .object []]), ("x", Json.null),
    ("fields", Json.record [("sponsor", Json.text "b"), ("channel", Json.text "a")]),
    ("bytes_transferred", Json.number 7), ("end_time", Json.number 0), ("start_time", Json.number 0),
    ("fragment_id", Json.text "00"), ("session_id", Json.text "06")]

/-- The fragment that has these members. -/
def foreignFragment : Fragment :=
  { Fragment.opened "06" "00" (Dict.ofList [("channel", "a"), ("sponsor", "b")]) 0 with bytes := 7 }

/-- One layout of these members, with an escape in a name, a number that no word holds, and blanks. -/
def foreignText : String :=
  " \x7b\"\\u0078\" : [1.5e3,\x7b\x7d],\"x\":null," ++
    "\"fields\":\x7b\"sponsor\":\"b\",\"channel\":\"a\"\x7d,\"bytes_transferred\":7,\"end_time\":0," ++
    "\"start_time\":0,\"fragment_id\":\"00\",\"session_id\":\"06\"\x7d"

theorem arranges_foreignMembers :
    Json.Arranges (foreignFragment.members [("sponsor", "b"), ("channel", "a")]) Fragment.defaults
      foreignMembers := by
  refine ⟨foreignMembers.reverse.take 6, foreignMembers.reverse.drop 6,
    List.reverse_perm foreignMembers.reverse, ?_, ?_, ?_⟩
  · exact .cons_cons _ (.cons_cons _ (.cons_cons _ (.cons_cons _ (.cons_cons _
      (.cons _ (.cons _ (.cons_cons _ (.cons _ .slnil))))))))
  · simp [foreignMembers, foreignFragment, Fragment.members, Fragment.opened, Fragment.defaults]
  · simp [foreignMembers, foreignFragment, Fragment.members, Fragment.opened]

theorem writes_foreignText : Json.Writes foreignText (Json.record foreignMembers) := by
  have hnone : Json.Blanks [] := nofun
  have hblank : Json.Blanks [' '] := fun c hc => .inl (List.mem_singleton.1 hc)
  have hname : Json.Token.Spelled (.atom (.text (some "x")))
      ['"', '\\', 'u', '0', '0', '7', '8', '"'] :=
    .text (.cons (.unit (List.all_eq_true.1 (by decide))) .nil) (.unit (by decide) .nil)
  have hnumber : Json.Token.Spelled (.atom (.number none)) ['1', '.', '5', 'e', '3'] :=
    .number ⟨false, ['1'], some ['5'], some ⟨'e', none, ['3'], .inl rfl, nofun, rfl⟩, rfl, by decide,
      fun _ hds => by cases hds; rfl⟩
  -- The layout is the printed one from the sixth token on.
  have hrest := Json.laid_chars ((Json.record foreignMembers).tokens.drop 5)
  have harray := Json.Laid.cons hblank (.mark (c := '[') (t := .openArray) (by decide))
    (Json.Laid.cons hnone hnumber hrest)
  have hobject := Json.Laid.cons hblank (.mark (c := '\x7b') (t := .openObject) (by decide))
    (Json.Laid.cons hnone hname
      (Json.Laid.cons hblank (.mark (c := ':') (t := .colon) (by decide)) harray))
  have htext : foreignText.toList = [' ', '\x7b', '"', '\\', 'u', '0', '0', '7', '8', '"', ' ', ':', ' ',
      '[', '1', '.', '5', 'e', '3'] ++
      ((Json.record foreignMembers).tokens.drop 5).flatMap Json.Token.chars := by
    decide +kernel
  rw [Json.Writes, htext]
  exact hobject

/-- A fragment of another version is read and is due, and so are a region entry and a usage report;
a report whose one name spells no text is not. -/
theorem reads_foreign_layouts :
    Fragment.decode? (Utf8.encode foreignText) = some foreignFragment ∧
    (∀ now, foreignFragment.isDue now = true) ∧
    RegionEntry.decode? (Utf8.encode "\x7b\"expires_at\":9,\"region\":\"NZ\"\x7d") = some ⟨"NZ", 9⟩ ∧
    Usage.decode? (Utf8.encode "\x7b\"page_views\":2\x7d") = some { pageViews := 2 } ∧
    Usage.decode? (Utf8.encode "\x7b\"\\ud800\":1\x7d") = none := by
  obtain ⟨hfragment, hregion, husage, hnameless⟩ := every_layout_is_read
  obtain ⟨hread, hdue⟩ := hfragment foreignFragment [("sponsor", "b"), ("channel", "a")] foreignMembers
    foreignText (by decide) arranges_foreignMembers writes_foreignText
  refine ⟨hread, hdue (by simp [foreignMembers]), ?_, ?_, ?_⟩
  · have hwrites : Json.Writes "\x7b\"expires_at\":9,\"region\":\"NZ\"\x7d" _ :=
      Json.writes_render (Json.record (RegionEntry.members ⟨"NZ", 9⟩).reverse)
    exact hregion ⟨"NZ", 9⟩ _ _ (Json.arranges_of_perm (List.reverse_perm _)) hwrites
  · have hwrites : Json.Writes "\x7b\"page_views\":2\x7d" _ :=
      Json.writes_render (Json.record [("page_views", Json.number 2)])
    refine husage { pageViews := 2 } _ _ ⟨_, [], .refl _, .cons _ (.cons_cons _ (.cons _ .slnil)), ?_,
      nofun⟩ hwrites
    simp [Usage.members]
  · have hwrites : Json.Writes "\x7b\"\\ud800\":1\x7d" _ :=
      Json.writes_render (.object [(none, Json.number 1)])
    exact (hnameless _ _ _ List.mem_cons_self hwrites).2.2

/-- A fragment with one more member is not read if the name of that member is half of a character. -/
theorem refuses_half_a_character :
    ∃ text, text = "\x7b\"session_id\":\"06\",\"fragment_id\":\"00\",\"start_time\":5,\"end_time\":5," ++
        "\"bytes_transferred\":0,\"partial\":false,\"last_seq\":null,\"fields\":\x7b\x7d," ++
        "\"expires_at\":5,\"\\ud800\":1\x7d" ∧
      Json.Writes text
        (.object (((Fragment.opened "06" "00" Dict.empty 5).members []).map (fun e => (some e.1, e.2)) ++
          [(none, Json.number 1)])) ∧
      Fragment.decode? (Utf8.encode text) = none := by
  have hwrites := Json.writes_render
    (.object (((Fragment.opened "06" "00" Dict.empty 5).members []).map (fun e => (some e.1, e.2)) ++
      [(none, Json.number 1)]))
  refine ⟨_, ?_, hwrites, ?_⟩
  · decide +kernel
  · rw [Fragment.decode?, Json.parse?_writes hwrites, Option.bind_some]
    exact Fragment.ofJson?_nameless (List.mem_append_right _ List.mem_cons_self)

end Gatehouse
