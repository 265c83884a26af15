import Gatehouse.Proofs.Files
import Gatehouse.Proofs.Text.Utf8
import Gatehouse.Proofs.Toml.Document
import Gatehouse.Settings.Environment

/-!
# The file of defaults

Settings without lists are read back from the file they are written to, whatever the paths and texts
in them are. The defaults are such settings, and so a file that holds them says what would be said
without it.
-/

namespace Gatehouse

namespace Toml

theorem below?_natural {n bound : Nat} (h : n < bound) : below? bound (.integer n) = some n :=
  if_pos h

theorem stringEntries?_map (l : List (String × String)) :
    stringEntries? (l.map fun e => (e.1, .string e.2)) = some l := by
  induction l with
  | nil => rfl
  | cons e l ih => simp [stringEntries?, ih]

end Toml

namespace Settings

open Toml (Plain Sound built own builtSections headless)

variable {n : Nat}

section Groups

variable {entries : Toml.Entries}

/-! ## Tables of plain entries -/

theorem sound_group (hkeys : (entries.map Prod.fst).Nodup) (h : ∀ e ∈ entries, Plain e.2) :
    Sound (n + 1) (group entries) :=
  .table hkeys fun e he => .plain (h e he)

theorem built_group (h : ∀ e ∈ entries, Plain e.2) : built (group entries) = group entries := by
  rw [group, built, headless, Toml.own_of_plain h, Toml.builtSections_of_plain h, List.append_nil]
  cases entries <;> rfl

end Groups

theorem plain_ofStrings (d : Dict String) :
    ∀ e ∈ d.toList.map (fun e => (e.1, Toml.string e.2)), Plain e.2 := by
  intro e he
  obtain ⟨e, -, rfl⟩ := List.mem_map.1 he
  exact .string e.2

theorem built_ofStrings (d : Dict String) : built (ofStrings d) = ofStrings d :=
  built_group (plain_ofStrings d)

theorem sound_ofStrings (d : Dict String) : Sound (n + 1) (ofStrings d) := by
  refine sound_group ?_ (plain_ofStrings d)
  rw [List.map_map]
  exact Dict.nodup_of_ordered d.ordered

theorem strings?_ofStrings (d : Dict String) : Toml.strings? (ofStrings d) = some d := by
  rw [ofStrings, group, Toml.strings?, Toml.stringEntries?_map, Option.map_some, Dict.ofList_toList]

theorem plain_pathEntry (key : String) (path : Option String) :
    ∀ e ∈ pathEntry key path, Plain e.2 := by
  cases path with
  | none => exact nofun
  | some path => simp [pathEntry, Plain.string]

/-! ## The tables of settings -/

/-- Settings without lists, whose numbers have room in a file. -/
structure Simple (s : Settings) : Prop where
  peers : s.peers = []
  sponsors : s.sponsors = []
  upgrades : s.upgrades = []
  maxBody : s.server.maxBody < 2 ^ 63
  fragmentWindow : s.sessions.fragmentWindow.toNat < 2 ^ 63
  disconnectWindow : s.sessions.disconnectWindow.toNat < 2 ^ 63
  sweepMillis : s.sessions.sweepMillis.toNat < 2 ^ 63
  regionWindow : s.sessions.regionWindow.toNat < 2 ^ 63
  keyLength : s.keys.length < 2 ^ 63
  sessionBytes : s.login.sessionBytes < 2 ^ 63
  passwordBytes : s.login.passwordBytes < 2 ^ 63

/-- The entries of the table of the server. -/
def Server.entries (s : Server) : Toml.Entries :=
  [("listen_addr", .string s.listen), ("ip_address", .string s.address),
    ("web_server_secret", .string s.secret), ("max_body_bytes", .integer s.maxBody)]

/-- The entries of the table of session accounting. -/
def Sessions.entries (s : Sessions) : Toml.Entries :=
  [("store", .string s.store.name), ("sqlite_path", .string s.databasePath),
    ("fragment_ttl_secs", ofWord s.fragmentWindow), ("disconnect_ttl_secs", ofWord s.disconnectWindow),
    ("sweep_interval_ms", ofWord s.sweepMillis), ("geo_ttl_secs", ofWord s.regionWindow)]

/-- The entries of the table of the rotating key. -/
def Keys.entries (s : Keys) : Toml.Entries :=
  ("length_bytes", .integer s.length) :: pathEntry "secrets_path" s.secretsPath

/-- The entries of the table of tunnel logins, as they come back: the plain ones first. -/
def Login.entries (s : Login) : Toml.Entries :=
  [("user_prefix", .string s.userStem), ("session_id_bytes", .integer s.sessionBytes),
    ("password_bytes", .integer s.passwordBytes), ("users", ofStrings s.users)]

/-- A table that only holds a table of strings comes back as one that is implied. -/
theorem built_group_ofStrings (key : String) (d : Dict String) :
    built (group [(key, ofStrings d)]) = .table .implied [(key, ofStrings d)] := by
  have hsection : Toml.isSection (ofStrings d) = true := rfl
  rw [group, built, headless, Toml.own_cons_section hsection,
    Toml.builtSections_cons_section hsection, built_ofStrings]
  rfl

theorem built_login (s : Login) :
    built (group [("user_prefix", .string s.userStem), ("users", ofStrings s.users),
      ("session_id_bytes", .integer s.sessionBytes), ("password_bytes", .integer s.passwordBytes)]) =
        group s.entries := by
  have hsection : Toml.isSection (ofStrings s.users) = true := rfl
  have hstring : Toml.isSection (.string s.userStem) = false := rfl
  rw [group, built, headless, Toml.own_cons_plain hstring, Toml.own_cons_section hsection,
    Toml.builtSections_cons_plain hstring, Toml.builtSections_cons_section hsection, built_ofStrings]
  rfl

variable {s d : Settings}

namespace Simple

variable (h : s.Simple)

include h

theorem plain_server : ∀ e ∈ s.server.entries, Plain e.2 := by
  simp only [Server.entries, List.forall_mem_cons]
  exact ⟨.string _, .string _, .string _, .natural h.maxBody, nofun⟩

theorem plain_sessions : ∀ e ∈ s.sessions.entries, Plain e.2 := by
  simp only [Sessions.entries, List.forall_mem_cons]
  exact ⟨.string _, .string _, .natural h.fragmentWindow, .natural h.disconnectWindow,
    .natural h.sweepMillis, .natural h.regionWindow, nofun⟩

theorem plain_keys : ∀ e ∈ s.keys.entries, Plain e.2 := by
  rw [Keys.entries, List.forall_mem_cons]
  exact ⟨.natural h.keyLength, plain_pathEntry _ _⟩

theorem toToml_eq : s.toToml =
    [("server", group s.server.entries), ("sessions", group s.sessions.entries),
      ("psk", group s.keys.entries), ("stats", group (pathEntry "records_path" s.statsPath)),
      ("discovery", group [("servers", .array [])]), ("sponsors", .array []), ("upgrades", .array []),
      ("geo", group [("prefixes", ofStrings s.regions)]),
      ("auth", group [("user_prefix", .string s.login.userStem),
        ("users", ofStrings s.login.users), ("session_id_bytes", .integer s.login.sessionBytes),
        ("password_bytes", .integer s.login.passwordBytes)]),
      ("download", group [("path", .string s.downloads)])] := by
  rw [toToml, h.peers, h.sponsors, h.upgrades]
  rfl

/-- The entries of simple settings may stand in a document. -/
theorem sound : Sound (Toml.nesting + 1) (.table .header s.toToml) := by
  rw [h.toToml_eq]
  refine .table (by simp) ?_
  simp only [List.forall_mem_cons]
  refine ⟨sound_group (by simp [Server.entries]) h.plain_server,
    sound_group (by simp [Sessions.entries]) h.plain_sessions, sound_group ?_ h.plain_keys,
    sound_group ?_ (plain_pathEntry _ _), sound_group (by simp) ?_, .plain .empty, .plain .empty,
    .table (by simp) ?_, .table (by simp) ?_, sound_group (by simp) ?_, nofun⟩
  · cases hpath : s.keys.secretsPath <;> simp [Keys.entries, hpath, pathEntry]
  · cases s.statsPath <;> simp [pathEntry]
  · simp [Plain.empty]
  · simp [sound_ofStrings]
  · simp only [List.forall_mem_cons]
    exact ⟨.plain (.string _), sound_ofStrings _, .plain (.natural h.sessionBytes),
      .plain (.natural h.passwordBytes), nofun⟩
  · simp [Plain.string]

/-- How simple settings come back from a file. -/
theorem built_toToml : own s.toToml ++ builtSections s.toToml =
    [("sponsors", .array []), ("upgrades", .array []), ("server", group s.server.entries),
      ("sessions", group s.sessions.entries), ("psk", group s.keys.entries),
      ("stats", group (pathEntry "records_path" s.statsPath)),
      ("discovery", group [("servers", .array [])]),
      ("geo", .table .implied [("prefixes", ofStrings s.regions)]),
      ("auth", group s.login.entries), ("download", group [("path", .string s.downloads)])] := by
  have hgroup : ∀ entries, Toml.isSection (group entries) = true := fun _ => rfl
  have harray : Toml.isSection (.array []) = false := rfl
  have hdiscovery : built (group [("servers", .array [])]) = group [("servers", .array [])] :=
    built_group (by simp [Plain.empty])
  have hdownload : built (group [("path", .string s.downloads)]) =
      group [("path", .string s.downloads)] :=
    built_group (by simp [Plain.string])
  rw [h.toToml_eq]
  simp only [Toml.own_cons_plain, Toml.own_cons_section, Toml.builtSections_cons_plain,
    Toml.builtSections_cons_section, hgroup, harray, built_group h.plain_server,
    built_group h.plain_sessions, built_group h.plain_keys, built_group (plain_pathEntry _ _),
    built_group_ofStrings, built_login, hdiscovery, hdownload]
  rfl

end Simple

/-! ## What is read -/

theorem server?_group (h : s.Simple) (d : Server) :
    server? d (group s.server.entries) = some s.server := by
  have hbound : s.server.maxBody < wordBound := Nat.lt_trans h.maxBody (by decide)
  simp [server?, Toml.fields?, group, Server.entries, List.lookup_cons, Toml.defaulted, Toml.string?,
    Toml.below?_natural hbound]

theorem word?_ofWord (w : UInt64) : word? (ofWord w) = some w := by
  have hbound : w.toNat < wordBound := w.toNat_lt
  rw [word?, ofWord, Toml.below?_natural hbound, Option.map_some, UInt64.ofNat_toNat]

theorem storeKind?_name (k : StoreKind) : storeKind? (.string k.name) = some k := by
  cases k <;> rfl

theorem sessions?_group (s d : Sessions) : sessions? d (group s.entries) = some s := by
  simp [sessions?, Toml.fields?, group, Sessions.entries, List.lookup_cons, Toml.defaulted,
    Toml.string?, word?_ofWord, storeKind?_name]

/-- A path is read if it was written, and else it is the one that applies anyway. -/
theorem keys?_group (h : s.Simple) {d : Keys} (hd : d.secretsPath = none) :
    keys? d (group s.keys.entries) = some s.keys := by
  have hbound : s.keys.length < wordBound := Nat.lt_trans h.keyLength (by decide)
  have hkeys : s.keys = ⟨s.keys.length, s.keys.secretsPath⟩ := rfl
  rw [hkeys]
  cases s.keys.secretsPath with
  | none =>
      simp [keys?, Toml.fields?, group, Keys.entries, pathEntry, List.lookup_cons, Toml.defaulted,
        Toml.below?_natural hbound, hd]
  | some path =>
      simp [keys?, Toml.fields?, group, Keys.entries, pathEntry, List.lookup_cons, Toml.defaulted,
        Toml.below?_natural hbound, Toml.string?]

theorem stats?_group (path : Option String) :
    stats? none (group (pathEntry "records_path" path)) = some path := by
  cases path <;>
    simp [stats?, Toml.fields?, group, pathEntry, List.lookup_cons, Toml.defaulted, Toml.string?]

theorem login?_group (h : s.Simple) (d : Login) : login? d (group s.login.entries) = some s.login := by
  have hsession : s.login.sessionBytes < wordBound := Nat.lt_trans h.sessionBytes (by decide)
  have hpassword : s.login.passwordBytes < wordBound := Nat.lt_trans h.passwordBytes (by decide)
  simp [login?, Toml.fields?, group, Login.entries, List.lookup_cons, Toml.defaulted, Toml.string?,
    Toml.below?_natural hsession, Toml.below?_natural hpassword, strings?_ofStrings]

theorem regions?_table (origin : Toml.Origin) (rules d : Dict String) :
    regions? d (.table origin [("prefixes", ofStrings rules)]) = some rules := by
  simp [regions?, Toml.fields?, List.lookup_cons, Toml.defaulted, strings?_ofStrings]

/-- Simple settings are read back from their file, by whoever sets no paths of their own. -/
theorem parse?_render (h : s.Simple) (hkeys : d.keys.secretsPath = none) (hstats : d.statsPath = none) :
    d.parse? s.render = some s := by
  have hpeers : peers? d.peers (group [("servers", .array [])]) = some s.peers := by
    rw [h.peers]
    rfl
  have hsponsors : Toml.list? sponsor? (.array []) = some s.sponsors := by
    rw [h.sponsors]
    rfl
  have hupgrades : Toml.list? upgrade? (.array []) = some s.upgrades := by
    rw [h.upgrades]
    rfl
  have hdownloads : downloads? d.downloads (group [("path", .string s.downloads)]) =
      some s.downloads := rfl
  rw [parse?, render, Toml.parse?_render h.sound, h.built_toToml]
  simp [ofToml?, Toml.fields?, List.lookup_cons, Toml.defaulted, server?_group h, sessions?_group,
    keys?_group h hkeys, hstats, stats?_group, login?_group h, hpeers, hsponsors, hupgrades,
    regions?_table, hdownloads]

/-! ## Defaults -/

theorem simple_defaults (dataDirectory : String) : (defaults dataDirectory).Simple where
  peers := rfl
  sponsors := rfl
  upgrades := rfl
  maxBody := by simp [defaults]
  fragmentWindow := by simp [defaults]
  disconnectWindow := by simp [defaults]
  sweepMillis := by simp [defaults]
  regionWindow := by simp [defaults]
  keyLength := by simp [defaults]
  sessionBytes := by simp [defaults]
  passwordBytes := by simp [defaults]

variable {e : Environment} {files files' : Files}

/-- A file of defaults says what is said without it. -/
theorem ofFile_of_node?
    (h : files.node? e.settingsPath = some (.file (Utf8.encode e.defaults.render))) :
    ofFile e files = .ok e.defaults := by
  have hpresent : files.present e.settingsPath = true := by simp [Files.present, h]
  have hread : files.read? e.settingsPath = some (Utf8.encode e.defaults.render) := by
    simp [Files.read?, h]
  have hparse : e.defaults.parse? e.defaults.render = some e.defaults :=
    parse?_render (simple_defaults _) rfl rfl
  simp [ofFile, hpresent, hread, Utf8.decode?_encode, hparse]

theorem node?_writeDefaults (hmissing : files.present e.settingsPath = false)
    (h : writeDefaults e files = .ok files') :
    files'.node? e.settingsPath = some (.file (Utf8.encode e.defaults.render)) := by
  simp only [writeDefaults, hmissing, Bool.false_eq_true, if_false] at h
  split at h
  · cases h
  · rename_i hwritten
    cases h
    obtain ⟨made, -, hmade⟩ := Option.bind_eq_some_iff.1 hwritten
    exact Files.node?_write? hmade

/-- Writing the defaults to a file that is missing changes nothing: the settings that apply, or the
reason why there are none, are those that applied without the file, and a second time nothing is
written. -/
theorem written_defaults_change_nothing (e : Environment) (files files' : Files)
    (hmissing : files.present e.settingsPath = false) (hwritten : writeDefaults e files = .ok files') :
    load e files' = load e files ∧ writeDefaults e files' = .ok files' ∧
      files'.read? e.settingsPath = some (Utf8.encode e.defaults.render) := by
  have hnode := node?_writeDefaults hmissing hwritten
  have hpresent : files'.present e.settingsPath = true := by simp [Files.present, hnode]
  have hfile : ofFile e files = .ok e.defaults := by simp [ofFile, hmissing]
  refine ⟨?_, ?_, ?_⟩
  · rw [load, load, hfile, ofFile_of_node? hnode]
  · rw [writeDefaults, hpresent]
    rfl
  · simp [Files.read?, hnode]

/-- An environment whose paths hold quotes, backslashes, line breaks and control characters. -/
def awkward : Environment :=
  ((Dict.empty.insert "WAYPOST_CONFIG" "settings.toml").insert "HOME" "").insert "XDG_DATA_HOME"
    "/a\"b'''c\\d\ne\x01f\tg\r"

theorem written_defaults_change_nothing_awkward :
    ({} : Files).present awkward.settingsPath = false ∧
      writeDefaults awkward {} =
        .ok (({} : Files).putFile "settings.toml" (Utf8.encode awkward.defaults.render)) ∧
      load awkward (({} : Files).putFile "settings.toml" (Utf8.encode awkward.defaults.render)) =
        load awkward {} := by
  have hpath : awkward.settingsPath = "settings.toml" := by
    simp [Environment.settingsPath, awkward]
  have hmissing : ({} : Files).present awkward.settingsPath = false := by
    rw [hpath]
    decide
  have hgoal : ({} : Files).fileGoal? "settings.toml" = some "settings.toml" := by decide
  have hwritten : writeDefaults awkward {} =
      .ok (({} : Files).putFile "settings.toml" (Utf8.encode awkward.defaults.render)) := by
    have hparents : ({} : Files).makeParents? "settings.toml" = some {} := by decide
    rw [writeDefaults, hmissing, hpath]
    simp [hparents, Files.write?, hgoal, Files.putFile]
  exact ⟨hmissing, hwritten, (written_defaults_change_nothing awkward {} _ hmissing hwritten).1⟩

end Settings

end Gatehouse
