import Gatehouse.Settings.Basic
import Gatehouse.Toml.Printer

/-! # Writing settings

The table that holds some settings. Paths that are not set are left out. -/

namespace Gatehouse

namespace Settings

/-- A table with a header of its own. -/
def group (entries : Toml.Entries) : Toml := .table .header entries

/-- The entry of a path that may be missing. -/
def pathEntry (key : String) (path : Option String) : Toml.Entries :=
  match path with
  | none => []
  | some p => [(key, .string p)]

/-- A table of strings. -/
def ofStrings (d : Dict String) : Toml := group (d.toList.map fun e => (e.1, .string e.2))

/-- A number of sixty-four bits. -/
def ofWord (n : UInt64) : Toml := .integer n.toNat

namespace StoreKind

/-- The name of a kind of store. -/
def name : StoreKind → String
  | .memory => "memory"
  | .database => "sqlite"

end StoreKind

/-- A peer server as a table. -/
def PeerEntry.toToml (p : PeerEntry) : Toml :=
  .table .inline
    [("ip_address", .string p.address),
      ("web_server_port", .integer p.port.toNat),
      ("web_server_secret", .string p.secret),
      ("certificate", .string p.certificate)]

/-- A home page as a table. -/
def HomePage.toToml (p : HomePage) : Toml :=
  .table .inline [("region", .string p.region), ("url", .string p.url)]

/-- A sponsor as a table. -/
def Sponsor.toToml (s : Sponsor) : Toml :=
  .table .inline
    [("sponsor_id", .string s.id), ("home_pages", .array (s.pages.map HomePage.toToml))]

/-- A published version as a table. -/
def Upgrade.toToml (u : Upgrade) : Toml :=
  .table .inline
    [("propagation_channel_id", .string u.channel), ("client_version", .integer u.version.toNat)]

/-- The entries of a settings file. -/
def toToml (s : Settings) : Toml.Entries :=
  [("server", group
      [("listen_addr", .string s.server.listen),
        ("ip_address", .string s.server.address),
        ("web_server_secret", .string s.server.secret),
        ("max_body_bytes", .integer s.server.maxBody)]),
    ("sessions", group
      [("store", .string s.sessions.store.name),
        ("sqlite_path", .string s.sessions.databasePath),
        ("fragment_ttl_secs", ofWord s.sessions.fragmentWindow),
        ("disconnect_ttl_secs", ofWord s.sessions.disconnectWindow),
        ("sweep_interval_ms", ofWord s.sessions.sweepMillis),
        ("geo_ttl_secs", ofWord s.sessions.regionWindow)]),
    ("psk", group
      (("length_bytes", .integer s.keys.length) :: pathEntry "secrets_path" s.keys.secretsPath)),
    ("stats", group (pathEntry "records_path" s.statsPath)),
    ("discovery", group [("servers", .array (s.peers.map PeerEntry.toToml))]),
    ("sponsors", .array (s.sponsors.map Sponsor.toToml)),
    ("upgrades", .array (s.upgrades.map Upgrade.toToml)),
    ("geo", group [("prefixes", ofStrings s.regions)]),
    ("auth", group
      [("user_prefix", .string s.login.userStem),
        ("users", ofStrings s.login.users),
        ("session_id_bytes", .integer s.login.sessionBytes),
        ("password_bytes", .integer s.login.passwordBytes)]),
    ("download", group [("path", .string s.downloads)])]

/-- The text of a settings file. -/
def render (s : Settings) : String := Toml.render s.toToml

end Settings

end Gatehouse
