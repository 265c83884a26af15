import Gatehouse.Files.Path
import Gatehouse.Settings.Basic
import Gatehouse.Toml.Basic
import Gatehouse.Toml.Document

/-! # Reading settings

A settings file holds one table for each group of settings. What it leaves out keeps its default;
only the entries of lists must be complete. -/

namespace Gatehouse

namespace Settings

/-- The settings that apply without a file, given the directory for data. -/
def defaults (dataDirectory : String) : Settings where
  sessions := { databasePath := Path.join dataDirectory "fragments.db" }
  downloads := Path.join dataDirectory "download"

/-- The bound on whole numbers of sixty-four bits. -/
def wordBound : Nat := UInt64.size

/-- Read a whole number of sixty-four bits. -/
def word? (v : Toml) : Option UInt64 := (Toml.below? wordBound v).map UInt64.ofNat

/-- Read the settings of the client-facing server. -/
def server? (d : Server) (v : Toml) : Option Server :=
  match Toml.fields? ["listen_addr", "ip_address", "web_server_secret", "max_body_bytes"] v with
  | some [listen, address, secret, maxBody] => do
      return {
        listen := ← Toml.defaulted d.listen Toml.string? listen
        address := ← Toml.defaulted d.address Toml.string? address
        secret := ← Toml.defaulted d.secret Toml.string? secret
        maxBody := ← Toml.defaulted d.maxBody (Toml.below? wordBound) maxBody }
  | _ => none

/-- Read the kind of the store. -/
def storeKind? (v : Toml) : Option StoreKind :=
  match Toml.choice? v with
  | some "memory" => some .memory
  | some "sqlite" => some .database
  | _ => none

/-- Read the settings of session accounting. -/
def sessions? (d : Sessions) (v : Toml) : Option Sessions :=
  match Toml.fields? ["store", "sqlite_path", "fragment_ttl_secs", "disconnect_ttl_secs",
      "sweep_interval_ms", "geo_ttl_secs"] v with
  | some [store, databasePath, fragmentWindow, disconnectWindow, sweepMillis, regionWindow] => do
      return {
        store := ← Toml.defaulted d.store storeKind? store
        databasePath := ← Toml.defaulted d.databasePath Toml.string? databasePath
        fragmentWindow := ← Toml.defaulted d.fragmentWindow word? fragmentWindow
        disconnectWindow := ← Toml.defaulted d.disconnectWindow word? disconnectWindow
        sweepMillis := ← Toml.defaulted d.sweepMillis word? sweepMillis
        regionWindow := ← Toml.defaulted d.regionWindow word? regionWindow }
  | _ => none

/-- Read the settings of the rotating key. -/
def keys? (d : Keys) (v : Toml) : Option Keys :=
  match Toml.fields? ["length_bytes", "secrets_path"] v with
  | some [length, secretsPath] => do
      return {
        length := ← Toml.defaulted d.length (Toml.below? wordBound) length
        secretsPath := ← Toml.defaulted d.secretsPath (fun v => (Toml.string? v).map some)
          secretsPath }
  | _ => none

/-- Read where stats events are written. -/
def stats? (d : Option String) (v : Toml) : Option (Option String) :=
  match Toml.fields? ["records_path"] v with
  | some [path] => Toml.defaulted d (fun v => (Toml.string? v).map some) path
  | _ => none

/-- Read a peer server. -/
def peer? (v : Toml) : Option PeerEntry :=
  match Toml.fields? ["ip_address", "web_server_port", "web_server_secret", "certificate"] v with
  | some [address, port, secret, certificate] => do
      return {
        address := ← Toml.required Toml.string? address
        port := UInt16.ofNat (← Toml.required (Toml.below? UInt16.size) port)
        secret := ← Toml.required Toml.string? secret
        certificate := ← Toml.required Toml.string? certificate }
  | _ => none

/-- Read the peer servers. -/
def peers? (d : List PeerEntry) (v : Toml) : Option (List PeerEntry) :=
  match Toml.fields? ["servers"] v with
  | some [servers] => Toml.defaulted d (Toml.list? peer?) servers
  | _ => none

/-- Read a home page. -/
def homePage? (v : Toml) : Option HomePage :=
  match Toml.fields? ["region", "url"] v with
  | some [region, url] => do
      return {
        region := ← Toml.required Toml.string? region
        url := ← Toml.required Toml.string? url }
  | _ => none

/-- Read a sponsor. -/
def sponsor? (v : Toml) : Option Sponsor :=
  match Toml.fields? ["sponsor_id", "home_pages"] v with
  | some [id, pages] => do
      return {
        id := ← Toml.required Toml.string? id
        pages := ← Toml.defaulted [] (Toml.list? homePage?) pages }
  | _ => none

/-- Read a published version. -/
def upgrade? (v : Toml) : Option Upgrade :=
  match Toml.fields? ["propagation_channel_id", "client_version"] v with
  | some [channel, version] => do
      return {
        channel := ← Toml.required Toml.string? channel
        version := UInt32.ofNat (← Toml.required (Toml.below? UInt32.size) version) }
  | _ => none

/-- Read the rules on regions. -/
def regions? (d : Dict String) (v : Toml) : Option (Dict String) :=
  match Toml.fields? ["prefixes"] v with
  | some [rules] => Toml.defaulted d Toml.strings? rules
  | _ => none

/-- Read the settings of tunnel logins. -/
def login? (d : Login) (v : Toml) : Option Login :=
  match Toml.fields? ["user_prefix", "users", "session_id_bytes", "password_bytes"] v with
  | some [userStem, users, sessionBytes, passwordBytes] => do
      return {
        userStem := ← Toml.defaulted d.userStem Toml.string? userStem
        users := ← Toml.defaulted d.users Toml.strings? users
        sessionBytes := ← Toml.defaulted d.sessionBytes (Toml.below? wordBound) sessionBytes
        passwordBytes := ← Toml.defaulted d.passwordBytes (Toml.below? wordBound) passwordBytes }
  | _ => none

/-- Read where client builds are kept. -/
def downloads? (d : String) (v : Toml) : Option String :=
  match Toml.fields? ["path"] v with
  | some [path] => Toml.defaulted d Toml.string? path
  | _ => none

/-- Read settings, given the ones that apply where the table is silent. -/
def ofToml? (d : Settings) (v : Toml) : Option Settings :=
  match Toml.fields? ["server", "sessions", "psk", "stats", "discovery", "sponsors", "upgrades",
      "geo", "auth", "download"] v with
  | some [server, sessions, keys, stats, discovery, sponsors, upgrades, regions, login,
      downloads] => do
      return {
        server := ← Toml.defaulted d.server (server? d.server) server
        sessions := ← Toml.defaulted d.sessions (sessions? d.sessions) sessions
        keys := ← Toml.defaulted d.keys (keys? d.keys) keys
        statsPath := ← Toml.defaulted d.statsPath (stats? d.statsPath) stats
        peers := ← Toml.defaulted d.peers (peers? d.peers) discovery
        sponsors := ← Toml.defaulted d.sponsors (Toml.list? sponsor?) sponsors
        upgrades := ← Toml.defaulted d.upgrades (Toml.list? upgrade?) upgrades
        regions := ← Toml.defaulted d.regions (regions? d.regions) regions
        login := ← Toml.defaulted d.login (login? d.login) login
        downloads := ← Toml.defaulted d.downloads (downloads? d.downloads) downloads }
  | _ => none

/-- Read the text of a settings file. -/
def parse? (d : Settings) (s : String) : Option Settings :=
  match Toml.parse? s with
  | none => none
  | some entries => d.ofToml? (.table .header entries)

end Settings

end Gatehouse
