import Gatehouse.Settings.Basic

/-! # What a handshake announces

The home pages of each sponsor by region, and the newest client version of each channel. -/

namespace Gatehouse

/-- Home pages by sponsor and region, and versions by channel. -/
structure Catalog where
  pages : Dict (Dict (List String))
  versions : Dict UInt32
  deriving DecidableEq

namespace Catalog

/-- The region whose pages are shown where a region has none of its own. -/
def anyRegion : String := "*"

/-- Add a page to the pages of its region. -/
def addPage (regions : Dict (List String)) (page : Settings.HomePage) : Dict (List String) :=
  regions.alter page.region (fun urls => urls.getD [] ++ [page.url])

/-- Add a sponsor's pages to those it has. -/
def addSponsor (pages : Dict (Dict (List String))) (s : Settings.Sponsor) :
    Dict (Dict (List String)) :=
  pages.alter s.id (fun regions => s.pages.foldl addPage (regions.getD Dict.empty))

/-- Note a version, unless a newer one is known for its channel. -/
def addUpgrade (versions : Dict UInt32) (u : Settings.Upgrade) : Dict UInt32 :=
  versions.alter u.channel fun known =>
    match known with
    | none => u.version
    | some v => if v < u.version then u.version else v

/-- The catalog of some settings. -/
def ofSettings (sponsors : List Settings.Sponsor) (upgrades : List Settings.Upgrade) : Catalog where
  pages := sponsors.foldl addSponsor Dict.empty
  versions := upgrades.foldl addUpgrade Dict.empty

/-- The pages of a sponsor in a region. -/
def homePages (c : Catalog) (sponsor region : String) : List String :=
  match c.pages.get? sponsor with
  | none => []
  | some regions =>
      match regions.get? region with
      | some urls => urls
      | none => (regions.get? anyRegion).getD []

/-- The version to upgrade to, if the channel has one newer than the client's. -/
def upgrade? (c : Catalog) (channel : String) (version : UInt32) : Option UInt32 :=
  match c.versions.get? channel with
  | some newest => if version < newest then some newest else none
  | none => none

end Catalog

end Gatehouse
