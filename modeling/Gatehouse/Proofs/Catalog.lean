import Gatehouse.Catalog
import Gatehouse.Dict.Lemmas
import Mathlib.Data.Set.Operations
import Mathlib.Order.Bounds.Defs

/-!
# What a catalog offers

A catalog is folded from settings that may name a sponsor, a region or a channel any number of times. A
region is entered with its first page, so no region is there without pages, and a channel is entered
with its first version and then keeps the greatest one. What a catalog offers can therefore be said of
the lists that it was made of.
-/

namespace Gatehouse

namespace Catalog

variable {sponsors : List Settings.Sponsor} {upgrades upgrades' : List Settings.Upgrade}
variable {channel : String} {version m n : UInt32}

/-! ## Pages -/

/-- The pages of a region among some pages, in their order. -/
def urlsIn (region : String) (pages : List Settings.HomePage) : List String :=
  (pages.filter (·.region == region)).map (·.url)

/-- The pages of a sponsor in a region: those of all its blocks, in the order of the settings. -/
def listedPages (sponsors : List Settings.Sponsor) (sponsor region : String) : List String :=
  (sponsors.filter (·.id == sponsor)).flatMap fun s => urlsIn region s.pages

/-- What a table holds for some pages, if it has no entry without any. -/
def held (urls : List String) : Option (List String) := if urls = [] then none else some urls

@[simp] theorem held_getD (urls : List String) : (held urls).getD [] = urls := by
  unfold held
  split
  case isTrue h => exact h.symm
  case isFalse => rfl

theorem held_of_ne_nil {urls : List String} (h : urls ≠ []) : held urls = some urls := if_neg h

/-- The regions of a sponsor; one that has none is like one that is not there. -/
def regionsOf (pages : Dict (Dict (List String))) (sponsor : String) : Dict (List String) :=
  (pages.get? sponsor).getD Dict.empty

/-- A page that is added comes last in its region and leaves the others alone. -/
theorem get?_addPage {regions : Dict (List String)} {region : String} {urls : List String}
    (h : regions.get? region = held urls) (page : Settings.HomePage) :
    (addPage regions page).get? region = held (urls ++ urlsIn region [page]) := by
  rw [addPage, Dict.get?_alter]
  by_cases hregion : region = page.region
  · subst hregion
    simp [urlsIn, h, held_of_ne_nil]
  · have hother : (page.region == region) = false := beq_false_of_ne (Ne.symm hregion)
    simp [urlsIn, h, hregion, hother]

theorem get?_addPages {region : String} (pages : List Settings.HomePage)
    {regions : Dict (List String)} {urls : List String} (h : regions.get? region = held urls) :
    (pages.foldl addPage regions).get? region = held (urls ++ urlsIn region pages) := by
  induction pages generalizing regions urls with
  | nil => simpa [urlsIn] using h
  | cons page rest ih =>
      rw [List.foldl_cons, ih (get?_addPage h page), List.append_assoc]
      simp only [urlsIn, ← List.map_append, ← List.filter_append, List.singleton_append]

/-- A block that is added brings its pages to its sponsor and leaves the others alone. -/
theorem regionsOf_addSponsor {pages : Dict (Dict (List String))} {sponsor region : String}
    {urls : List String} (h : (regionsOf pages sponsor).get? region = held urls)
    (s : Settings.Sponsor) :
    (regionsOf (addSponsor pages s) sponsor).get? region =
      held (urls ++ listedPages [s] sponsor region) := by
  by_cases hsponsor : sponsor = s.id
  · subst hsponsor
    have hadded := get?_addPages s.pages h
    simpa [regionsOf, addSponsor, listedPages] using hadded
  · have hother : (s.id == sponsor) = false := beq_false_of_ne (Ne.symm hsponsor)
    simpa [regionsOf, addSponsor, hsponsor, listedPages, hother] using h

theorem regionsOf_addSponsors {sponsor region : String} (sponsors : List Settings.Sponsor)
    {pages : Dict (Dict (List String))} {urls : List String}
    (h : (regionsOf pages sponsor).get? region = held urls) :
    (regionsOf (sponsors.foldl addSponsor pages) sponsor).get? region =
      held (urls ++ listedPages sponsors sponsor region) := by
  induction sponsors generalizing pages urls with
  | nil => simpa [listedPages] using h
  | cons s rest ih =>
      rw [List.foldl_cons, ih (regionsOf_addSponsor h s), List.append_assoc]
      simp only [listedPages, ← List.flatMap_append, ← List.filter_append, List.singleton_append]

theorem get?_ofSettings (sponsors : List Settings.Sponsor) (upgrades : List Settings.Upgrade)
    (sponsor region : String) : (regionsOf (ofSettings sponsors upgrades).pages sponsor).get? region =
      held (listedPages sponsors sponsor region) := by
  have hempty : (regionsOf Dict.empty sponsor).get? region = held [] := rfl
  exact regionsOf_addSponsors sponsors hempty

/-- The pages that are shown are those of the region, or else those for any region. -/
theorem homePages_eq (c : Catalog) (sponsor region : String) : c.homePages sponsor region =
    ((regionsOf c.pages sponsor).get? region).getD
      (((regionsOf c.pages sponsor).get? anyRegion).getD []) := by
  unfold homePages regionsOf
  cases c.pages.get? sponsor with
  | none => rfl
  | some regions =>
      dsimp only [Option.getD_some]
      cases regions.get? region with
      | none => rfl
      | some urls => rfl

/-! ## Versions -/

/-- The versions that are listed for a channel. -/
def listedVersions (upgrades : List Settings.Upgrade) (channel : String) : Set UInt32 :=
  {v | ⟨channel, v⟩ ∈ upgrades}

/-- What is known of a channel: nothing if no version is listed for it, and else the greatest one. -/
def Known (upgrades : List Settings.Upgrade) (channel : String) : Option UInt32 → Prop
  | none => ∀ v, v ∉ listedVersions upgrades channel
  | some m => IsGreatest (listedVersions upgrades channel) m

theorem mem_listedVersions_concat {u : Settings.Upgrade} {v : UInt32} :
    v ∈ listedVersions (upgrades ++ [u]) channel ↔
      v ∈ listedVersions upgrades channel ∨ channel = u.channel ∧ v = u.version := by
  cases u with
  | mk c w => simp [listedVersions]

/-- Of a channel that has a version more, the greater one is known. -/
theorem known_addUpgrade {versions : Dict UInt32} (u : Settings.Upgrade)
    (h : Known upgrades channel (versions.get? channel)) :
    Known (upgrades ++ [u]) channel ((addUpgrade versions u).get? channel) := by
  rw [addUpgrade, Dict.get?_alter]
  by_cases hchannel : channel = u.channel
  · subst hchannel
    rw [if_pos rfl]
    cases hbefore : versions.get? u.channel with
    | none =>
        rw [hbefore] at h
        refine ⟨mem_listedVersions_concat.2 (.inr ⟨rfl, rfl⟩), ?_⟩
        intro v hv
        rcases mem_listedVersions_concat.1 hv with hlisted | ⟨-, rfl⟩
        · exact absurd hlisted (h v)
        · exact UInt32.le_refl _
    | some newest =>
        rw [hbefore] at h
        dsimp only
        split
        case isTrue hnewer =>
          refine ⟨mem_listedVersions_concat.2 (.inr ⟨rfl, rfl⟩), ?_⟩
          intro v hv
          rcases mem_listedVersions_concat.1 hv with hlisted | ⟨-, rfl⟩
          · exact UInt32.le_trans (h.2 hlisted) (UInt32.le_of_lt hnewer)
          · exact UInt32.le_refl _
        case isFalse holder =>
          refine ⟨mem_listedVersions_concat.2 (.inl h.1), ?_⟩
          intro v hv
          rcases mem_listedVersions_concat.1 hv with hlisted | ⟨-, rfl⟩
          · exact h.2 hlisted
          · exact UInt32.not_lt.1 holder
  · have hsame : listedVersions (upgrades ++ [u]) channel = listedVersions upgrades channel := by
      ext v
      rw [mem_listedVersions_concat, or_iff_left fun hu => hchannel hu.1]
    rw [if_neg hchannel]
    unfold Known
    rw [hsame]
    exact h

theorem known_addUpgrades (later : List Settings.Upgrade) {versions : Dict UInt32}
    (h : Known upgrades channel (versions.get? channel)) :
    Known (upgrades ++ later) channel ((later.foldl addUpgrade versions).get? channel) := by
  induction later generalizing upgrades versions with
  | nil => simpa using h
  | cons u rest ih =>
      have hrest := ih (known_addUpgrade u h)
      rw [List.append_assoc] at hrest
      exact hrest

theorem isGreatest_unique {versions : Set UInt32} (h : IsGreatest versions m)
    (h' : IsGreatest versions n) : m = n :=
  UInt32.le_antisymm (h'.2 h.1) (h.2 h'.1)

/-- The version that a catalog has for a channel is the greatest one that is listed. -/
theorem get?_versions (sponsors : List Settings.Sponsor) (upgrades : List Settings.Upgrade) :
    (ofSettings sponsors upgrades).versions.get? channel = some m ↔
      IsGreatest (listedVersions upgrades channel) m := by
  have hnone : Known [] channel ((Dict.empty : Dict UInt32).get? channel) :=
    fun v hv => absurd hv List.not_mem_nil
  have hknown : Known upgrades channel ((ofSettings sponsors upgrades).versions.get? channel) :=
    known_addUpgrades upgrades hnone
  constructor
  · intro h
    rw [h] at hknown
    exact hknown
  · intro hgreatest
    cases hget : (ofSettings sponsors upgrades).versions.get? channel with
    | none =>
        rw [hget] at hknown
        exact absurd hgreatest.1 (hknown m)
    | some newest =>
        rw [hget] at hknown
        rw [isGreatest_unique hknown hgreatest]

theorem upgrade?_eq_some {c : Catalog} : c.upgrade? channel version = some m ↔
    c.versions.get? channel = some m ∧ version < m := by
  unfold upgrade?
  cases c.versions.get? channel with
  | none => simp
  | some newest =>
      by_cases hnewer : version < newest
      · simp only [hnewer, ↓reduceIte, Option.some.injEq]
        constructor
        · rintro rfl
          exact ⟨rfl, hnewer⟩
        · exact And.left
      · simp only [hnewer, ↓reduceIte, Option.some.injEq, reduceCtorEq, false_iff, not_and]
        rintro rfl
        exact hnewer

/-- Settings that list the same versions make the same catalog. -/
theorem ofSettings_congr (sponsors : List Settings.Sponsor)
    (h : ∀ u, u ∈ upgrades' ↔ u ∈ upgrades) : ofSettings sponsors upgrades' =
      ofSettings sponsors upgrades := by
  have hlisted : listedVersions upgrades' = listedVersions upgrades := by
    ext channel v
    exact h ⟨channel, v⟩
  have hversions : (ofSettings sponsors upgrades').versions = (ofSettings sponsors upgrades).versions := by
    apply Dict.ext_get?
    intro channel
    ext m
    rw [get?_versions, get?_versions, hlisted]
  unfold ofSettings at hversions ⊢
  rw [Catalog.mk.injEq]
  exact ⟨rfl, hversions⟩

/-- Whatever the settings list, a client is shown all pages that its sponsor has for its region, in their
order, or all pages for any region if there are none. It is told of a version exactly if that is the
greatest one listed for its channel and greater than its own; the order and the repetitions of the
list make no difference, and a client of that version is told of none. -/
theorem offers_what_is_listed (sponsors : List Settings.Sponsor) (upgrades : List Settings.Upgrade) :
    (∀ sponsor region, (ofSettings sponsors upgrades).homePages sponsor region =
      if listedPages sponsors sponsor region = [] then listedPages sponsors sponsor "*"
      else listedPages sponsors sponsor region) ∧
    (∀ channel version m, (ofSettings sponsors upgrades).upgrade? channel version = some m ↔
      IsGreatest {v | ⟨channel, v⟩ ∈ upgrades} m ∧ version < m) ∧
    (∀ upgrades', (∀ u, u ∈ upgrades' ↔ u ∈ upgrades) →
      ofSettings sponsors upgrades' = ofSettings sponsors upgrades) ∧
    ∀ channel version m, (ofSettings sponsors upgrades).upgrade? channel version = some m →
      (ofSettings sponsors upgrades).upgrade? channel m = none := by
  refine ⟨?_, ?_, fun _ => ofSettings_congr sponsors, ?_⟩
  · intro sponsor region
    rw [homePages_eq, get?_ofSettings, get?_ofSettings, held_getD]
    unfold held
    split
    case isTrue => rfl
    case isFalse => rfl
  · intro channel version m
    rw [upgrade?_eq_some, get?_versions]
    rfl
  · intro channel version m h
    obtain ⟨hnewest, -⟩ := upgrade?_eq_some.1 h
    cases hagain : (ofSettings sponsors upgrades).upgrade? channel m with
    | none => rfl
    | some n =>
        obtain ⟨hget, hlt⟩ := upgrade?_eq_some.1 hagain
        rw [hnewest] at hget
        cases hget
        exact absurd hlt (UInt32.lt_irrefl m)

/-- A sponsor in two blocks with a region in both of them, and one without a page for the region. -/
example :
    let c := ofSettings
      [⟨"0b", [⟨"CA", "a"⟩, ⟨"*", "b"⟩]⟩, ⟨"0c", [⟨"*", "c"⟩]⟩, ⟨"0b", [⟨"CA", "d"⟩, ⟨"CA", "a"⟩]⟩] []
    c.homePages "0b" "CA" = ["a", "d", "a"] ∧ c.homePages "0b" "DE" = ["b"] ∧
      c.homePages "0c" "CA" = ["c"] := by
  decide

end Catalog

end Gatehouse
