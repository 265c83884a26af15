import Gatehouse.Proofs.Service.Acceptance
import Gatehouse.Proofs.Service.Refusal
import Mathlib.Data.List.Basic

/-!
# Downloads stay in their directory

The file of a download is named by two hexadecimal ids. Its name has neither slashes nor zero bytes and
leads neither upwards nor to the directory itself, so its path ends at one entry of the directory for
downloads. Since no dash is a digit, the ids can be read off the name, and different ids name different
entries.
-/

namespace Gatehouse

/-- A text names one entry of a directory. -/
structure Path.IsName (name : String) : Prop where
  nonempty : name ≠ ""
  no_slash : '/' ∉ name.toList
  no_nul : '\x00' ∉ name.toList
  not_self : name ≠ "."
  not_up : name ≠ ".."

namespace Files

variable {f : Files} {base name other : String} {goal : Goal}

/-- A directory that is joined with a name leads to the entry with that name, if it leads anywhere. -/
theorem goal_join (hname : Path.IsName name) (h : f.goal (Path.join base name) = .ok goal) :
    ∃ here, f.walk (Path.isAbsolute base) [] (Path.steps base) = .ok here ∧
      goal = .entry (Path.ofParts (Path.isAbsolute base) (name :: here)) false := by
  have hsteps : Path.steps (Path.join base name) = Path.steps base ++ [name] :=
    Path.steps_join hname.nonempty hname.no_slash
  obtain ⟨here, hhere, hgoal⟩ := goal_of_steps hsteps hname.not_self hname.not_up h
  rw [Path.isAbsolute_join hname.no_slash] at hhere hgoal
  rw [Path.endsInSlash_join hname.nonempty hname.no_slash] at hgoal
  exact ⟨here, hhere, hgoal⟩

/-- Different names lead to different entries of a directory. -/
theorem eq_of_goal_join (hname : Path.IsName name) (hother : Path.IsName other)
    (h : f.goal (Path.join base name) = .ok goal) (h' : f.goal (Path.join base other) = .ok goal) :
    name = other := by
  obtain ⟨here, hhere, hgoal⟩ := goal_join hname h
  obtain ⟨here', hhere', hgoal'⟩ := goal_join hother h'
  cases hhere.symm.trans hhere'
  obtain ⟨hplace, -⟩ := Goal.entry.inj (hgoal.symm.trans hgoal')
  exact Path.eq_of_ofParts_eq hname.nonempty hname.no_slash hother.nonempty hother.no_slash hplace

end Files

theorem Hex.Numeral.not_mem {s : String} (h : Hex.Numeral s) {c : Char} (hc : Hex.isDigit c = false) :
    c ∉ s.toList := by
  intro hmem
  have hdigit : Hex.isDigit c = true := by
    have hrange := h.2 c hmem
    simp only [Hex.isDigit, Bool.or_eq_true, Bool.and_eq_true, decide_eq_true_iff, or_assoc]
    exact hrange
  cases hc.symm.trans hdigit

namespace Site

variable {s : Site} {c : Call} {fe : FrontEnd} {a a' : Accepted} {r : Request} {i j : Identity}

/-- The ids of a client are hexadecimal. -/
structure HexIds (i : Identity) : Prop where
  channel : Hex.Numeral i.channel
  sponsor : Hex.Numeral i.sponsor

theorem hexIds_of_accept {request : Endpoint} {p : Params} (h : s.accept request p = .ok a) :
    HexIds a.identity := by
  obtain ⟨hacceptable, hcarries⟩ := accept_eq_ok.1 h
  obtain ⟨channel, hchannel, hhex⟩ := hacceptable.channel
  obtain ⟨sponsor, hsponsor, hhex'⟩ := hacceptable.sponsor
  cases hchannel.symm.trans hcarries.channel
  cases hsponsor.symm.trans hcarries.sponsor
  exact ⟨hhex, hhex'⟩

theorem toList_buildName (i : Identity) :
    (buildName i).toList = "client-".toList ++ (i.channel.toList ++ '-' :: (i.sponsor.toList ++
      ".bin".toList)) := by
  simp only [buildName, String.toList_append, List.append_assoc]
  rfl

theorem not_mem_buildName (hids : HexIds i) {c : Char} (hdigit : Hex.isDigit c = false)
    (hother : c ∉ "client--.bin".toList) : c ∉ (buildName i).toList := by
  have hfixed : "client--.bin".toList = "client-".toList ++ '-' :: ".bin".toList := by decide
  rw [hfixed] at hother
  rw [toList_buildName]
  simp only [List.mem_append, List.mem_cons, not_or] at hother ⊢
  exact ⟨hother.1, hids.channel.not_mem hdigit, hother.2.1, hids.sponsor.not_mem hdigit, hother.2.2⟩

theorem buildName_ne {t : String} (h : t.toList.head? ≠ some 'c') : buildName i ≠ t := by
  rintro rfl
  refine h ?_
  rw [toList_buildName]
  rfl

theorem isName_buildName (hids : HexIds i) : Path.IsName (buildName i) where
  nonempty := buildName_ne (by decide)
  no_slash := not_mem_buildName hids (by decide) (by decide)
  no_nul := not_mem_buildName hids (by decide) (by decide)
  not_self := buildName_ne (by decide)
  not_up := buildName_ne (by decide)

theorem steps_buildPath (s : Site) (hids : HexIds i) :
    Path.steps (s.buildPath i) = Path.steps s.downloads ++ [buildName i] :=
  Path.steps_join (isName_buildName hids).nonempty (isName_buildName hids).no_slash

/-- The ids can be read off the name. -/
theorem ids_of_buildName_eq (hids : HexIds i) (h : buildName i = buildName j) :
    i.channel = j.channel ∧ i.sponsor = j.sponsor := by
  have hafter : '-' ∉ i.sponsor.toList ++ ".bin".toList := by
    rw [List.mem_append, not_or]
    exact ⟨hids.sponsor.not_mem (by decide), by decide⟩
  have htext := congrArg String.toList h
  rw [toList_buildName, toList_buildName, List.append_cancel_left_eq,
    List.append_cons_inj_of_notMem (hids.channel.not_mem (by decide)) hafter,
    List.append_cancel_right_eq] at htext
  exact ⟨String.toList_inj.1 htext.1, String.toList_inj.1 htext.2.2⟩

/-- Builds with different names have different places, and no two of the places lead to one entry. -/
theorem buildPath_apart (s : Site) (hi : HexIds i) (hj : HexIds j)
    (h : (i.channel, i.sponsor) ≠ (j.channel, j.sponsor)) :
    s.buildPath i ≠ s.buildPath j ∧
      ∀ files goal, Files.goal files (s.buildPath i) = .ok goal →
        files.goal (s.buildPath j) ≠ .ok goal := by
  have hname : buildName i ≠ buildName j := by
    intro hsame
    obtain ⟨hchannel, hsponsor⟩ := ids_of_buildName_eq hi hsame
    exact h (Prod.ext hchannel hsponsor)
  constructor
  · intro hpath
    have hsteps := congrArg Path.steps hpath
    rw [steps_buildPath s hi, steps_buildPath s hj, List.append_cancel_left_eq,
      List.singleton_inj] at hsteps
    exact hname hsteps
  · intro files goal hgoal hgoal'
    exact hname (Files.eq_of_goal_join (isName_buildName hi) (isName_buildName hj) hgoal hgoal')

/-- An accepted download is answered with the file that it names, if that can be read. -/
theorem download_of_accept (h : s.accept .download c.params = .ok a) :
    (s.download c fe).1 =
      match fe.files.read? (s.buildPath a.identity) with
      | none => .error .notFound
      | some content =>
          .ok { status := 200, contentType := some "application/octet-stream", body := content } := by
  unfold download
  rw [h]
  dsimp only
  cases fe.files.read? (s.buildPath a.identity) with
  | none => rfl
  | some content => rfl

/-- A download that is answered with success was accepted, and its file was read. -/
theorem download_eq_ok {response : Response} {fe' : FrontEnd}
    (h : s.download c fe = (.ok response, fe')) :
    ∃ a content, s.accept .download c.params = .ok a ∧
      fe.files.read? (s.buildPath a.identity) = some content ∧ response.body = content := by
  unfold download at h
  split at h
  · cases h
  · rename_i a haccept
    split at h
    · cases h
    · rename_i content hread
      cases h
      exact ⟨a, content, haccept, hread, rfl⟩

/-- A successful answer carries the file that was read, unless only its head was asked for. -/
theorem body_of_route_download (hpath : r.path = Endpoint.download.path)
    (hstatus : (s.route r fe).1.status = 200) :
    ∃ a content, s.accept .download ⟨Form.pairs r.query⟩ = .ok a ∧
      fe.files.read? (s.buildPath a.identity) = some content ∧
      (s.route r fe).1.body = if r.method = "HEAD" then [] else content := by
  obtain ⟨response, hhandled, hanswer⟩ := answered_of_route hpath hstatus
  obtain ⟨a, content, haccept, hread, hbody⟩ := download_eq_ok hhandled
  refine ⟨a, content, haccept, hread, ?_⟩
  rw [hanswer]
  by_cases hhead : r.method = "HEAD"
  · rw [if_pos (beq_iff_eq.2 hhead), if_pos hhead]
  · rw [if_neg (by rwa [beq_iff_eq]), if_neg hhead, hbody]

/-- An accepted download succeeds if its file can be read, and is not found if not. -/
theorem status_of_route_download (fe : FrontEnd) (hpath : r.path = Endpoint.download.path)
    (hmethod : Endpoint.download.allows r.method = true)
    (h : s.accept .download ⟨Form.pairs r.query⟩ = .ok a) :
    match fe.files.read? (s.buildPath a.identity) with
    | none => (s.route r fe).1 = { status := 404, body := [] }
    | some _ => (s.route r fe).1.status = 200 := by
  have hhandled : (s.handle .download (s.call r) fe).1 = _ := download_of_accept h
  rw [route_of_allows hpath hmethod, hhandled]
  cases fe.files.read? (s.buildPath a.identity) with
  | none =>
      dsimp only [reply]
      split
      · rfl
      · rfl
  | some content =>
      dsimp only [reply]
      split
      · rfl
      · rfl

/-- The file of an accepted download is an entry of the directory for downloads, whatever the request
says, and requests of other clients or sponsors have other files. A download succeeds exactly if its
file can be read, and is answered with the bytes of that file, unless only its head was asked for. -/
theorem downloads_stay_inside (s : Site) (fe : FrontEnd) :
    (∀ p a, s.accept .download p = .ok a →
      let name := "client-" ++ a.identity.channel ++ "-" ++ a.identity.sponsor ++ ".bin"
      p.Carries a ∧ Path.IsName name ∧ s.buildPath a.identity = Path.join s.downloads name ∧
        Path.steps (s.buildPath a.identity) = Path.steps s.downloads ++ [name] ∧
        ∀ files goal, Files.goal files (s.buildPath a.identity) = .ok goal →
          ∃ here, files.walk (Path.isAbsolute s.downloads) [] (Path.steps s.downloads) = .ok here ∧
            goal = .entry (Path.ofParts (Path.isAbsolute s.downloads) (name :: here)) false) ∧
    (∀ p p' a a', s.accept .download p = .ok a → s.accept .download p' = .ok a' →
      (a.identity.channel, a.identity.sponsor) ≠ (a'.identity.channel, a'.identity.sponsor) →
      s.buildPath a.identity ≠ s.buildPath a'.identity ∧
        ∀ files goal, Files.goal files (s.buildPath a.identity) = .ok goal →
          files.goal (s.buildPath a'.identity) ≠ .ok goal) ∧
    ∀ r : Request, r.path = "/download" →
      ((s.route r fe).1.status = 200 →
        ∃ a content, s.accept .download ⟨Form.pairs r.query⟩ = .ok a ∧
          fe.files.read? (s.buildPath a.identity) = some content ∧
          (s.route r fe).1.body = if r.method = "HEAD" then [] else content) ∧
      ∀ a, r.method = "GET" ∨ r.method = "HEAD" →
        s.accept .download ⟨Form.pairs r.query⟩ = .ok a →
          ((s.route r fe).1.status = 200 ↔
            (fe.files.read? (s.buildPath a.identity)).isSome = true) ∧
          (fe.files.read? (s.buildPath a.identity) = none →
            (s.route r fe).1 = { status := 404, body := [] }) := by
  refine ⟨?_, ?_, ?_⟩
  · intro p a haccept name
    have hids := hexIds_of_accept haccept
    exact ⟨(accept_eq_ok.1 haccept).2, isName_buildName hids, rfl, steps_buildPath s hids,
      fun files goal hgoal => Files.goal_join (isName_buildName hids) hgoal⟩
  · intro p p' a a' haccept haccept' hother
    exact buildPath_apart s (hexIds_of_accept haccept) (hexIds_of_accept haccept') hother
  · intro r hpath
    have hdownload : r.path = Endpoint.download.path := hpath.trans (by decide)
    refine ⟨body_of_route_download hdownload, ?_⟩
    intro a hmethod haccept
    have hallowed : Endpoint.download.allows r.method = true := by
      rcases hmethod with hget | hhead
      · rw [hget]
        rfl
      · rw [hhead]
        rfl
    have hanswer := status_of_route_download fe hdownload hallowed haccept
    cases hread : fe.files.read? (s.buildPath a.identity) with
    | none =>
        rw [hread] at hanswer
        exact ⟨iff_of_false (by rw [hanswer]; nofun) nofun, fun _ => hanswer⟩
    | some content =>
        rw [hread] at hanswer
        exact ⟨iff_of_true hanswer rfl, nofun⟩

/-- A service that keeps its builds in a directory of the present one. -/
def depot : Site where
  address := "192.0.2.1"
  secret := "feed"
  catalog := ⟨.empty, .empty⟩
  regions := ⟨[]⟩
  windows := ⟨900, 1, 300⟩
  downloads := "dl/"
  maxBody := 0

/-- A front end with a single build. -/
def stocked : FrontEnd where
  desk := { store := .memory, timer := { clock := 0 } }
  rotator := .start "192.0.2.1" "00"
  outlet := { route := .record }
  files := { nodes := .ofList [("dl", .directory), ("dl/client-0a-0b.bin", .file [7, 8])] }
  peers := .ofEntries []

/-- A request of an older client for the build of a sponsor. -/
def fetch (method sponsor : String) : Request where
  method := method
  path := "/download"
  query := "server_secret=feed&client_id=0a&client_version=3&sponsor_id=" ++ sponsor
  body := []
  client := .v4 ⟨10, 0, 0, 1⟩
  now := 1000
  draw := ⟨"x", ""⟩

/-- The build of one sponsor is there, and that of another one is not. -/
theorem downloads_stay_inside_depot :
    let p : Params := ⟨Form.pairs (fetch "GET" "0b").query⟩
    let p' : Params := ⟨Form.pairs (fetch "GET" "0B").query⟩
    let a : Accepted := ⟨⟨"0a", "0b", 3⟩, .vpn⟩
    let a' : Accepted := ⟨⟨"0a", "0B", 3⟩, .vpn⟩
    depot.accept .download p = .ok a ∧ depot.accept .download p' = .ok a' ∧
      Path.IsName "client-0a-0b.bin" ∧
      Path.steps (depot.buildPath a.identity) = ["dl", "client-0a-0b.bin"] ∧
      depot.buildPath a.identity ≠ depot.buildPath a'.identity ∧
      (depot.route (fetch "GET" "0b") stocked).1.status = 200 ∧
      (depot.route (fetch "GET" "0b") stocked).1.body = [7, 8] ∧
      (depot.route (fetch "GET" "0B") stocked).1 = { status := 404, body := [] } := by
  intro p p' a a'
  have haccept : depot.accept .download p = .ok a := by decide +kernel
  have haccept' : depot.accept .download p' = .ok a' := by decide +kernel
  have hread : stocked.files.read? (depot.buildPath a.identity) = some [7, 8] := by decide +kernel
  have hread' : stocked.files.read? (depot.buildPath a'.identity) = none := by decide +kernel
  obtain ⟨hinside, hapart, hanswers⟩ := downloads_stay_inside depot stocked
  obtain ⟨-, hname, -, hsteps, -⟩ := hinside p a haccept
  obtain ⟨hdifferent, -⟩ := hapart p p' a a' haccept haccept' (by decide)
  have hstatus : (depot.route (fetch "GET" "0b") stocked).1.status = 200 :=
    ((hanswers (fetch "GET" "0b") rfl).2 a (.inl rfl) haccept).1.2 (by rw [hread]; rfl)
  obtain ⟨b, content, hb, hcontent, hbody⟩ := (hanswers (fetch "GET" "0b") rfl).1 hstatus
  cases haccept.symm.trans hb
  cases hread.symm.trans hcontent
  exact ⟨haccept, haccept', hname, hsteps, hdifferent, hstatus, hbody,
    ((hanswers (fetch "GET" "0B") rfl).2 a' (.inl rfl) haccept').2 hread'⟩

/-- A download of which only the head is asked for succeeds without the bytes of its file. -/
theorem head_gets_no_bytes :
    let r := fetch "HEAD" "0b"
    (depot.route r stocked).1.status = 200 ∧
      ¬ ∃ a content, depot.accept .download ⟨Form.pairs r.query⟩ = .ok a ∧
        stocked.files.read? (depot.buildPath a.identity) = some content ∧
        (depot.route r stocked).1.body = content := by
  intro r
  refine ⟨by decide +kernel, ?_⟩
  rintro ⟨a, content, haccept, hread, hbody⟩
  have haccepted : depot.accept .download ⟨Form.pairs r.query⟩ = .ok ⟨⟨"0a", "0b", 3⟩, .vpn⟩ := by
    decide +kernel
  cases haccepted.symm.trans haccept
  have hbytes : stocked.files.read? (depot.buildPath ⟨"0a", "0b", 3⟩) = some [7, 8] := by
    decide +kernel
  cases hbytes.symm.trans hread
  have hempty : (depot.route r stocked).1.body = [] := by decide +kernel
  cases hempty.symm.trans hbody

end Site

end Gatehouse
