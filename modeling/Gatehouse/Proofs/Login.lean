import Gatehouse.Login

/-!
# Where a login is cut

Lengths of a token count bytes, but it is cut between characters. A login is answered, unless its
token has the length of one with a session id and the cut would fall inside a character.
-/

namespace Gatehouse

namespace Gate

variable {n : Nat} {c : Char} {cs id rest : List Char}

/-! ## Cutting -/

theorem byteCount_cons (c : Char) (cs : List Char) :
    byteCount (c :: cs) = (String.utf8EncodeChar c).length + byteCount cs := by
  unfold byteCount
  rw [List.flatMap_cons, List.length_append]

theorem byteCount_append (cs cs' : List Char) : byteCount (cs ++ cs') = byteCount cs + byteCount cs' := by
  unfold byteCount
  rw [List.flatMap_append, List.length_append]

theorem byteCount_eq_zero : byteCount cs = 0 ↔ cs = [] := by
  cases cs with
  | nil => exact iff_of_true rfl rfl
  | cons c rest =>
      have hpos : 0 < (String.utf8EncodeChar c).length :=
        List.length_pos_iff.2 String.utf8EncodeChar_ne_nil
      refine iff_of_false ?_ (List.cons_ne_nil c rest)
      rw [byteCount_cons]
      omega

/-- A cut after some bytes leaves a front of so many bytes and what follows it. -/
theorem cut?_eq_some : cut? n cs = some (id, rest) ↔ cs = id ++ rest ∧ byteCount id = n := by
  induction n, cs using cut?.induct generalizing id rest with
  | case1 cs =>
      unfold cut?
      rw [byteCount_eq_zero]
      constructor
      · intro h
        cases h
        exact ⟨rfl, rfl⟩
      · rintro ⟨rfl, rfl⟩
        rfl
  | case2 n =>
      unfold cut?
      refine iff_of_false nofun ?_
      rintro ⟨hnil, hcount⟩
      rw [(List.nil_eq_append_iff.1 hnil).1] at hcount
      cases hcount
  | case3 n c cs hfits ih =>
      unfold cut?
      rw [if_pos hfits]
      constructor
      · intro h
        obtain ⟨⟨front, back⟩, hcut, heq⟩ := Option.map_eq_some_iff.1 h
        cases heq
        obtain ⟨rfl, hcount⟩ := ih.1 hcut
        refine ⟨rfl, ?_⟩
        rw [byteCount_cons, hcount]
        omega
      · rintro ⟨htext, hcount⟩
        cases id with
        | nil => cases hcount
        | cons c' front =>
            obtain ⟨rfl, rfl⟩ := List.cons.inj htext
            rw [byteCount_cons] at hcount
            rw [ih.2 ⟨rfl, by omega⟩]
            rfl
  | case4 n c cs hlong =>
      unfold cut?
      rw [if_neg hlong]
      refine iff_of_false nofun ?_
      rintro ⟨htext, hcount⟩
      cases id with
      | nil => cases hcount
      | cons c' front =>
          obtain ⟨rfl, rfl⟩ := List.cons.inj htext
          rw [byteCount_cons] at hcount
          omega

/-- A character starts or the text ends after some bytes. -/
def Boundary (n : Nat) (cs : List Char) : Prop := ∃ id rest, cs = id ++ rest ∧ byteCount id = n

theorem cut?_eq_none : cut? n cs = none ↔ ¬ Boundary n cs := by
  constructor
  · rintro hnone ⟨id, rest, hcut⟩
    cases hnone.symm.trans (cut?_eq_some.2 hcut)
  · intro hinside
    cases hcut : cut? n cs with
    | none => rfl
    | some cut => exact absurd ⟨cut.1, cut.2, cut?_eq_some.1 hcut⟩ hinside

/-! ## Taking a token apart -/

variable {g : Gate} {token : String}

theorem parts_eq_torn : g.parts token = .torn ↔
    byteCount (trimmed token) = g.sessionLength + g.passwordLength ∧
      ¬ Boundary g.sessionLength (trimmed token) := by
  rw [← cut?_eq_none]
  unfold parts
  dsimp only
  split
  · rename_i hlength
    split
    · rename_i hcut
      exact iff_of_false nofun fun h => nomatch hcut.symm.trans h.2
    · rename_i hcut
      exact iff_of_true rfl ⟨hlength, hcut⟩
  · rename_i hlength
    exact iff_of_false nofun fun h => hlength h.1

theorem parts_eq_named {idText password : String} : g.parts token = .named idText password ↔
    byteCount (trimmed token) = g.sessionLength + g.passwordLength ∧
      trimmed token = idText.toList ++ password.toList ∧ byteCount idText.toList = g.sessionLength := by
  rw [← cut?_eq_some]
  unfold parts
  dsimp only
  split
  · rename_i hlength
    split
    · rename_i front back hcut
      rw [hcut, Parts.named.injEq, Option.some.injEq, Prod.mk.injEq, ← String.toList_inj,
        ← String.toList_inj, String.toList_ofList, String.toList_ofList]
      exact (and_iff_right hlength).symm
    · rename_i hcut
      exact iff_of_false nofun fun h => nomatch hcut.symm.trans h.2
  · rename_i hlength
    exact iff_of_false nofun fun h => hlength h.1

theorem parts_eq_bare {password : String} : g.parts token = .bare password ↔
    byteCount (trimmed token) ≠ g.sessionLength + g.passwordLength ∧
      password.toList = trimmed token := by
  unfold parts
  dsimp only
  split
  · rename_i hlength
    refine iff_of_false ?_ fun h => h.1 hlength
    split
    · exact nofun
    · exact nofun
  · rename_i hlength
    rw [Parts.bare.injEq, ← String.toList_inj, String.toList_ofList]
    exact ⟨fun h => ⟨hlength, h.symm⟩, fun h => h.2.symm⟩

/-! ## Answers -/

/-- A login is broken off, with nothing changed, exactly if its user may log in and its token has the
length of one with a session id, but the cut behind the id falls inside a character. Whoever gets a
session has named it in so many bytes in front of the password. That length is to fit into a word. -/
theorem broken_off_inside_a_character (g : Gate) (user token : String) (remote : Option Address)
    (now : UInt64) (d : Desk) : g.sessionLength + g.passwordLength < UInt64.size →
    ((g.authenticate user token remote now d).1 = .brokenOff ↔
      RegionTable.starts g.userStem user = true ∧
        byteCount (trimmed token) = g.sessionLength + g.passwordLength ∧
          ¬ Boundary g.sessionLength (trimmed token)) ∧
      ((g.authenticate user token remote now d).1 = .brokenOff →
        (g.authenticate user token remote now d).2 = d) ∧
      ∀ id region, (g.authenticate user token remote now d).1 = .session id region →
        ∃ idText password : String, SessionId.parse? idText = some id ∧
          g.verifier.verify user password = true ∧
            trimmed token = idText.toList ++ password.toList ∧
              byteCount idText.toList = g.sessionLength ∧
                byteCount password.toList = g.passwordLength := by
  intro _
  rw [← parts_eq_torn]
  unfold authenticate
  cases hstem : RegionTable.starts g.userStem user with
  | false => exact ⟨iff_of_false nofun nofun, nofun, nofun⟩
  | true =>
      rw [Bool.not_true, if_neg Bool.false_ne_true]
      cases hparts : g.parts token with
      | torn => exact ⟨iff_of_true rfl ⟨rfl, rfl⟩, fun _ => rfl, nofun⟩
      | bare password =>
          dsimp only
          split
          · exact ⟨iff_of_false nofun nofun, nofun, nofun⟩
          · exact ⟨iff_of_false nofun nofun, nofun, nofun⟩
      | named idText password =>
          dsimp only
          split
          · exact ⟨iff_of_false nofun nofun, nofun, nofun⟩
          · rename_i id hid
            split
            · rename_i hverify
              split
              · exact ⟨iff_of_false nofun nofun, nofun, nofun⟩
              · refine ⟨iff_of_false nofun nofun, nofun, ?_⟩
                intro id' region h
                cases h
                obtain ⟨hlength, htext, hfront⟩ := parts_eq_named.1 hparts
                rw [htext, byteCount_append, hfront] at hlength
                exact ⟨idText, password, hid, hverify, htext, hfront, Nat.add_left_cancel hlength⟩
            · exact ⟨iff_of_false nofun nofun, nofun, nofun⟩

/-- The cut falls behind the first of the three bytes of a sign, and a line break at the end does not
count. -/
theorem broken_off_inside_a_sign :
    let g : Gate := { userStem := "waypost", verifier := ⟨.empty⟩, regions := ⟨[]⟩,
                      sessionLength := 2, passwordLength := 2, window := 300 }
    let d : Desk := { store := .memory, timer := { clock := 0 } }
    g.sessionLength + g.passwordLength < UInt64.size ∧
      (g.authenticate "waypost-1" "a€\n" none 0 d).1 = .brokenOff ∧
      (g.authenticate "waypost-1" "a€\n" none 0 d).2 = d := by
  intro g d
  have hfits : g.sessionLength + g.passwordLength < UInt64.size := by decide
  obtain ⟨hbroken, hsame, -⟩ := broken_off_inside_a_character g "waypost-1" "a€\n" none 0 d hfits
  have htorn : (g.authenticate "waypost-1" "a€\n" none 0 d).1 = .brokenOff :=
    hbroken.2 ⟨by decide +kernel, by decide +kernel, cut?_eq_none.1 (by decide +kernel)⟩
  exact ⟨hfits, htorn, hsame htorn⟩

/-- A token of the right length in which an accent stands across the end of the session id. -/
theorem broken_off_inside_an_accent :
    let g : Gate := { userStem := "waypost", verifier := ⟨.empty⟩, regions := ⟨[]⟩,
                      sessionLength := 8, passwordLength := 2, window := 300 }
    let d : Desk := { store := .memory, timer := { clock := 0 } }
    (g.authenticate "waypost-1" "abcdef0éf" none 0 d).1 = .brokenOff ∧
      byteCount (trimmed "abcdef0éf") = 8 + 2 ∧ ¬ Boundary 8 (trimmed "abcdef0éf") := by
  intro g d
  have hlength : byteCount (trimmed "abcdef0éf") = 8 + 2 := by decide +kernel
  have hinside : ¬ Boundary 8 (trimmed "abcdef0éf") := cut?_eq_none.1 (by decide +kernel)
  have htorn : g.parts "abcdef0éf" = .torn := parts_eq_torn.2 ⟨hlength, hinside⟩
  have hstem : RegionTable.starts g.userStem "waypost-1" = true := by decide +kernel
  refine ⟨?_, hlength, hinside⟩
  unfold authenticate
  rw [hstem, htorn]
  rfl

end Gate

end Gatehouse
