import Gatehouse.Request.Params

/-! # Session ids

A session is named by one to sixty-four hexadecimal digits. The letter case of a name does not
matter: an id is kept in lower case. Each session has two keys in the store. -/

namespace Gatehouse

/-- The lower-case form of a text in ASCII letters. -/
def lowered (s : String) : String := String.ofList (s.toList.map Char.toLower)

/-- Lowering a text twice is lowering it once. -/
theorem lowered_lowered (s : String) : lowered (lowered s) = lowered s := by
  -- a capital is moved past the capitals, so nothing is left to do the second time
  have hletter : ∀ c : Char, c.toLower.toLower = c.toLower := by
    intro c
    unfold Char.toLower
    grind
  rw [lowered, lowered, String.toList_ofList, List.map_map]
  exact congrArg String.ofList (List.map_congr_left fun c _ => hletter c)

/-- The id of a session, in lower case. -/
structure SessionId where
  text : String
  numeral : Hex.isNumeral text = true
  short : text.length ≤ 64
  lower : lowered text = text
  deriving DecidableEq

namespace SessionId

/-- Read an id in either letter case. -/
def parse? (s : String) : Option SessionId :=
  if h : Hex.isNumeral (lowered s) = true ∧ (lowered s).length ≤ 64 then
    some ⟨lowered s, h.1, h.2, lowered_lowered s⟩
  else none

/-- Read an id, or say that the field that should hold one is at fault. -/
def parse (s : String) : Except Fault SessionId :=
  match parse? s with
  | some id => .ok id
  | none => .error (.invalid Field.session.name)

/-- What the keys of open fragments start with. -/
def fragmentStem : String := "session-fragment:"

/-- What the keys of region entries start with. -/
def regionStem : String := "session-geo:"

/-- The key of a session's open fragment. -/
def fragmentKey (id : SessionId) : String := fragmentStem ++ id.text

/-- The key of a session's region entry. -/
def regionKey (id : SessionId) : String := regionStem ++ id.text

end SessionId

end Gatehouse
