import Gatehouse.Text.Utf8

/-! # Targets of requests

A target is a path with or without a query, an address in full with a scheme and an authority in
front of these, an authority alone, or an asterisk. What follows a `#` belongs to none of its parts.
A target with a character out of place is refused. -/

namespace Gatehouse

/-- What a request is for. An authority alone has neither a path nor a query. -/
structure Target where
  path : String
  query : String
  deriving DecidableEq, Repr

namespace Target

/-- The bytes that a target may have at most. -/
def sizeLimit : Nat := 65534

/-- The characters that the scheme of a target may have at most. -/
def schemeLimit : Nat := 64

/-- Whether a character is an ASCII letter or digit. -/
def isAlphanumeric (c : Char) : Bool :=
  ('a' ≤ c && c ≤ 'z') || ('A' ≤ c && c ≤ 'Z') || ('0' ≤ c && c ≤ '9')

/-- Whether a character may stand in a scheme. -/
def isSchemeChar (c : Char) : Bool := isAlphanumeric c || "+-.~".toList.contains c

/-- Whether a character may stand in an authority, not counting percent signs. -/
def isAuthorityChar (c : Char) : Bool := isAlphanumeric c || "!$&'()*+,-.:;=@[]_~".toList.contains c

/-- Whether a character may stand in a path. -/
def isPathChar (c : Char) : Bool := 0x20 < c.toNat && !"#<>?`".toList.contains c

/-- Whether a character may stand in a query. -/
def isQueryChar (c : Char) : Bool := 0x20 < c.toNat && !"\"#<>".toList.contains c

/-- Whether a character ends an authority. -/
def endsAuthority (c : Char) : Bool := "/?#".toList.contains c

/-- A target that starts with its path. An empty path before a query stands for the root. -/
def ofPath? (cs : List Char) : Option Target :=
  let whole := cs.takeWhile (fun c => c != '#')
  let path := whole.takeWhile (fun c => c != '?')
  let query := (whole.drop path.length).drop 1
  if path.all isPathChar && query.all isQueryChar then
    some ⟨if path.isEmpty then "/" else String.ofList path, String.ofList query⟩
  else none

/-- What is known of an authority that has been read in part: the colons since the last user or
bracket, whether a bracket was opened and closed, whether a percent sign stands where only a user
may have one, and whether a user has just ended. -/
structure Authority where
  colons : Nat := 0
  opened : Bool := false
  closed : Bool := false
  escaped : Bool := false
  userEnded : Bool := false
  deriving DecidableEq, Repr

namespace Authority

/-- The colons that an authority may have before a user or bracket ends. -/
def colonLimit : Nat := 8

/-- Read one more character of an authority. -/
def read? (a : Authority) (c : Char) : Option Authority :=
  let a := { a with userEnded := false }
  if c = ':' then
    if a.colons < colonLimit then some { a with colons := a.colons + 1 } else none
  else if c = '[' then
    if a.escaped || a.opened then none else some { a with opened := true }
  else if c = ']' then
    if !a.opened || a.closed then none
    else some { a with closed := true, colons := 0, escaped := false }
  else if c = '@' then some { a with colons := 0, escaped := false, userEnded := true }
  else if c = '%' then some { a with escaped := true }
  else if isAuthorityChar c then some a
  else none

/-- Whether an authority may end here. -/
def isWhole (a : Authority) : Bool :=
  a.opened == a.closed && a.colons ≤ 1 && !a.userEnded && !a.escaped

/-- Whether some characters are an authority or nothing at all. -/
def accepts (cs : List Char) : Bool := ((cs.foldlM read? {}).map isWhole).getD false

end Authority

/-- Read what follows a scheme. -/
def ofAuthority? (cs : List Char) : Option Target :=
  let authority := cs.takeWhile (fun c => !endsAuthority c)
  if authority.isEmpty || !Authority.accepts authority then none
  else ofPath? (cs.drop authority.length)

/-- Read a target that does not start with a slash. -/
def ofScheme? (cs : List Char) : Option Target :=
  let scheme := cs.takeWhile isSchemeChar
  match cs.drop scheme.length with
  | ':' :: '/' :: '/' :: rest =>
      if schemeLimit < scheme.length then none else ofAuthority? rest
  | _ => if Authority.accepts cs then some ⟨"", ""⟩ else none

/-- Read a target. -/
def parse? (s : String) : Option Target :=
  if sizeLimit < Utf8.size s then none
  else
    match s.toList with
    | [] => none
    | ['*'] => some ⟨"*", ""⟩
    | '/' :: rest => ofPath? ('/' :: rest)
    | cs => ofScheme? cs

end Target

/-- Whether a text may be the method of a request. -/
def isMethod (s : String) : Bool :=
  !s.isEmpty && s.toList.all fun c =>
    Target.isAlphanumeric c || "!#$%&'*+-.^_`|~".toList.contains c

end Gatehouse
