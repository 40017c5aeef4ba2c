import ResponseCache.Text.Split

/-!
This module contains the targets of requests in their four forms: a path with an optional query, the
same after a scheme and an authority, an authority alone, and the asterisk.
-/

namespace ResponseCache

/-- The target of a request. An empty text stands for the authority that is not there. -/
structure Target where
  scheme : Option (List Char)
  authority : List Char
  /-- The path, which is empty in the form that is an authority alone. -/
  path : List Char
  /-- The text after the first question mark, if there is one. -/
  query : Option (List Char)
  deriving DecidableEq, Repr

namespace Target

/-- Divides a path from its query, and drops the fragment. -/
def splitPath (cs : List Char) : List Char × Option (List Char) :=
  let cs := cs.takeWhile (· ≠ '#')
  match Text.splitOnce '?' cs with
  | some (path, query) => (path, some query)
  | none => (cs, none)

/-- The target without scheme and authority that a text spells. -/
def ofPath (cs : List Char) : Target :=
  let (path, query) := splitPath cs
  ⟨none, [], path, query⟩

def endsAuthority (c : Char) : Bool :=
  c = '/' || c = '?' || c = '#'

/-- The text before the first `://`, and the text after it. -/
def splitScheme : List Char → Option (List Char × List Char)
  | ':' :: '/' :: '/' :: rest => some ([], rest)
  | c :: rest =>
    if endsAuthority c then
      none
    else
      (splitScheme rest).map fun (scheme, rest) => (c :: scheme, rest)
  | [] => none

/-- The schemes whose spelling does not keep its case. -/
def plainSchemes : List (List Char) :=
  [['h', 't', 't', 'p'], ['h', 't', 't', 'p', 's']]

/-- The scheme as it is written: a plain one in lower case. -/
def normalScheme (cs : List Char) : List Char :=
  let lower := cs.map Char.toLower
  if plainSchemes.contains lower then lower else cs

/-- Reads a target. After an authority with a scheme, an empty path is the root. -/
def ofText (cs : List Char) : Target :=
  if cs = ['*'] ∨ cs.head? = some '/' then
    ofPath cs
  else
    match splitScheme cs with
    | some (scheme, rest) =>
      let (path, query) := splitPath (rest.dropWhile fun c => !endsAuthority c)
      let path := if path.isEmpty then ['/'] else path
      ⟨some (normalScheme scheme), rest.takeWhile fun c => !endsAuthority c, path, query⟩
    | none => ⟨none, cs, [], none⟩

/-- The text of a target, without the fragment that it was read with. -/
def text (t : Target) : List Char :=
  let scheme := match t.scheme with
    | some scheme => scheme ++ [':', '/', '/']
    | none => []
  let query := match t.query with
    | some query => '?' :: query
    | none => []
  scheme ++ t.authority ++ t.path ++ query

end Target

end ResponseCache
