import GrantConsole.Text.Blank

/-!
# Request targets

What a request line may name: a path with a query, a whole URL, an authority alone, or an asterisk.
Only the path with its query counts for where a request goes; a fragment is dropped.
-/

namespace GrantConsole.Url

/-- The longest request target, in bytes. -/
def maxTargetBytes : Nat := 65534

/-- The longest scheme that a request target may have. -/
def maxSchemeLength : Nat := 64

/-- The colons that an authority may have before they are looked at more closely. -/
def maxColons : Nat := 8

structure Target where
  /-- The path with its query; an authority alone has none. -/
  pathAndQuery : Option String
deriving Repr, DecidableEq

def isSchemeChar (c : Char) : Bool :=
  c.isAlphanum || c == '+' || c == '-' || c == '.' || c == '~'

def isAuthorityChar (c : Char) : Bool :=
  c.isAlphanum || "!$&'()*+,-.;=_~".toList.contains c

/-- The characters of a path. Blanks, control characters and a few marks have to be encoded; what
is beyond ASCII need not be. -/
def isPathChar (c : Char) : Bool :=
  let n := c.toNat
  n = 0x21 || (0x24 ≤ n && n ≤ 0x3B) || n = 0x3D || (0x40 ≤ n && n ≤ 0x5F) ||
    (0x61 ≤ n && n ≤ 0x7A) || n = 0x7C || n = 0x7E || 0x80 ≤ n || c == '"' || c == '{' || c == '}'

def isQueryChar (c : Char) : Bool :=
  let n := c.toNat
  n = 0x21 || (0x24 ≤ n && n ≤ 0x3B) || n = 0x3D || (0x3F ≤ n && n ≠ 0x7F)

/-- The query up to the fragment. -/
def readQuery : List Char → Option (List Char)
  | [] => some []
  | c :: rest =>
    if c = '#' then some []
    else if isQueryChar c then (readQuery rest).map (c :: ·)
    else none

/-- The path with its query, up to the fragment. -/
def readPath : List Char → Option (List Char)
  | [] => some []
  | c :: rest =>
    if c = '#' then some []
    else if c = '?' then (readQuery rest).map (c :: ·)
    else if isPathChar c then (readPath rest).map (c :: ·)
    else none

def startsWithFolded (word : List Char) (cs : List Char) : Bool :=
  (cs.take word.length).map Char.toLower == word

/-- What a scan for a scheme finds. -/
inductive SchemeScan
  | none
  | tooLong
  /-- There is a scheme; what follows its colon and slashes. -/
  | found (rest : List Char)

/-- Looks for a scheme after `length` characters of one. -/
def scanScheme (length : Nat) : List Char → SchemeScan
  | [] => .none
  | ':' :: '/' :: '/' :: rest => if maxSchemeLength < length then .tooLong else .found rest
  | c :: rest => if isSchemeChar c then scanScheme (length + 1) rest else .none

def readScheme (cs : List Char) : SchemeScan :=
  if startsWithFolded "http://".toList cs then .found (cs.drop 7)
  else if startsWithFolded "https://".toList cs then .found (cs.drop 8)
  else if 3 < (String.ofList cs).utf8ByteSize then scanScheme 0 cs
  else .none

/-- What has been seen of an authority. -/
structure AuthorityScan where
  colons : Nat := 0
  opened : Bool := false
  closed : Bool := false
  percent : Bool := false
  /-- The last character was an at sign. -/
  atEnd : Bool := false

/-- Takes an authority off the front; a colon, bracket or percent sign out of place spoils it. -/
def readAuthority (seen : AuthorityScan) : List Char → Option (List Char)
  | [] => close []
  | c :: rest =>
    if c = '/' ∨ c = '?' ∨ c = '#' then close (c :: rest)
    else if c = ':' then
      if maxColons ≤ seen.colons then none
      else readAuthority { seen with colons := seen.colons + 1, atEnd := false } rest
    else if c = '[' then
      if seen.percent || seen.opened then none
      else readAuthority { seen with opened := true, atEnd := false } rest
    else if c = ']' then
      if !seen.opened || seen.closed then none
      else readAuthority { opened := true, closed := true } rest
    else if c = '@' then
      readAuthority { seen with colons := 0, percent := false, atEnd := true } rest
    else if c = '%' then readAuthority { seen with percent := true, atEnd := false } rest
    else if isAuthorityChar c then readAuthority { seen with atEnd := false } rest
    else none
where
  close (rest : List Char) : Option (List Char) :=
    if seen.opened != seen.closed || 1 < seen.colons || seen.atEnd || seen.percent then none
    else some rest

/-- An empty path is the root. -/
def pathOf (cs : List Char) : Target :=
  ⟨some (if cs.isEmpty then "/" else String.ofList cs)⟩

def Target.ofChars? : List Char → Option Target
  | [] => none
  | ['*'] => some ⟨some "*"⟩
  | '/' :: rest => (readPath ('/' :: rest)).map pathOf
  | cs =>
    match (if cs.length = 1 then .none else readScheme cs : SchemeScan) with
    | .tooLong => none
    | .none => do
      let rest ← readAuthority {} cs
      if rest.isEmpty then some ⟨none⟩ else none
    | .found rest => do
      let after ← readAuthority {} rest
      if after.length = rest.length then none
      else (readPath after).map pathOf

/-- The target that a text names. -/
def Target.parse? (s : String) : Option Target :=
  if maxTargetBytes < s.utf8ByteSize then none else Target.ofChars? s.toList

/-- The path alone; before a query it is the root at least. -/
def Target.path (t : Target) : String :=
  match t.pathAndQuery with
  | none => ""
  | some s =>
    let path := s.toList.takeWhile (· != '?')
    if path.isEmpty then "/" else String.ofList path

end GrantConsole.Url
