import LedgerBridge.Url
import LedgerBridge.Url.Host

/-!
# Reading URLs

* `Url.parse? s` reads an absolute URL and brings its parts into their written form: blanks around
  it and line ends within are dropped, scheme and host are in lower case, a port that the scheme
  implies is left out, dot segments are resolved, and reserved characters are encoded.
-/

namespace LedgerBridge.Url

/-- The parts in front of and behind the first character of a kind, which is dropped. -/
def cutAt (isMark : Char → Bool) (cs : List Char) : List Char × Option (List Char) :=
  match cs.dropWhile (!isMark ·) with
  | [] => (cs, none)
  | _ :: r => (cs.takeWhile (!isMark ·), some r)

/-- The characters of a URL, without control characters and spaces around it and without line ends
within. -/
def cleaned (cs : List Char) : List Char :=
  let isEdge (c : Char) : Bool := c.toNat ≤ 0x20
  (((cs.dropWhile isEdge).reverse.dropWhile isEdge).reverse).filter fun c => !isBreak c

/-- Characters of a scheme. -/
def isSchemeChar (c : Char) : Bool := c.isAlphanum || c = '+' || c = '-' || c = '.'

/-- The scheme in front of the first colon, and what stands behind it. -/
def splitScheme (cs : List Char) : Option (String × List Char) :=
  match cutAt (· = ':') cs with
  | (c :: r, some rest) =>
    if c.isAlpha ∧ r.all isSchemeChar then
      some (String.ofList ((c :: r).map Char.toLower), rest)
    else none
  | _ => none

/-! ### Authorities -/

/-- The text in front of the last at sign, and the text behind it. -/
def splitUserinfo (cs : List Char) : Option (List Char) × List Char :=
  match cutAt (· = '@') cs.reverse with
  | (host, some user) => (some user.reverse, host.reverse)
  | (_, none) => (none, cs)

/-- The host in front of a port, and the port; a colon in brackets belongs to the host. -/
def splitPort : (inBrackets : Bool) → List Char → List Char × Option (List Char)
  | _, [] => ([], none)
  | inBrackets, c :: r =>
    if c = ':' ∧ !inBrackets then ([], some r)
    else
      let p := splitPort (if c = '[' then true else if c = ']' then false else inBrackets) r
      (c :: p.1, p.2)

/-- The port that digits spell; the one that the scheme implies is none. -/
def port? (scheme : String) (digits : List Char) : Option (Option Nat) :=
  if digits = [] then some none
  else if digits.all Char.isDigit then
    let n := digits.foldl (fun n c => n * 10 + (c.toNat - '0'.toNat)) 0
    if n < 65536 then
      some (if specialSchemes.lookup scheme = some (some n) then none else some n)
    else none
  else none

/-- A user name and a password as they are written. -/
def userinfo (cs : List Char) : String × String :=
  let encode (part : List Char) := String.ofList (Percent.encodeChars Percent.inUserinfo part)
  match cutAt (· = ':') cs with
  | (user, password) => (encode user, encode (password.getD []))

/-- The URL with a scheme and an authority, and no path yet. -/
def withAuthority? (scheme : String) (cs : List Char) : Option Url := do
  let special := isSpecialScheme scheme
  let (user, rest) := splitUserinfo cs
  let (username, password) := userinfo (user.getD [])
  let (hostChars, portChars) := splitPort false rest
  if hostChars = [] ∧ (special ∨ portChars.isSome ∨ username ≠ "" ∨ password ≠ "") then none
  let host ← if special then Host.parse? hostChars else Host.parseUnknown? hostChars
  let port ← port? scheme (portChars.getD [])
  return { scheme, username, password, host := some host, port, path := .segments [] }

/-! ### Paths -/

/-- The segments of a path behind its first slash. -/
def parseSegments (isSlash : Char → Bool) (cs : List Char) : List String :=
  let rec go : (before segment : List Char) → List String → List String
    | [], segment, ss => step ss (written segment)
    | c :: r, segment, ss =>
      if isSlash c then go r [] (resolve ss (written segment)) else go r (c :: segment) ss
  go cs [] []
where
  /-- A segment as it is written, given its characters, the last one first. -/
  written (segment : List Char) : String :=
    String.ofList (Percent.encodeChars Percent.inPath segment.reverse)
  /-- Segments after one that has another one behind it. -/
  resolve (ss : List String) (s : String) : List String :=
    if isDoubleDot s then ss.dropLast else if isSingleDot s then ss else ss ++ [s]

/-- Slashes of a scheme. -/
def isSlashOf (special : Bool) (c : Char) : Bool := c = '/' || (special && c = '\\')

/-- The path behind an authority. -/
def parsePath (special : Bool) (cs : List Char) : List String :=
  match cs with
  | [] => if special then [""] else []
  | c :: r =>
    if isSlashOf special c then parseSegments (isSlashOf special) r
    else parseSegments (isSlashOf special) cs

/-! ### URLs -/

/-- A URL of a scheme with known rules other than files, from what stands behind the scheme. -/
def special? (scheme : String) (cs : List Char) : Option Url := do
  let cs := cs.dropWhile (isSlashOf true)
  let isEnd (c : Char) : Bool := isSlashOf true c
  let u ← withAuthority? scheme (cs.takeWhile (!isEnd ·))
  return { u with path := .segments (parsePath true (cs.dropWhile (!isEnd ·))) }

/-- The path of a file: empty segments in front are dropped. -/
def filePath (cs : List Char) : List String :=
  match (parsePath true cs).dropWhile (· = "") with
  | [] => [""]
  | ss => ss

/-- A URL of a file, from what stands behind the scheme. -/
def file? (cs : List Char) : Option Url := do
  match cs with
  | a :: b :: r =>
    if isSlashOf true a ∧ isSlashOf true b then
      let hostChars := r.takeWhile (!isSlashOf true ·)
      let host ← if hostChars = [] then some "" else Host.parse? hostChars
      return {
        scheme := "file"
        host := some (if host = "localhost" then "" else host)
        path := .segments (filePath (r.dropWhile (!isSlashOf true ·))) }
    else return { scheme := "file", host := some "", path := .segments (filePath cs) }
  | _ => return { scheme := "file", host := some "", path := .segments (filePath cs) }

/-- A URL of an unknown scheme, from what stands behind the scheme. -/
def unknown? (scheme : String) (cs : List Char) : Option Url := do
  match cs with
  | '/' :: '/' :: r =>
    let u ← withAuthority? scheme (r.takeWhile (· ≠ '/'))
    return { u with path := .segments (parsePath false (r.dropWhile (· ≠ '/'))) }
  | '/' :: r => return { scheme, path := .segments (parseSegments (· = '/') r) }
  | _ =>
    return { scheme, path := .rootless (String.ofList (Percent.encodeChars Percent.isControl cs)) }

/-- The URL that a text spells. -/
def parse? (s : String) : Option Url := do
  let (scheme, rest) ← splitScheme (cleaned s.toList)
  let (rest, fragment) := cutAt (· = '#') rest
  let (rest, query) := cutAt (· = '?') rest
  let u ←
    if scheme = "file" then file? rest
    else if isSpecialScheme scheme then special? scheme rest
    else unknown? scheme rest
  let encode (reserved : Char → Bool) (cs : List Char) :=
    String.ofList (Percent.encodeChars reserved cs)
  return {
    u with
    query := query.map (encode (Percent.inQuery (isSpecialScheme scheme)))
    fragment := fragment.map (encode Percent.inFragment) }

end LedgerBridge.Url
