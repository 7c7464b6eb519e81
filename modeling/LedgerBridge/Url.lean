import LedgerBridge.Url.Percent

/-!
# URLs

A URL in its one written form, and the growth of its path.

* `Url.text u` writes it;
* `Url.pushSegment special ss s` puts a segment behind others, encoded so that it stays one segment.
  Segments of one or two dots cannot be written, so they are left out;
* `Url.append u more` appends segments to the path, in place of an empty last one;
* `Url.bare u` is what a request names: no credentials and no fragment.
-/

namespace LedgerBridge

/-- The path of a URL. -/
inductive Url.Path where
  /-- Segments, each behind a slash. -/
  | segments (ss : List String)
  /-- A text behind the scheme that names no place in a tree. -/
  | rootless (text : String)
  deriving DecidableEq, Repr

/-- A URL whose parts are in their written form. -/
structure Url where
  scheme : String
  username : String := ""
  password : String := ""
  /-- `none` without an authority. -/
  host : Option String := none
  /-- `none` for the port that the scheme implies. -/
  port : Option Nat := none
  path : Url.Path
  query : Option String := none
  fragment : Option String := none
  deriving DecidableEq, Repr

namespace Url

/-- The schemes with known rules, and the ports that they imply. -/
def specialSchemes : List (String × Option Nat) :=
  [("http", some 80), ("https", some 443), ("ws", some 80), ("wss", some 443), ("ftp", some 21),
   ("file", none)]

/-- Whether a scheme has known rules. -/
def isSpecialScheme (scheme : String) : Bool := (specialSchemes.lookup scheme).isSome

/-- Whether the scheme has known rules. -/
def isSpecial (u : Url) : Bool := isSpecialScheme u.scheme

/-- Whether paths can be appended. -/
def hasSegments (u : Url) : Bool :=
  match u.path with
  | .segments _ => true
  | .rootless _ => false

/-! ### Writing -/

/-- The credentials of a URL. -/
def credentials (u : Url) : String :=
  if u.username = "" ∧ u.password = "" then ""
  else u.username ++ (if u.password = "" then "" else ":" ++ u.password) ++ "@"

/-- The authority of a URL. -/
def authority (u : Url) : String :=
  match u.host with
  | none => ""
  | some host => "//" ++ u.credentials ++ host ++ u.port.elim "" fun p => s!":{p}"

/-- Segments, each behind a slash. -/
def segmentsText (ss : List String) : String := String.join (ss.map ("/" ++ ·))

/-- The path of a URL. Without an authority it must not look like one. -/
def pathText (u : Url) : String :=
  match u.path with
  | .rootless text => text
  | .segments ss =>
    if u.host = none ∧ ss.length > 1 ∧ ss.head? = some "" then "/." ++ segmentsText ss
    else segmentsText ss

/-- A URL as it is written. -/
def text (u : Url) : String :=
  u.scheme ++ ":" ++ u.authority ++ u.pathText ++ u.query.elim "" ("?" ++ ·)
    ++ u.fragment.elim "" ("#" ++ ·)

/-- A URL without its credentials. -/
def withoutCredentials (u : Url) : Url := { u with username := "", password := "" }

/-- A URL without its fragment. -/
def withoutFragment (u : Url) : Url := { u with fragment := none }

/-- A URL as a request names it. -/
def bare (u : Url) : Url := u.withoutCredentials.withoutFragment

/-! ### Paths -/

/-- Tabs and line ends, which are no part of a URL. -/
def isBreak (c : Char) : Bool := c = '\t' || c = '\n' || c = '\r'

/-- Whether a written segment stands for the segment itself. -/
def isSingleDot (s : String) : Bool := s = "." || s = "%2e" || s = "%2E"

/-- Whether a written segment stands for the segment above. -/
def isDoubleDot (s : String) : Bool :=
  ["..", "%2e%2e", "%2e%2E", "%2E%2e", "%2E%2E", "%2e.", "%2E.", ".%2e", ".%2E"].contains s

/-- Segments after a written segment that ends the path, where dots are resolved. -/
def step (ss : List String) (s : String) : List String :=
  if isDoubleDot s then ss.dropLast ++ [""]
  else if isSingleDot s then ss ++ [""]
  else ss ++ [s]

/-- A text as it is written in a segment of its own. -/
def encodeSegment (special : Bool) (s : String) : String :=
  String.ofList
    (Percent.encodeChars (Percent.inSegment special) (s.toList.filter fun c => !isBreak c))

/-- Segments without the last one, if it is empty and not the only one. -/
def popEmpty (ss : List String) : List String :=
  if ss.length > 1 ∧ ss.getLast? = some "" then ss.dropLast else ss

/-- Segments with one more, which takes the place of an empty one that is the only one. -/
def pushSegment (special : Bool) (ss : List String) (s : String) : List String :=
  if s = "." ∨ s = ".." then ss
  else step (if ss = [""] then [] else ss) (encodeSegment special s)

/-- A URL with more segments, in place of an empty last one. -/
def append (u : Url) (more : List String) : Url :=
  match u.path with
  | .segments ss =>
    { u with path := .segments (more.foldl (pushSegment u.isSpecial) (popEmpty ss)) }
  | .rootless _ => u

end Url

end LedgerBridge
