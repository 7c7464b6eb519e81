import LedgerBridge.Http.Message
import LedgerBridge.Text.Encoding

/-!
# Media types

What a body is: a type and a subtype with a stroke between them, then parameters behind semicolons.

* `MediaType.parse? s` reads a media type;
* `MediaType.encoding?` is the encoding that a media type names for a text;
* `Headers.encoding` is the encoding of a body: UTF-8, unless its media type says otherwise.
-/

namespace LedgerBridge.Http

/-- A media type with its parameters, whose names are in lower case. -/
structure MediaType where
  type : String
  subtype : String
  parameters : List (String × String) := []
  deriving DecidableEq, Repr

namespace MediaType

/-- Characters that a name or a bare value is made of. -/
def isToken (c : Char) : Bool :=
  c.isAlphanum || "!#$%&'*+-.^_\x60|~".toList.contains c

/-- The characters of a token, and the rest. -/
def takeToken (cs : List Char) : List Char × List Char :=
  (cs.takeWhile isToken, cs.dropWhile isToken)

/-- The value of a parameter, bare or in quotes, and the rest. -/
def takeValue? : List Char → Option (List Char × List Char)
  | '"' :: r =>
    match r.dropWhile (· ≠ '"') with
    | _ :: rest =>
      let value := r.takeWhile (· ≠ '"')
      if value.all fun c => 0x20 ≤ c.toNat && c ≠ '\x7f' then
        some (value, rest.dropWhile (· = ' '))
      else none
    | [] => none
  | cs =>
    match takeToken cs with
    | ([], _ :: _) => none
    | p => some p

/-- The parameters behind a semicolon. -/
def parameters? : (fuel : Nat) → List Char → Option (List (String × String))
  | 0, _ => none
  | fuel + 1, cs =>
    match cs.dropWhile (· = ' ') with
    | [] => some []
    | ';' :: r => parameters? fuel r
    | cs => do
      let (name, r) := takeToken cs
      if name = [] then none
      let '=' :: r := r | none
      let (value, r) ← takeValue? r
      let parameter := (String.ofList name).toLower
      match r with
      | [] => return [(parameter, String.ofList value)]
      | ';' :: r => return (parameter, String.ofList value) :: (← parameters? fuel r)
      | _ => none

/-- The media type that a text spells. -/
def parse? (s : String) : Option MediaType := do
  let (type, r) := takeToken s.toList
  let '/' :: r := r | none
  let (subtype, r) := takeToken r
  if type = [] ∨ subtype = [] then none
  let parameters ← match r with
    | [] => some []
    | ';' :: r => parameters? (r.length + 1) r
    | _ => none
  return { type := String.ofList type, subtype := String.ofList subtype, parameters }

/-- The encoding that a media type names. -/
def encoding? (m : MediaType) : Option Encoding := do
  Encoding.ofLabel? (← m.parameters.lookup "charset")

end MediaType

/-- The encoding of a body: the one that its media type names, and else UTF-8. -/
def Headers.encoding (headers : Headers) : Encoding :=
  ((headers.values "content-type").head?.bind fun s =>
    (MediaType.parse? s).bind MediaType.encoding?).getD .utf8

end LedgerBridge.Http
