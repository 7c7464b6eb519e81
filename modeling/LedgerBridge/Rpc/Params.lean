import LedgerBridge.Json.Reader
import LedgerBridge.Text.Blank

/-!
# Parameters

Positional parameters are read off the front of their text, one at a time and only as many as a
method asks for: what stands behind them is never looked at.

* `Params.required` and `Params.optional` read one parameter;
* `Params.read` runs a reader on the text of a request, which may have none.
-/

namespace LedgerBridge.Rpc.Params

/-- A reader of parameters, over what is left of their text; it fails on text that cannot be
read as it expects. -/
abbrev Reader (α : Type) : Type := StateT Bytes Option α

/-- Bytes of a text without the blanks in front. -/
def trimFront (s : Bytes) : Bytes :=
  match Utf8.decode? s with
  | some t => Utf8.encode (Blank.trimStart t)
  | none => s

/-- Whether a value ends where it ends: texts, lists and objects do. -/
def endsItself (s : Bytes) : Bool :=
  match s with
  | b :: _ => b = 0x22 || b = 0x5b || b = 0x7b
  | [] => false

/-- Whether a number or a word may end in front of this text. -/
def mayFollow (s : Bytes) : Bool :=
  match s with
  | b :: _ => Json.isSpace b || [0x22, 0x5b, 0x5d, 0x7b, 0x7d, 0x2c, 0x3a].contains b
  | [] => true

/-- The value of the next parameter, if there is one, and what is left behind it. -/
def nextValue (s : Bytes) : Option (Option Json × Bytes) :=
  match s with
  | [] => some (none, [])
  | b :: r =>
    if b = 0x5d then some (none, [])
    else if b = 0x5b ∨ b = 0x2c then
      let front := Json.skipSpace r
      if front = [] then some (none, s)
      else do
        let (j, rest) ← Json.readFront front
        if endsItself front || mayFollow rest then some (some j, trimFront rest) else none
    else none

/-- The next parameter, which must be there. -/
def required {α : Type} (item : Json → Option α) : Reader α := do
  match ← nextValue with
  | some j => item j
  | none => failure

/-- The next parameter, if it is there and not null. -/
def optional {α : Type} (item : Json → Option α) : Reader (Option α) := do
  match ← nextValue with
  | some j => j.asOptional? item
  | none => return none

/-- What is read of the parameters of a request: an empty list, or no text, has none. -/
def start (text : Option String) : Bytes :=
  let trimmed := Blank.trim (text.getD "")
  if trimmed = "[]" then [] else Utf8.encode trimmed

/-- What a reader makes of the parameters of a request. -/
def read {α : Type} (reader : Reader α) (text : Option String) : Option α :=
  (reader.run (start text)).map (·.1)

end LedgerBridge.Rpc.Params
