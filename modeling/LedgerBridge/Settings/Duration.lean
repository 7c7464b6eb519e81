import LedgerBridge.Text.Blank

/-!
# Durations

Timeouts are written as a whole number of milliseconds, seconds or minutes.

* `Duration.parse` reads one, with blanks around it and in front of the unit;
* `Duration.text` writes it, in seconds if it is a whole number of them, and else in milliseconds.
-/

namespace LedgerBridge.Settings

/-- A span of time. -/
structure Duration where
  nanoseconds : Nat
  deriving DecidableEq, Repr

/-- Why a text is no duration. -/
inductive DurationError where
  /-- There is no unit. -/
  | format (text : String)
  /-- The digits are missing, or they are too many for 64 bits. -/
  | value (digits : String)
  /-- The unit is unknown. -/
  | suffix (unit : String)
  deriving DecidableEq, Repr

/-- The wording of a duration error. -/
def DurationError.message : DurationError → String
  | .format text => s!"Invalid duration format: {text}"
  | .value digits => s!"Invalid duration value: {digits}"
  | .suffix unit => s!"Invalid duration suffix: {unit}. Expected 'ms', 's' or 'min'."

namespace Duration

/-- A number of milliseconds. -/
def ofMilliseconds (n : Nat) : Duration := ⟨n * 1000000⟩

/-- A number of seconds. -/
def ofSeconds (n : Nat) : Duration := ⟨n * 1000000000⟩

/-- The whole milliseconds of a duration. -/
def milliseconds (d : Duration) : Nat := d.nanoseconds / 1000000

/-- The whole seconds of a duration. -/
def seconds (d : Duration) : Nat := d.nanoseconds / 1000000000

/-- So many of a unit. Minutes are turned into seconds in 64 bits. -/
def ofUnit? (n : Nat) (unit : String) : Option Duration :=
  if unit = "ms" then some (ofMilliseconds n)
  else if unit = "s" then some (ofSeconds n)
  else if unit = "min" then some (ofSeconds (n * 60 % UInt64.size))
  else none

/-- The number of 64 bits that decimal digits spell. -/
def number? (digits : List Char) : Option Nat :=
  if digits = [] then none
  else
    let n := digits.foldl (fun n c => n * 10 + (c.toNat - '0'.toNat)) 0
    if n < UInt64.size then some n else none

/-- The duration that a text without blanks around it spells. -/
def parseTrimmed (cs : List Char) : Except DurationError Duration :=
  let digits := cs.takeWhile Char.isDigit
  let suffix := cs.dropWhile Char.isDigit
  if suffix = [] then .error (.format (String.ofList cs))
  else match number? digits with
    | none => .error (.value (String.ofList digits))
    | some n => match ofUnit? n (String.ofList (Blank.trimChars suffix)) with
      | some d => .ok d
      | none => .error (.suffix (String.ofList suffix))

/-- The duration that a text spells. -/
def parse (s : String) : Except DurationError Duration := parseTrimmed (Blank.trimChars s.toList)

/-- The spelling of a duration. -/
def text (d : Duration) : String :=
  if d.nanoseconds % 1000000000 = 0 then s!"{d.seconds}s" else s!"{d.milliseconds}ms"

end Duration

end LedgerBridge.Settings
