import LedgerBridge.Http.Message
import LedgerBridge.Quantity
import LedgerBridge.Text.Utf8

/-!
# Messages on a connection

Requests as they are written to a connection that is closed after the response, and the response
as it is read from all that came back.

* `Request.wire` writes a request, given the authority and the path that its target names;
* `Response.ofWire?` reads a response whose body ends where its headers or its chunks say, or with
  the connection.
-/

namespace LedgerBridge.Http

namespace Wire

/-- The end of a line. -/
def lineEnd : String := "\r\n"

/-- What stands in front of the first line end, and what stands behind it. -/
def cutLine : Bytes → Option (Bytes × Bytes)
  | 0x0d :: 0x0a :: r => some ([], r)
  | b :: r => (cutLine r).map fun p => (b :: p.1, p.2)
  | [] => none

theorem length_lt_of_cutLine {s line rest : Bytes} (h : cutLine s = some (line, rest)) :
    rest.length < s.length := by
  induction s using cutLine.induct generalizing line with
  | case1 r =>
    simp only [cutLine, Option.some.injEq, Prod.mk.injEq] at h
    rw [← h.2]
    exact Nat.lt_succ_of_lt (Nat.lt_succ_self _)
  | case2 b r hb ih =>
    rw [cutLine] at h
    · obtain ⟨⟨line', rest'⟩, hr, hp⟩ := Option.map_eq_some_iff.1 h
      obtain ⟨rfl, rfl⟩ := Prod.mk.inj hp
      exact Nat.lt_succ_of_lt (ih hr)
    · exact hb
  | case3 => simp [cutLine] at h

/-- A header field. -/
def readField (line : Bytes) : String × String :=
  let name := line.takeWhile (· ≠ 0x3a)
  (Utf8.lossy name, fieldValue (Utf8.lossy (line.drop (name.length + 1))))

/-- The header fields up to the empty line, and what stands behind it. -/
def readFields (s : Bytes) : Option (Headers × Bytes) :=
  match _h : cutLine s with
  | none => none
  | some ([], r) => some ([], r)
  | some (line, r) => (readFields r).map fun p => (readField line :: p.1, p.2)
termination_by s.length
decreasing_by exact length_lt_of_cutLine ‹_›

/-- The value of digits to a base, if there are any and all are digits. -/
def readDigits (base : Nat) (digits : List Char) : Option Nat :=
  if digits = [] then none
  else digits.foldlM (fun n c => do
    let d ← Quantity.digitValue? c
    if d < base then some (n * base + d) else none) 0

/-- The length that opens a chunk; what follows it in the line is not looked at. -/
def readChunkLength (line : Bytes) : Option Nat :=
  readDigits 16 ((Utf8.lossy line).toList.takeWhile fun c => c ≠ ';' && !Blank.isSpaceOrTab c)

/-- A body in chunks, of which the empty one is the last. -/
def readChunks (s : Bytes) : Option Bytes :=
  match _h : cutLine s with
  | none => none
  | some (line, r) =>
    match readChunkLength line with
    | none => none
    | some 0 => some []
    | some n =>
      if r.length < n + 2 then none
      else (readChunks (r.drop (n + 2))).map (r.take n ++ ·)
termination_by s.length
decreasing_by
  have := length_lt_of_cutLine ‹_›
  simp only [List.length_drop]
  omega

/-- The body behind header fields. -/
def readBody (headers : Headers) (s : Bytes) : Option Bytes :=
  if (headers.values "transfer-encoding").any (·.toLower = "chunked") then readChunks s
  else match headers.values "content-length" with
    | [] => some s
    | length :: _ => do
      let n ← readDigits 10 length.toList
      if s.length < n then none else some (s.take n)

/-- The status that the first line of a response tells. -/
def readStatus (line : Bytes) : Option Nat :=
  match (Utf8.lossy line).toList with
  | 'H' :: 'T' :: 'T' :: 'P' :: '/' :: '1' :: '.' :: _ :: ' ' :: rest => readDigits 10 (rest.take 3)
  | _ => none

end Wire

/-- The response that came back. -/
def Response.ofWire? (s : Bytes) : Option Response := do
  let (line, r) ← Wire.cutLine s
  let status ← Wire.readStatus line
  let (headers, r) ← Wire.readFields r
  return { status, headers, body := ← Wire.readBody headers r }

/-- A request as it is written to a connection with `authority`. -/
def Request.wire (r : Request) (authority path : String) : Bytes :=
  let fields := [("host", authority), ("connection", "close"),
    ("content-length", toString r.body.length)] ++ r.headers
  let lines := s!"{r.method} {path} HTTP/1.1" :: fields.map fun h => s!"{h.1}: {h.2}"
  Utf8.encode (String.join (lines.map (· ++ Wire.lineEnd)) ++ Wire.lineEnd) ++ r.body

end LedgerBridge.Http
