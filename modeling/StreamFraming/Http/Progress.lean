import StreamFraming.Anomaly
import StreamFraming.Http.Digit
import StreamFraming.Http.Flags
import StreamFraming.Http.Token.Table
import StreamFraming.Length
import StreamFraming.Scanner

/-!
# Progress through an HTTP message

How far the message of one direction has been read: its flags, the length found so far, the place in
the token table, and where in a line the next byte falls. `readByte` takes one byte; `scan` takes a
window of bytes up to the first decision. A scan passes over the rest of a line that does not matter
without looking at its bytes; `scanEach` looks at every byte.
-/

namespace StreamFraming.Http

open Token

inductive LinePhase where
  | inLine
  /-- Past a line end; the next byte tells whether the line goes on. -/
  | afterEol
  | trailerStart
  | trailerLine
  deriving DecidableEq, Repr

structure Progress where
  length : UInt32 := 0
  flags : Flags
  position : Position
  line : LinePhase := .inLine
  deriving DecidableEq, Repr

structure Turn where
  progress : Progress
  verdict : Verdict := .search
  raised : List Anomaly := []
  deriving DecidableEq, Repr

structure Scan where
  progress : Progress
  verdict : Verdict := .search
  point : UInt32 := 0
  consumed : Nat
  headDone : Bool := false
  raised : List Anomaly := []
  deriving DecidableEq, Repr

def Turn.andThen (t : Turn) (next : Progress → Turn) : Turn :=
  let u := next t.progress
  { u with raised := t.raised ++ u.raised }

namespace Progress

def request : Progress := { flags := { request := true }, position := .requestStart }

def response : Progress := { flags := { response := true }, position := .responseStart }

def fresh (fromClient : Bool) : Progress := if fromClient then request else response

def isSimple (p : Progress) : Bool := p.flags.simple

def mark (p : Progress) (f : Flags → Flags) : Progress := { p with flags := f p.flags }

def note (p : Progress) (c : UInt8) : Action → Turn
  | .nop => { progress := p }
  | .noBody => { progress := p.mark fun f => { f with noBody := true } }
  | .post => { progress := p.mark fun f => { f with post := true } }
  | .simple => { progress := p.mark fun f => { f with simple := true, error := true } }
  | .version10 => { progress := p.mark fun f => { f with version10 := true } }
  | .version11 => { progress := p.mark fun f => { f with version11 := true } }
  | .response => { progress := p.mark fun f => { f with response := true } }
  | .shiftDecimal =>
    if p.flags.error then { progress := p }
    else
      match Digit.shiftDecimal? p.length c with
      | some length => { progress := { p with length } }
      | none =>
        { progress := p.mark fun f => { f with error := true }
          raised := [.messageSize "invalid content-length"] }
  | .shiftHex =>
    if p.flags.error then { progress := p }
    else
      match Digit.shiftHex? p.length c with
      | some length => { progress := { p with length } }
      | none =>
        { progress := p.mark fun f => { f with error := true }
          verdict := .flush
          raised := [.messageSize "invalid chunk size"] }
  | .lengthBody => { progress := p.mark fun f => { f with hasLength := true } }
  | .lengthChunk =>
    let p := p.mark fun f => { f with hasLength := true }
    -- behind the last chunk there are trailer lines only
    let p :=
      if p.length = 0 then
        { p.mark fun f => { f with inChunks := false } with line := .trailerStart }
      else p
    { progress := p, verdict := .skip }
  | .lengthZero => { progress := { p with length := 0 } }
  | .chunked => { progress := p.mark fun f => { f with chunked := true } }

def stepToken (p : Progress) (c : UInt8) : Turn :=
  let (position, action) := table.step p.position c
  { p with position }.note (fold c) action

def startChunks (p : Progress) : Progress :=
  { p.mark fun f => { f with inChunks := true, chunked := false } with
    position := .chunkStart, length := 0 }

def endHeaders (p : Progress) : Turn :=
  let unbounded := p.flags.post && !p.flags.chunked && !p.flags.hasLength
  let p := if unbounded then p.mark fun f => { f with error := true } else p
  let raised : List Anomaly := if unbounded then [.unboundedPost] else []
  if p.flags.error || (p.flags.noBody && p.flags.response) then
    { progress := { p with length := 0 }
      verdict := .flush
      raised := if p.flags.simple then raised ++ [.simpleRequest] else raised }
  else if p.flags.chunked then { progress := p.startChunks, raised }
  else if p.flags.request || p.flags.hasLength then { progress := p, verdict := .flush, raised }
  else if p.flags.version11 && p.flags.response then
    -- nothing tells where the body ends, so the headers stand alone
    { progress := { p with length := 0 }
      verdict := .flush
      raised := raised ++ [.messageSize "response without length"] }
  else { progress := p, verdict := .abort, raised }

/-- Take a byte inside a line. A line end is decided by the byte behind it, but for the first line,
which may be all there is, and for the lines around chunks. -/
def readInLine (p : Progress) (c : UInt8) : Turn :=
  if c ≠ lineFeed then p.stepToken c
  else if !p.flags.seenEol then
    let t := (p.mark fun f => { f with seenEol := true }).stepToken lineFeed
    if t.progress.flags.simple then t.andThen endHeaders
    else { t with progress := { t.progress with line := .afterEol } }
  else if p.flags.inChunks then p.stepToken lineFeed
  else { progress := { p with line := .afterEol } }

/-- Take the byte behind a line end: another line end closes the header fields, white space goes on
with the line before it, and any other byte begins a line. -/
def readAfterEol (p : Progress) (c : UInt8) : Turn :=
  let t :=
    if c = lineFeed then (p.stepToken lineFeed).andThen endHeaders
    else if c = space ∨ c = tab then p.stepToken space
    else
      let t := p.stepToken lineFeed
      if t.verdict = .search then t.andThen fun p => p.stepToken c else t
  if t.progress.line = .afterEol then { t with progress := { t.progress with line := .inLine } }
  else t

def readByte (p : Progress) (c : UInt8) : Turn :=
  if c = carriageReturn then { progress := p }
  else
    match p.line with
    | .inLine => p.readInLine c
    | .afterEol => p.readAfterEol c
    | .trailerStart =>
      if c = lineFeed then p.endHeaders else { progress := { p with line := .trailerLine } }
    | .trailerLine =>
      { progress := if c = lineFeed then { p with line := .trailerStart } else p }

/-- The scan that ends with a decision after `consumed` bytes of a window. A message that cannot be
framed takes the whole window with it. Any other one ends behind its body, and the next message
begins, unless there is more of this one behind the skipped bytes. -/
def settle (fromClient : Bool) (window : List UInt8) (consumed : Nat) (t : Turn) : Scan :=
  if t.progress.flags.error then
    { progress := t.progress, verdict := t.verdict, point := Length.ofNat window.length, consumed,
      raised := t.raised }
  else
    { progress := if t.verdict = .skip then t.progress else fresh fromClient
      verdict := t.verdict
      point := Length.add t.progress.length consumed.toUInt32
      consumed
      headDone := t.progress.flags.noBody && t.progress.flags.request
      raised := t.raised }

def passesLine (p : Progress) : Bool := p.line == .inLine && p.position == .skipLine

def toLineEnd (n : Nat) : List UInt8 → Nat × List UInt8
  | [] => (n, [])
  | c :: cs => if c = lineFeed then (n, c :: cs) else toLineEnd (n + 1) cs

theorem length_toLineEnd (n : Nat) (cs : List UInt8) :
    (toLineEnd n cs).1 + (toLineEnd n cs).2.length = n + cs.length := by
  induction cs generalizing n with
  | nil => rfl
  | cons c cs ih =>
    unfold toLineEnd
    split
    · rfl
    · rw [ih, List.length_cons]; omega

theorem le_toLineEnd (n : Nat) (cs : List UInt8) : n ≤ (toLineEnd n cs).1 := by
  induction cs generalizing n with
  | nil => exact Nat.le_refl n
  | cons c cs ih =>
    unfold toLineEnd
    split
    · exact Nat.le_refl n
    · exact Nat.le_of_succ_le (ih (n + 1))

/-- Scan the bytes `cs` that are left of a window once `n` are taken, without a look at those passed
over. -/
def scanFrom (fromClient : Bool) (window : List UInt8) (p : Progress) (raised : List Anomaly)
    (n : Nat) (cs : List UInt8) : Scan :=
  match h : if p.passesLine then toLineEnd n cs else (n, cs) with
  | (n, []) => { progress := p, consumed := n, raised }
  | (m, c :: rest) =>
    have : rest.length < cs.length := by
      split at h
      · have kept := length_toLineEnd n cs
        have ahead : n ≤ (toLineEnd n cs).1 := le_toLineEnd n cs
        rw [h] at kept ahead
        simp only [List.length_cons] at kept
        omega
      · cases h
        simp
    let t := p.readByte c
    if t.verdict = .search then
      scanFrom fromClient window t.progress (raised ++ t.raised) (m + 1) rest
    else settle fromClient window (m + 1) { t with raised := raised ++ t.raised }
termination_by cs.length

def scan (p : Progress) (fromClient : Bool) (window : List UInt8) : Scan :=
  scanFrom fromClient window p [] 0 window

def scanEachFrom (fromClient : Bool) (window : List UInt8) (p : Progress) (raised : List Anomaly)
    (n : Nat) : List UInt8 → Scan
  | [] => { progress := p, consumed := n, raised }
  | c :: cs =>
    let t := p.readByte c
    if t.verdict = .search then
      scanEachFrom fromClient window t.progress (raised ++ t.raised) (n + 1) cs
    else settle fromClient window (n + 1) { t with raised := raised ++ t.raised }

def scanEach (p : Progress) (fromClient : Bool) (window : List UInt8) : Scan :=
  scanEachFrom fromClient window p [] 0 window

end Progress

end StreamFraming.Http
