import StreamFraming.Holds
import StreamFraming.Http.Digit
import StreamFraming.Scanner

/-!
# Counted records

A record is a decimal digit, as many bytes of any kind as it says, and more bytes up to a semicolon.
The scanner skips the counted bytes. It keeps in its cell whether it is behind the digit.
-/

namespace StreamFraming.Counted

open Holds

inductive Part where
  | digit
  | body
  deriving DecidableEq, Repr

variable {α μ : Type} [Holds α Part]

def semicolon : UInt8 := 0x3B

/-- The cell, verdict and point for a window at its first byte. A record begins with a digit, and
its body runs to a semicolon. -/
def outcome (part : Part) (window : List UInt8) : Part × Verdict × UInt32 :=
  match part, window with
  | .digit, [] => (.digit, .search, 0)
  | .digit, c :: _ =>
    match Http.Digit.decimal? c with
    | some n => (.body, .skip, n + 1)
    | none => (.digit, .abort, 0)
  | .body, cs =>
    match cs.findIdx? (· == semicolon) with
    | some i => (.digit, .flush, (i + 1).toUInt32)
    | none => (.body, .search, 0)

def scanner (name : String) (memory : μ) : Scanner α μ where
  name
  memory
  scan memory sight window :=
    match claim Part.digit sight.own with
    | none => .plain memory sight .abort 0
    | some part =>
      let (part, verdict, point) := outcome part window
      .plain memory { sight with own := some (keep part) } verdict point

end StreamFraming.Counted
