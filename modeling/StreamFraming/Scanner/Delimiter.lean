import StreamFraming.Scanner

/-!
# Delimited messages

Each message ends at the first occurrence of one byte.
-/

namespace StreamFraming.Delimiter

variable {α μ : Type}

/-- The number of bytes up to the first delimiter and with it. -/
def lengthTo? (delimiter : UInt8) (window : List UInt8) : Option Nat :=
  (window.findIdx? (· == delimiter)).map (· + 1)

def scanner (name : String) (delimiter : UInt8) (memory : μ) : Scanner α μ where
  name
  memory
  scan memory sight window :=
    match lengthTo? delimiter window with
    | some n => .plain memory sight .flush n.toUInt32
    | none => .plain memory sight .search 0

end StreamFraming.Delimiter
