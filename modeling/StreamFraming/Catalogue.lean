import StreamFraming.Http.Scanner
import StreamFraming.Scanner.Counted
import StreamFraming.Scanner.Delimiter
import StreamFraming.Scanner.Script

/-!
# The catalogue of scanners

The scanners that can be named in a registration, side by side: `Memo` is the type of their cells,
and each of them remembers a `Tally`.
-/

namespace StreamFraming

inductive Memo where
  | http (progress : Http.Progress)
  | part (part : Counted.Part)
  | number (n : UInt32)
  | text (s : String)
  /-- A value of no scanner's kind. -/
  | foreign
  deriving DecidableEq, Repr

namespace Memo

instance : Holds Memo Http.Progress where
  keep := .http
  kept? | .http p => some p | _ => none
  kept?_eq_some_iff {a _} := by cases a <;> simp [eq_comm]

instance : Holds Memo Counted.Part where
  keep := .part
  kept? | .part p => some p | _ => none
  kept?_eq_some_iff {a _} := by cases a <;> simp [eq_comm]

instance : Holds Memo UInt32 where
  keep := .number
  kept? | .number n => some n | _ => none
  kept?_eq_some_iff {a _} := by cases a <;> simp [eq_comm]

instance : Holds Memo String where
  keep := .text
  kept? | .text s => some s | _ => none
  kept?_eq_some_iff {a _} := by cases a <;> simp [eq_comm]

end Memo

inductive Catalogue where
  | http (byteCap : UInt32)
  | delimited (name : String) (delimiter : UInt8)
  | counted (name : String)
  | scripted (name : String) (script : Script)
  deriving DecidableEq, Repr

namespace Catalogue

def scanner : Catalogue → Scanner Memo Tally
  | .http byteCap => Http.scanner byteCap
  | .delimited name delimiter => Delimiter.scanner name delimiter {}
  | .counted name => Counted.scanner name {}
  | .scripted name script => script.scanner name

def name (c : Catalogue) : String := c.scanner.name

end Catalogue

end StreamFraming
