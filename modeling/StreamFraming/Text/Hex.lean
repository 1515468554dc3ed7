/-!
# Hexadecimal digits

One digit as a number and back; letters of either case are read.
-/

namespace StreamFraming.Text.Hex

def value? (c : Char) : Option Nat :=
  if '0' ≤ c ∧ c ≤ '9' then some (c.toNat - '0'.toNat)
  else if 'a' ≤ c ∧ c ≤ 'f' then some (c.toNat - 'a'.toNat + 10)
  else if 'A' ≤ c ∧ c ≤ 'F' then some (c.toNat - 'A'.toNat + 10)
  else none

def digits (n : Nat) : String := String.ofList (Nat.toDigits 16 n)

def padded (width n : Nat) : String :=
  let ds := Nat.toDigits 16 n
  String.ofList (List.replicate (width - ds.length) '0' ++ ds)

example : (['0', '9', 'a', 'F', 'g'].map value?) = [some 0, some 9, some 10, some 15, none] := by
  decide

end StreamFraming.Text.Hex
