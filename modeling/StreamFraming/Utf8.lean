/-!
# UTF-8

Bytes as characters. A lead byte says how many bytes follow and which range the first of them may
take, so that no character has two forms and no surrogate has one; all other bytes that follow lie
in one range. Decoding stops at the first byte that does not fit and says where its sequence began
and how many bytes of it were good.
-/

namespace StreamFraming.Utf8

structure Fault where
  index : Nat
  /-- The number of bytes that cannot begin a character; none if the input ends inside one. -/
  length? : Option Nat
  deriving DecidableEq, Repr

def Fault.message (f : Fault) : String :=
  match f.length? with
  | some n =>
    "invalid utf-8 sequence of " ++ toString n ++ " bytes from index " ++ toString f.index
  | none => "incomplete utf-8 byte sequence from index " ++ toString f.index

structure Pending where
  start : Nat
  left : Nat
  low : UInt8 := 0x80
  high : UInt8 := 0xBF
  code : Nat
  deriving DecidableEq, Repr

def lead? (start : Nat) (b : UInt8) : Option Pending :=
  let bits (mask : UInt8) : Nat := (b &&& mask).toNat
  if 0xC2 ≤ b ∧ b ≤ 0xDF then some { start, left := 1, code := bits 0x1F }
  else if b = 0xE0 then some { start, left := 2, low := 0xA0, code := bits 0x0F }
  else if b = 0xED then some { start, left := 2, high := 0x9F, code := bits 0x0F }
  else if 0xE1 ≤ b ∧ b ≤ 0xEF then some { start, left := 2, code := bits 0x0F }
  else if b = 0xF0 then some { start, left := 3, low := 0x90, code := bits 0x07 }
  else if 0xF1 ≤ b ∧ b ≤ 0xF3 then some { start, left := 3, code := bits 0x07 }
  else if b = 0xF4 then some { start, left := 3, high := 0x8F, code := bits 0x07 }
  else none

/-- Decode the bytes from index `i` on, behind the characters `done` (latest first) and perhaps the
first bytes of one more. -/
def decodeFrom (i : Nat) (done : List Char) : Option Pending → List UInt8 →
    Except Fault (List Char)
  | none, [] => .ok done.reverse
  | some p, [] => .error { index := p.start, length? := none }
  | none, b :: bs =>
    if b < 0x80 then decodeFrom (i + 1) (Char.ofNat b.toNat :: done) none bs
    else
      match lead? i b with
      | some p => decodeFrom (i + 1) done (some p) bs
      | none => .error { index := i, length? := some 1 }
  | some p, b :: bs =>
    if p.low ≤ b ∧ b ≤ p.high then
      let code := p.code * 64 + (b &&& 0x3F).toNat
      if p.left ≤ 1 then decodeFrom (i + 1) (Char.ofNat code :: done) none bs
      else decodeFrom (i + 1) done (some { start := p.start, left := p.left - 1, code }) bs
    else .error { index := p.start, length? := some (i - p.start) }

def decode (bytes : List UInt8) : Except Fault (List Char) := decodeFrom 0 [] none bytes

example : decode [0x61, 0xC3, 0xA9, 0xF0, 0x9F, 0x98, 0x80] = .ok ['a', 'é', '😀'] := by
  rfl

example : decode [0x61, 0xE1, 0x80, 0x41] = .error ⟨1, some 2⟩ := by rfl

example : decode [0x61, 0xE1, 0x80] = .error ⟨1, none⟩ := by rfl

end StreamFraming.Utf8
