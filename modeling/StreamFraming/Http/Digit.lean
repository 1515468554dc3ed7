/-!
# Digits

Bytes that stand for digits, and the lengths that can take one more digit without leaving a 32-bit
word (`toNat_shiftDecimal`, `toNat_shiftHex`).
-/

namespace StreamFraming.Http.Digit

def decimal? (c : UInt8) : Option UInt32 :=
  if 0x30 ≤ c ∧ c ≤ 0x39 then some (c - 0x30).toUInt32 else none

def hex? (c : UInt8) : Option UInt32 :=
  if 0x30 ≤ c ∧ c ≤ 0x39 then some (c - 0x30).toUInt32
  else if 0x41 ≤ c ∧ c ≤ 0x46 then some (c - 0x37).toUInt32
  else if 0x61 ≤ c ∧ c ≤ 0x66 then some (c - 0x57).toUInt32
  else none

/-- Lengths below this one take another decimal digit. -/
def decimalLimit : UInt32 := 429496728

def hexLimit : UInt32 := 0x8000000

def shiftDecimal? (length : UInt32) (c : UInt8) : Option UInt32 :=
  match decimal? c with
  | some x => if length < decimalLimit then some (length * 10 + x) else none
  | none => none

def shiftHex? (length : UInt32) (c : UInt8) : Option UInt32 :=
  match hex? c with
  | some x => if length < hexLimit then some (length * 16 + x) else none
  | none => none

theorem toNat_decimal {c : UInt8} {x : UInt32} (h : decimal? c = some x) : x.toNat ≤ 9 := by
  unfold decimal? at h
  split at h
  · rename_i range
    cases h
    simp only [UInt8.le_iff_toNat_le] at range
    have : (0x30 : UInt8).toNat = 48 := rfl
    have : (0x39 : UInt8).toNat = 57 := rfl
    rw [UInt8.toNat_toUInt32, UInt8.toNat_sub_of_le _ _ (by rw [UInt8.le_iff_toNat_le]; omega)]
    omega
  · cases h

theorem toNat_hex {c : UInt8} {x : UInt32} (h : hex? c = some x) : x.toNat ≤ 15 := by
  have : (0x30 : UInt8).toNat = 48 := rfl
  have : (0x39 : UInt8).toNat = 57 := rfl
  have : (0x41 : UInt8).toNat = 65 := rfl
  have : (0x46 : UInt8).toNat = 70 := rfl
  have : (0x61 : UInt8).toNat = 97 := rfl
  have : (0x66 : UInt8).toNat = 102 := rfl
  have : (0x37 : UInt8).toNat = 55 := rfl
  have : (0x57 : UInt8).toNat = 87 := rfl
  unfold hex? at h
  simp only [UInt8.le_iff_toNat_le] at h
  repeat' split at h
  all_goals
    first
    | cases h; done
    | cases h
      rw [UInt8.toNat_toUInt32, UInt8.toNat_sub_of_le _ _ (by rw [UInt8.le_iff_toNat_le]; omega)]
      omega

theorem toNat_shiftDecimal {length next : UInt32} {c : UInt8}
    (h : shiftDecimal? length c = some next) :
    ∃ x, decimal? c = some x ∧ next.toNat = length.toNat * 10 + x.toNat := by
  unfold shiftDecimal? at h
  split at h
  · rename_i x hx
    refine ⟨x, hx, ?_⟩
    split at h
    · rename_i room
      cases h
      have := toNat_decimal hx
      rw [UInt32.lt_iff_toNat_lt] at room
      simp only [decimalLimit, UInt32.reduceToNat] at room
      rw [UInt32.toNat_add, UInt32.toNat_mul]
      simp only [UInt32.reduceToNat]
      omega
    · cases h
  · cases h

theorem toNat_shiftHex {length next : UInt32} {c : UInt8} (h : shiftHex? length c = some next) :
    ∃ x, hex? c = some x ∧ next.toNat = length.toNat * 16 + x.toNat := by
  unfold shiftHex? at h
  split at h
  · rename_i x hx
    refine ⟨x, hx, ?_⟩
    split at h
    · rename_i room
      cases h
      have := toNat_hex hx
      rw [UInt32.lt_iff_toNat_lt] at room
      simp only [hexLimit, UInt32.reduceToNat] at room
      rw [UInt32.toNat_add, UInt32.toNat_mul]
      simp only [UInt32.reduceToNat]
      omega
    · cases h
  · cases h

end StreamFraming.Http.Digit
