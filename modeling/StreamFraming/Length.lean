/-!
# Lengths in words

Byte counts are 32-bit words. Where a sum or a count does not fit, the largest word stands for it;
where a difference would be negative, zero does.
-/

namespace StreamFraming.Length

def max : UInt32 := 0xFFFFFFFF

def add (a b : UInt32) : UInt32 := if a ≤ max - b then a + b else max

def sub (a b : UInt32) : UInt32 := if b ≤ a then a - b else 0

def ofNat (n : Nat) : UInt32 := if n < UInt32.size then n.toUInt32 else max

theorem toNat_add (a b : UInt32) : (add a b).toNat = min (a.toNat + b.toNat) (0xFFFFFFFF) := by
  have ha := a.toNat_lt
  have hb := b.toNat_lt
  have hmax : max.toNat = 0xFFFFFFFF := rfl
  have hfit : a ≤ max - b ↔ a.toNat + b.toNat ≤ 0xFFFFFFFF := by
    rw [UInt32.le_iff_toNat_le, UInt32.toNat_sub_of_le _ _ (by rw [UInt32.le_iff_toNat_le]; omega)]
    omega
  unfold add
  split
  · rename_i h
    have := hfit.mp h
    rw [UInt32.toNat_add]
    omega
  · rename_i h
    have := mt hfit.mpr h
    omega

theorem toNat_sub (a b : UInt32) : (sub a b).toNat = a.toNat - b.toNat := by
  unfold sub
  split
  · rename_i h
    rw [UInt32.toNat_sub_of_le _ _ h]
  · rename_i h
    rw [UInt32.le_iff_toNat_le] at h
    simp only [UInt32.toNat_zero]
    omega

theorem toNat_ofNat (n : Nat) : (ofNat n).toNat = min n (0xFFFFFFFF) := by
  have hmax : max.toNat = 0xFFFFFFFF := rfl
  unfold ofNat
  split
  · rename_i h
    simp only [UInt32.size] at h
    simp only [Nat.toUInt32_eq, UInt32.toNat_ofNat']
    omega
  · rename_i h
    simp only [UInt32.size] at h
    omega

theorem zero_add (a : UInt32) : add 0 a = a := by
  have small := a.toNat_lt
  apply UInt32.toNat_inj.mp
  rw [toNat_add, UInt32.toNat_zero]
  omega

theorem ofNat_of_lt {n : Nat} (small : n < 0x100000000) : ofNat n = n.toUInt32 := if_pos small

theorem toNat_toUInt32 {n : Nat} (small : n < 0x100000000) : n.toUInt32.toNat = n := by
  rw [Nat.toUInt32_eq, UInt32.toNat_ofNat_of_lt' small]

end StreamFraming.Length
