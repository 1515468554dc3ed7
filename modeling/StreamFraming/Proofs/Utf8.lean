import Mathlib.Tactic.IntervalCases
import StreamFraming.Utf8

/-!
# Decoding what was encoded

The bytes of a text decode to its characters (`decode_toUTF8`). A character of several bytes has six
bits of its code in each of them but the first, which has the rest.
-/

namespace StreamFraming.Utf8

/-! ### Bytes of one character -/

section

variable (start : Nat) {x : Nat}

/-- Two bytes have room for codes from `0x80` on. -/
theorem lead?_two (low : 2 ≤ x) (high : x < 32) :
    lead? start (.ofNat (x + 0xC0)) = some { start, left := 1, code := x } := by
  interval_cases x <;> rfl

/-- Three bytes have room for codes from `0x800` on; there are none of surrogates. -/
theorem lead?_three (high : x < 16) :
    lead? start (.ofNat (x + 0xE0)) =
      some { start, left := 2, low := if x = 0 then 0xA0 else 0x80
             high := if x = 13 then 0x9F else 0xBF, code := x } := by
  interval_cases x <;> rfl

/-- Four bytes have room for codes from `0x10000` up to the last one. -/
theorem lead?_four (high : x ≤ 4) :
    lead? start (.ofNat (x + 0xF0)) =
      some { start, left := 3, low := if x = 0 then 0x90 else 0x80
             high := if x = 4 then 0x8F else 0xBF, code := x } := by
  interval_cases x <;> rfl

end

section

variable {i : Nat} {done : List Char} {bs : List UInt8} {p : Pending} {x y : Nat}

theorem toNat_ofNat {n : Nat} (small : n < 256) : (UInt8.ofNat n).toNat = n :=
  UInt8.toNat_ofNat_of_lt' small

theorem decodeFrom_lead (high : 0x80 ≤ x) (small : x < 256)
    (lead : lead? i (.ofNat x) = some p) :
    decodeFrom i done none (.ofNat x :: bs) = decodeFrom (i + 1) done (some p) bs := by
  have several : ¬ UInt8.ofNat x < 0x80 := by
    rw [UInt8.lt_iff_toNat_lt, toNat_ofNat small]
    exact Nat.not_lt.mpr high
  rw [decodeFrom, if_neg several, lead]

theorem tail_bits : ∀ y < 64, (UInt8.ofNat (y + 0x80) &&& 0x3F).toNat = y := by decide

theorem fits_tail (six : y < 64) (low : p.low.toNat ≤ y + 0x80) (high : y + 0x80 ≤ p.high.toNat) :
    p.low ≤ .ofNat (y + 0x80) ∧ UInt8.ofNat (y + 0x80) ≤ p.high := by
  rw [UInt8.le_iff_toNat_le, UInt8.le_iff_toNat_le, toNat_ofNat (by omega)]
  exact ⟨low, high⟩

theorem decodeFrom_tail (six : y < 64) (low : p.low.toNat ≤ y + 0x80)
    (high : y + 0x80 ≤ p.high.toNat) (more : 1 < p.left) :
    decodeFrom i done (some p) (.ofNat (y + 0x80) :: bs) =
      decodeFrom (i + 1) done
        (some { start := p.start, left := p.left - 1, code := p.code * 64 + y }) bs := by
  rw [decodeFrom, if_pos (fits_tail six low high)]
  simp only [tail_bits y six, if_neg (Nat.not_le.mpr more)]

theorem decodeFrom_last (six : y < 64) (low : p.low.toNat ≤ y + 0x80)
    (high : y + 0x80 ≤ p.high.toNat) (last : p.left = 1) :
    decodeFrom i done (some p) (.ofNat (y + 0x80) :: bs) =
      decodeFrom (i + 1) (Char.ofNat (p.code * 64 + y) :: done) none bs := by
  rw [decodeFrom, if_pos (fits_tail six low high)]
  simp only [tail_bits y six, last, Nat.le_refl, if_true]

end

theorem decodeFrom_encodeChar (c : Char) (i : Nat) (done : List Char) (bs : List UInt8) :
    ∃ j, decodeFrom i done none (String.utf8EncodeChar c ++ bs) =
      decodeFrom j (c :: done) none bs := by
  have named : Char.ofNat c.val.toNat = c := Char.ofNat_toNat c
  have valid : c.val.toNat < 0xD800 ∨ 0xDFFF < c.val.toNat ∧ c.val.toNat < 0x110000 := c.valid
  unfold String.utf8EncodeChar
  generalize c.val.toNat = v at named valid
  simp only
  -- One case for each number of bytes. `code` puts the bits of the code together again.
  split
  · rename_i one
    have single : UInt8.ofNat v < 0x80 := by
      rw [UInt8.lt_iff_toNat_lt, toNat_ofNat (by omega)]
      exact Nat.lt_succ_of_le one
    refine ⟨i + 1, ?_⟩
    rw [List.singleton_append, decodeFrom, if_pos single, toNat_ofNat (by omega), named]
  · split
    · have code : v / 64 % 32 * 64 + v % 64 = v := by omega
      refine ⟨i + 1 + 1, ?_⟩
      simp only [List.cons_append, List.nil_append]
      rw [decodeFrom_lead (by omega) (by omega) (lead?_two i (by omega) (by omega)),
        decodeFrom_last (by omega) (by simp) (by simp; omega) rfl, code, named]
    · split
      · have code : (v / 4096 % 16 * 64 + v / 64 % 64) * 64 + v % 64 = v := by omega
        refine ⟨i + 1 + 1 + 1, ?_⟩
        simp only [List.cons_append, List.nil_append]
        rw [decodeFrom_lead (by omega) (by omega) (lead?_three i (by omega)),
          decodeFrom_tail (by omega) ?_ ?_ (by simp),
          decodeFrom_last (by omega) (by simp) (by simp; omega) rfl, code, named]
        · simp only
          split <;> simp
          omega
        · simp only
          split <;> simp <;> omega
      · have code : ((v / 262144 % 8 * 64 + v / 4096 % 64) * 64 + v / 64 % 64) * 64 + v % 64 =
            v := by omega
        refine ⟨i + 1 + 1 + 1 + 1, ?_⟩
        simp only [List.cons_append, List.nil_append]
        rw [decodeFrom_lead (by omega) (by omega) (lead?_four i (by omega)),
          decodeFrom_tail (by omega) ?_ ?_ (by simp),
          decodeFrom_tail (by omega) (by simp) (by simp; omega) (by simp),
          decodeFrom_last (by omega) (by simp) (by simp; omega) rfl, code, named]
        · simp only
          split <;> simp
          omega
        · simp only
          split <;> simp <;> omega

theorem decodeFrom_encode (cs : List Char) (i : Nat) (done : List Char) :
    decodeFrom i done none (cs.flatMap String.utf8EncodeChar) = .ok (done.reverse ++ cs) := by
  induction cs generalizing i done with
  | nil => simp [decodeFrom]
  | cons c cs ih =>
    rw [List.flatMap_cons]
    obtain ⟨j, first⟩ := decodeFrom_encodeChar c i done (cs.flatMap String.utf8EncodeChar)
    rw [first, ih, List.reverse_cons, List.append_assoc, List.singleton_append]

/-! ### Bytes of a text -/

theorem toList_loop (bytes : ByteArray) (i : Nat) (done : List UInt8) :
    ByteArray.toList.loop bytes i done = done.reverse ++ bytes.data.toList.drop i := by
  fun_induction ByteArray.toList.loop bytes i done with
  | case1 i done inside ih =>
    have within : i < bytes.data.toList.length := inside
    have byte : bytes.get! i = bytes.data.toList[i] := by
      simp [ByteArray.get!, inside]
    rw [ih, byte, List.reverse_cons, List.append_assoc, List.singleton_append,
      List.getElem_cons_drop]
  | case2 i done outside =>
    have past : bytes.data.toList.drop i = [] := List.drop_eq_nil_of_le (Nat.not_lt.mp outside)
    rw [past, List.append_nil]

theorem toList_toUTF8 (text : String) :
    text.toUTF8.toList = text.toList.flatMap String.utf8EncodeChar := by
  rw [String.toUTF8_eq_toByteArray, ← String.utf8Encode_toList, List.utf8Encode, ByteArray.toList,
    toList_loop]
  simp

/-- The bytes of a text decode to its characters. -/
theorem decode_toUTF8 (text : String) : decode text.toUTF8.toList = .ok text.toList := by
  rw [decode, toList_toUTF8, decodeFrom_encode]
  rfl

end StreamFraming.Utf8
