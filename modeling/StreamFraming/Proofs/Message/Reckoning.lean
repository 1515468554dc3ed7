import StreamFraming.Proofs.Message.Grammar

/-!
# The length that fields make

The digits of a length go behind the digits that are there, which a blank behind the colon of a
field clears. So fields that declare a length without a blank make a longer number (`reckonedFrom`),
and the last of them decides alone just if it has a blank or there is nothing to clear
(`reckoned_last`).
-/

namespace StreamFraming.Http

def HeaderField.isSpaced (f : HeaderField) : Bool :=
  ((f.text.dropWhile (· ≠ 0x3A)).drop 1).head?.any isBlank

theorem HeaderField.isSpaced_eq {f : HeaderField} {word b b' v : List UInt8}
    (whole : f.text = word ++ (b ++ 0x3A :: (b' ++ v)))
    (spelled : word.map fold = contentLengthName)
    (blank : IsBlank b) (blank' : IsBlank b') (begins : ∀ c, v.head? = some c → isBlank c = false) :
    f.isSpaced = !b'.isEmpty := by
  have noColon : ∀ c ∈ word ++ b, c ≠ 0x3A := by
    intro c hc
    rcases List.mem_append.mp hc with inside | inside
    · rintro rfl
      have named := List.mem_map_of_mem (f := fold) inside
      rw [spelled] at named
      revert named
      decide
    · rintro rfl
      cases blank _ inside
  have cut : f.text.dropWhile (· ≠ 0x3A) = 0x3A :: (b' ++ v) := by
    rw [whole, ← List.append_assoc, List.dropWhile_append_of_pos (by simpa using noColon)]
    rfl
  rw [isSpaced, cut, List.drop_one, List.tail_cons]
  cases b' with
  | nil =>
    rw [List.nil_append]
    cases v with
    | nil => rfl
    | cons c v => exact begins c rfl
  | cons c b' => exact blank' c List.mem_cons_self

def HeaderField.extend (f : HeaderField) (n : Nat) (v : List UInt8) : Nat :=
  numeralFrom 10 (if f.isSpaced then 0 else n) v

/-- The field leaves nothing of the digits in front of it. -/
def HeaderField.clears (f : HeaderField) : Bool := f.contentLength?.isSome && f.isSpaced

/-- The length that fields make behind one of `n`, if all of it can be read. -/
def reckonedFrom (n : Nat) : List HeaderField → Option Nat
  | [] => some n
  | f :: fs =>
    match f.contentLength? with
    | none => reckonedFrom n fs
    | some v => if f.extend n v < lengthBound then reckonedFrom (f.extend n v) fs else none

def reckoned (fs : List HeaderField) : Option Nat := reckonedFrom 0 fs

variable {f g : HeaderField} {fs pre post : List HeaderField} {v : List UInt8} {m n a b : Nat}

theorem reckonedFrom_cons_none (known : f.contentLength? = none) (n : Nat)
    (fs : List HeaderField) : reckonedFrom n (f :: fs) = reckonedFrom n fs := by
  rw [reckonedFrom, known]

theorem reckonedFrom_cons_some (known : f.contentLength? = some v) (n : Nat)
    (fs : List HeaderField) :
    reckonedFrom n (f :: fs) =
      if f.extend n v < lengthBound then reckonedFrom (f.extend n v) fs else none := by
  rw [reckonedFrom, known]

theorem reckonedFrom_cons_eq_some (known : f.contentLength? = some v) :
    reckonedFrom n (f :: fs) = some a ↔
      f.extend n v < lengthBound ∧ reckonedFrom (f.extend n v) fs = some a := by
  rw [reckonedFrom_cons_some known]
  split <;> simp_all

theorem reckonedFrom_append (n : Nat) (pre post : List HeaderField) :
    reckonedFrom n (pre ++ post) = (reckonedFrom n pre).bind fun m => reckonedFrom m post := by
  induction pre generalizing n with
  | nil => rfl
  | cons f pre ih =>
    rw [List.cons_append]
    cases known : f.contentLength? with
    | none => rw [reckonedFrom_cons_none known, reckonedFrom_cons_none known, ih]
    | some v =>
      rw [reckonedFrom_cons_some known, reckonedFrom_cons_some known]
      split
      · exact ih _
      · rfl

theorem reckonedFrom_silent (silent : fs.filterMap HeaderField.contentLength? = []) (n : Nat) :
    reckonedFrom n fs = some n := by
  induction fs with
  | nil => rfl
  | cons f fs ih =>
    cases known : f.contentLength? with
    | none =>
      rw [List.filterMap_cons_none known] at silent
      rw [reckonedFrom_cons_none known, ih silent]
    | some v =>
      rw [List.filterMap_cons_some known] at silent
      cases silent

/-- Fields that declare at most one length make that one. -/
theorem ValidFields.reckoned (valid : ValidFields fs) :
    reckoned fs = some ((declared? fs).getD 0) := by
  obtain ⟨single, length⟩ := valid
  unfold Http.reckoned declared?
  induction fs with
  | nil => rfl
  | cons f fs ih =>
    cases known : f.contentLength? with
    | none =>
      rw [List.filterMap_cons_none known] at single length ⊢
      rw [reckonedFrom_cons_none known]
      exact ih single length
    | some v =>
      rw [List.filterMap_cons_some known] at single length ⊢
      have alone : f.extend 0 v = numeral 10 v := by rw [HeaderField.extend, ite_self, numeral]
      have small : numeral 10 v < lengthBound := (length v List.mem_cons_self).2
      have silent : fs.filterMap HeaderField.contentLength? = [] := by
        rw [List.length_cons] at single
        exact List.eq_nil_of_length_eq_zero (by omega)
      rw [reckonedFrom_cons_some known, alone, if_pos small, reckonedFrom_silent silent]
      rfl

/-! ### Which fields count -/

theorem numeralFrom_eq (base n : Nat) (v : List UInt8) :
    numeralFrom base n v = n * base ^ v.length + numeral base v := by
  induction v generalizing n with
  | nil => simp [numeral]
  | cons c v ih =>
    have first : numeral base (c :: v) = digitValue c * base ^ v.length + numeral base v := by
      rw [numeral, numeralFrom_cons, ih, Nat.zero_mul, Nat.zero_add]
    rw [numeralFrom_cons, ih, first, List.length_cons, Nat.pow_succ', Nat.add_mul, Nat.mul_assoc,
      Nat.add_assoc]

theorem numeralFrom_inj {base : Nat} (positive : 0 < base) (v : List UInt8) :
    numeralFrom base m v = numeralFrom base n v ↔ m = n := by
  rw [numeralFrom_eq, numeralFrom_eq base n, Nat.add_right_cancel_iff]
  exact Nat.mul_left_inj (Nat.pow_pos positive).ne'

theorem HeaderField.extend_eq_numeral :
    f.extend n v = numeral 10 v ↔ n = 0 ∨ f.isSpaced = true := by
  rw [extend, numeral, numeralFrom_inj (by decide)]
  cases f.isSpaced <;> simp

theorem HeaderField.extend_inj : f.extend m v = f.extend n v ↔ m = n ∨ f.isSpaced = true := by
  rw [extend, extend, numeralFrom_inj (by decide)]
  cases f.isSpaced <;> simp

theorem HeaderField.extend_respaced :
    f.extend n v = g.extend n v ↔ f.isSpaced = g.isSpaced ∨ n = 0 := by
  rw [extend, extend, numeralFrom_inj (by decide)]
  cases f.isSpaced <;> cases g.isSpaced <;> simp [eq_comm]

/-- The fields make the length that the last of them declares just if its digits are alone. -/
theorem reckoned_last (known : f.contentLength? = some v) (length : IsLength v)
    (silent : post.filterMap HeaderField.contentLength? = []) :
    reckoned (pre ++ f :: post) = some (numeral 10 v) ↔
      ∃ m, reckoned pre = some m ∧ (m = 0 ∨ f.isSpaced = true) := by
  rw [reckoned, reckonedFrom_append, Option.bind_eq_some_iff]
  refine exists_congr fun m => and_congr_right fun _ => ?_
  rw [reckonedFrom_cons_eq_some known, reckonedFrom_silent silent, Option.some.injEq,
    HeaderField.extend_eq_numeral, and_iff_right_iff_imp]
  intro alone
  rw [HeaderField.extend_eq_numeral.mpr alone]
  exact length.2

/-- Different lengths come to the same just if a field clears them. -/
theorem reckonedFrom_inj (left : reckonedFrom m fs = some a) (right : reckonedFrom n fs = some b) :
    a = b ↔ m = n ∨ fs.any HeaderField.clears = true := by
  induction fs generalizing m n with
  | nil =>
    cases left
    cases right
    simp
  | cons f fs ih =>
    rw [List.any_cons, Bool.or_eq_true]
    cases known : f.contentLength? with
    | none =>
      rw [reckonedFrom_cons_none known] at left right
      simpa [HeaderField.clears, known] using ih left right
    | some v =>
      -- a field that clears forgets both lengths, and any other one keeps them apart
      have later := ih ((reckonedFrom_cons_eq_some known).mp left).2
        ((reckonedFrom_cons_eq_some known).mp right).2
      rw [later, HeaderField.extend_inj, HeaderField.clears, known]
      simp [or_assoc]

/-- A blank put behind the colon of a field, or taken from there, makes no difference to the length
just if there is nothing to clear, or if a field behind it clears the length. -/
theorem reckoned_respaced (known : f.contentLength? = some v) (known' : g.contentLength? = some v)
    (left : reckoned (pre ++ f :: post) = some a) (right : reckoned (pre ++ g :: post) = some b) :
    a = b ↔ f.isSpaced = g.isSpaced ∨ reckoned pre = some 0 ∨
      post.any HeaderField.clears = true := by
  rw [reckoned, reckonedFrom_append, Option.bind_eq_some_iff] at left right
  obtain ⟨m, before, left⟩ := left
  obtain ⟨n, before', right⟩ := right
  cases before.symm.trans before'
  rw [reckonedFrom_inj ((reckonedFrom_cons_eq_some known).mp left).2
    ((reckonedFrom_cons_eq_some known').mp right).2, HeaderField.extend_respaced, reckoned, before,
    or_assoc, Option.some.injEq]

end StreamFraming.Http
