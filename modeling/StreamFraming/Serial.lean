/-!
# Serial order of sequence numbers

Sequence numbers live on a circle of `2 ^ 32` words. One is before another when the walk from it to
the other is the shorter one; a walk of exactly half the circle counts as "before" both ways.
Comparisons see the difference of their arguments only, so adding the same word to both changes
nothing (`before_add_right`).
-/

namespace StreamFraming.Serial

/-- The upper half of the circle: differences that read as steps backwards. -/
def halfCircle : UInt32 := 0x80000000

def before (a b : UInt32) : Bool := halfCircle ≤ a - b

def atOrBefore (a b : UInt32) : Bool := a == b || before a b

def after (a b : UInt32) : Bool := !atOrBefore a b

theorem sub_add_right (a b c : UInt32) : (a + c) - (b + c) = a - b := by
  apply UInt32.toBitVec_inj.mp
  simp only [UInt32.toBitVec_sub, UInt32.toBitVec_add]
  grind

theorem before_add_right (a b c : UInt32) : before (a + c) (b + c) = before a b := by
  rw [before, before, sub_add_right]

theorem atOrBefore_add_right (a b c : UInt32) :
    atOrBefore (a + c) (b + c) = atOrBefore a b := by
  have same : (a + c == b + c) = (a == b) := by
    rw [Bool.eq_iff_iff, beq_iff_eq, beq_iff_eq]
    exact UInt32.add_left_inj c
  simp [atOrBefore, before_add_right, same]

theorem after_add_right (a b c : UInt32) : after (a + c) (b + c) = after a b := by
  simp [after, atOrBefore_add_right]

end StreamFraming.Serial
