import StreamFraming.Proofs.Checks

/-!
# Bytes that come more than once

A host may present bytes again, in segments of their own or in front of new ones. Within half the
circle of sequence numbers such bytes are told from new ones, and checks with them come to what the
checks without them come to (`Engine.checkAll_duplicates`).
-/

namespace StreamFraming

variable {α μ : Type}

namespace Serial

theorem before_back (a : UInt32) {n : UInt32} (nonzero : n ≠ 0) (near : n.toNat ≤ 2 ^ 31) :
    before (a - n) a = true := by
  have difference : a - n - a = 0 - n := by grind
  have positive : n.toNat ≠ 0 := fun zero => nonzero (UInt32.toNat_inj.mp zero)
  have half : halfCircle.toNat = 2 ^ 31 := rfl
  have bound := n.toNat_lt
  rw [before, difference]
  simp only [decide_eq_true_eq, UInt32.le_iff_toNat_le, UInt32.toNat_sub, half, UInt32.toNat_zero]
  omega

theorem atOrBefore_back (a : UInt32) {n : UInt32} (near : n.toNat ≤ 2 ^ 31) :
    atOrBefore (a - n) a = true := by
  by_cases zero : n = 0
  · have here : a - n = a := by rw [zero, UInt32.sub_zero]
    rw [here, atOrBefore, beq_self_eq_true]
    rfl
  · rw [atOrBefore, before_back a zero near, Bool.or_true]

theorem after_back (a : UInt32) {n : UInt32} (near : n.toNat ≤ 2 ^ 31) :
    after (a - n) a = false := by
  rw [after, atOrBefore_back a near]
  rfl

end Serial

/-! ### Segments with bytes that came before -/

/-- The segment lies within the half circle up to a place. -/
def Segment.IsBehind (segment : Segment) (place : UInt32) : Prop :=
  ∃ back : Nat, back ≤ 2 ^ 31 ∧ segment.data.length ≤ back ∧ segment.seq = place - back.toUInt32

def Segment.repeating (repeated : List UInt8) (segment : Segment) : Segment :=
  { segment with
    data := repeated ++ segment.data
    seq := segment.seq - repeated.length.toUInt32 }

namespace Lane

variable {l : Lane α}

theorem arrival_behind (started : l.status ≠ .start) {segment : Segment}
    (behind : segment.IsBehind l.expected) : l.arrival segment.seq segment.data = .stale := by
  obtain ⟨back, near, inside, seq⟩ := behind
  have ends : segment.seq + Length.ofNat segment.data.length =
      l.expected - (back - segment.data.length).toUInt32 := by
    rw [seq, Length.ofNat_of_lt (by omega)]
    apply UInt32.toNat_inj.mp
    have bound := l.expected.toNat_lt
    simp only [UInt32.toNat_add, UInt32.toNat_sub]
    rw [Length.toNat_toUInt32 (show back < 2 ^ 32 by omega),
      Length.toNat_toUInt32 (show segment.data.length < 2 ^ 32 by omega),
      Length.toNat_toUInt32 (show back - segment.data.length < 2 ^ 32 by omega)]
    omega
  have noGap : Serial.after segment.seq l.expected = false := by
    rw [seq]
    exact Serial.after_back _ (by rw [Length.toNat_toUInt32 (by omega)]; exact near)
  have stale : Serial.atOrBefore (segment.seq + Length.ofNat segment.data.length) l.expected := by
    rw [ends]
    exact Serial.atOrBefore_back _ (by rw [Length.toNat_toUInt32 (by omega)]; omega)
  rw [arrival, if_neg started, noGap, stale]
  rfl

theorem arrival_next (started : l.status ≠ .start) {data : List UInt8} (nonempty : data ≠ [])
    (short : data.length < 2 ^ 31) : l.arrival l.expected data = .fresh l data := by
  have positive : 0 < data.length := List.length_pos_iff.mpr nonempty
  have length : (Length.ofNat data.length).toNat = data.length := by
    rw [Length.ofNat_of_lt (by omega), Length.toNat_toUInt32 (by omega)]
  have nonzero : Length.ofNat data.length ≠ 0 := by
    rw [ne_eq, ← UInt32.toNat_inj, length, UInt32.toNat_zero]
    omega
  rw [arrival, if_neg started, Serial.after_self, Serial.before_self,
    Serial.atOrBefore_ahead _ nonzero (by omega)]
  rfl

theorem arrival_repeated (started : l.status ≠ .start) {repeated data : List UInt8}
    (nonempty : data ≠ []) (short : repeated.length + data.length < 2 ^ 31) :
    l.arrival (l.expected - repeated.length.toUInt32) (repeated ++ data) = .fresh l data := by
  by_cases alone : repeated = []
  · have place : l.expected - ([] : List UInt8).length.toUInt32 = l.expected :=
      UInt32.sub_zero l.expected
    rw [alone, place, List.nil_append]
    exact arrival_next started nonempty (by omega)
  · have positive : 0 < data.length := List.length_pos_iff.mpr nonempty
    have repeats : 0 < repeated.length := List.length_pos_iff.mpr alone
    have back : repeated.length.toUInt32.toNat = repeated.length := Length.toNat_toUInt32 (by omega)
    have ahead : data.length.toUInt32.toNat = data.length := Length.toNat_toUInt32 (by omega)
    have back_ne : repeated.length.toUInt32 ≠ 0 := by
      rw [ne_eq, ← UInt32.toNat_inj, back, UInt32.toNat_zero]
      omega
    have ahead_ne : data.length.toUInt32 ≠ 0 := by
      rw [ne_eq, ← UInt32.toNat_inj, ahead, UInt32.toNat_zero]
      omega
    have ends : l.expected - repeated.length.toUInt32 + Length.ofNat (repeated ++ data).length =
        l.expected + data.length.toUInt32 := by
      rw [Length.ofNat_of_lt (by rw [List.length_append]; omega), List.length_append,
        show (repeated.length + data.length).toUInt32 =
          repeated.length.toUInt32 + data.length.toUInt32 from UInt32.ofNat_add ..]
      grind
    have shift : l.expected - (l.expected - repeated.length.toUInt32) =
        repeated.length.toUInt32 := by grind
    rw [arrival, if_neg started, ends, shift, back, List.drop_left,
      Serial.after_back _ (by omega), Serial.before_back _ back_ne (by omega),
      Serial.atOrBefore_ahead _ ahead_ne (by omega)]
    rfl

end Lane

namespace Engine

variable (e : Engine α μ) (s : Session α) (d : Direction)

theorem check_behind (started : (s.lane d).status ≠ .start) {segment : Segment}
    (behind : segment.IsBehind (s.lane d).expected) :
    e.check s d segment =
      { engine := e, session := s, length := 0, marks := segment.marks, calls := [] } := by
  rw [check, Lane.arrival_behind started behind]

theorem check_repeating (started : (s.lane d).status ≠ .start) {segment : Segment}
    (faithful : segment.FaithfulTo (s.lane d)) {repeated : List UInt8}
    (short : repeated.length + segment.data.length < 2 ^ 31) :
    e.check s d (segment.repeating repeated) = e.check s d segment := by
  have again : (s.lane d).arrival (segment.repeating repeated).seq
      (segment.repeating repeated).data = .fresh (s.lane d) segment.data := by
    rw [Segment.repeating, faithful.next started]
    exact Lane.arrival_repeated started faithful.nonempty short
  rw [check, again, check, faithful.next started,
    Lane.arrival_next started faithful.nonempty faithful.short]
  rfl

end Engine

/-! ### Runs in which bytes come again -/

/-- A check of a host that may present bytes again. -/
inductive Delivery where
  | news (d : Direction) (repeated : List UInt8) (segment : Segment)
  | duplicate (d : Direction) (segment : Segment)

namespace Delivery

def check : Delivery → Direction × Segment
  | .news d repeated segment => (d, segment.repeating repeated)
  | .duplicate d segment => (d, segment)

/-- The check without the bytes that came before, if there is more in it. -/
def news? : Delivery → Option (Direction × Segment)
  | .news d _ segment => some (d, segment)
  | .duplicate _ _ => none

/-- What is presented again lies behind what the lane has read. -/
def Suits (s : Session α) : Delivery → Prop
  | .news d repeated segment =>
    segment.FaithfulTo (s.lane d) ∧
      (repeated = [] ∨
        (s.lane d).status ≠ .start ∧ repeated.length + segment.data.length < 2 ^ 31)
  | .duplicate d segment => (s.lane d).status ≠ .start ∧ segment.IsBehind (s.lane d).expected

end Delivery

namespace Engine

/-- A host could present this, were it to go on with what the checks leave. -/
def Suits (e : Engine α μ) (s : Session α) : List Delivery → Prop
  | [] => True
  | x :: xs =>
    x.Suits s ∧
      let r := e.check s x.check.1 x.check.2
      r.engine.Suits r.session xs

theorem check_delivery {e : Engine α μ} {s : Session α} {d : Direction} {repeated : List UInt8}
    {segment : Segment} (suits : (Delivery.news d repeated segment).Suits s) :
    e.check s d (segment.repeating repeated) = e.check s d segment := by
  obtain ⟨faithful, rfl | ⟨started, short⟩⟩ := suits
  · have itself : segment.repeating [] = segment := by
      rw [Segment.repeating, List.nil_append,
        show segment.seq - ([] : List UInt8).length.toUInt32 = segment.seq from UInt32.sub_zero _]
    rw [itself]
  · exact e.check_repeating s d started faithful short

/-- Bytes that come again change no answer to the checks that they are added to, get none
themselves, and leave engine and session as they would be without them. -/
theorem checkAll_duplicates (e : Engine α μ) (s : Session α) (xs : List Delivery)
    (suits : e.Suits s xs) :
    let answers := xs.zip (e.checkAll s (xs.map Delivery.check))
    (answers.filterMap fun x => x.1.news?.map fun _ => x.2) =
        e.checkAll s (xs.filterMap Delivery.news?) ∧
      (∀ d segment r, (.duplicate d segment, r) ∈ answers →
        r.length = 0 ∧ r.marks = segment.marks ∧ r.calls = []) ∧
      e.afterAll s (xs.map Delivery.check) = e.afterAll s (xs.filterMap Delivery.news?) := by
  induction xs generalizing e s with
  | nil => exact ⟨rfl, fun _ _ _ => nofun, rfl⟩
  | cons x xs ih =>
    obtain ⟨first, later⟩ := suits
    obtain ⟨same, silent, left⟩ := ih _ _ later
    cases x with
    | news d repeated segment =>
      have checked := check_delivery (e := e) first
      simp only [Delivery.check, checked] at same silent left
      simp only [List.map_cons, List.filterMap_cons, Delivery.news?, Delivery.check, checkAll,
        checked, List.zip_cons_cons, afterAll, Option.map_some]
      refine ⟨congrArg _ same, ?_, left⟩
      intro d' segment' r made
      rcases List.mem_cons.mp made with made | made
      · cases made
      · exact silent d' segment' r made
    | duplicate d segment =>
      have checked := e.check_behind s d first.1 first.2
      simp only [Delivery.check, checked] at same silent left
      simp only [List.map_cons, List.filterMap_cons, Delivery.news?, Delivery.check, checkAll,
        checked, List.zip_cons_cons, afterAll, Option.map_none]
      refine ⟨same, ?_, left⟩
      intro d' segment' r made
      rcases List.mem_cons.mp made with made | made
      · cases made
        exact ⟨rfl, rfl, rfl⟩
      · exact silent d' segment' r made

/-- A line that begins at the highest sequence number. Its first bytes come again on their own, and
once more in front of its end. -/
theorem checkAll_duplicates_line :
    let lines : Scanner Memo Tally := Delimiter.scanner "lines" 0x0a {}
    let registry : Registry Memo Tally :=
      { scanners := [lines], bindings := [(⟨7, .toServer⟩, { scanners := .singleton 0 })] }
    let e : Engine Memo Tally := .ofRegistry registry
    let s := e.openSession 1 7
    let segment (text : String) (queued seq : UInt32) : Segment :=
      { data := text.toUTF8.toList, queued, seq, marks := .ofDirection .toServer }
    let xs := [.news .toServer [] (segment "ab" 2 0xFFFFFFFF),
      .duplicate .toServer (segment "a" 9 0xFFFFFFFF),
      .news .toServer "ab".toUTF8.toList (segment "c\n" 4 1),
      .duplicate .toServer (segment "abc\n" 0 0xFFFFFFFF)]
    e.Suits s xs ∧
      (e.checkAll s (xs.map Delivery.check)).map (·.length) = [0, 0, 4, 0] ∧
      (e.checkAll s (xs.filterMap Delivery.news?)).map (·.length) = [0, 4] ∧
      e.afterAll s (xs.map Delivery.check) = e.afterAll s (xs.filterMap Delivery.news?) := by
  intro lines registry e s segment xs
  have suits : e.Suits s xs := by
    refine ⟨⟨⟨?_, ?_, ?_, ?_, ?_⟩, .inl rfl⟩, ⟨?_, 2, ?_, ?_, ?_⟩,
      ⟨⟨?_, ?_, ?_, ?_, ?_⟩, .inr ⟨?_, ?_⟩⟩, ⟨?_, 4, ?_, ?_, ?_⟩, trivial⟩ <;> decide +kernel
  obtain ⟨-, -, same⟩ := checkAll_duplicates e s xs suits
  exact ⟨suits, by decide +kernel, by decide +kernel, same⟩

end Engine

end StreamFraming
