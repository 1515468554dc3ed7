import StreamFraming.Proofs.Registrations

/-!
# One scanner more

What a registry with one more scanner has in common with the registry without it (`Registry.Adds`).
The ids behind the new one are one higher, and nothing else changes: this is how the calls that name
a scanner can be told from a registry (`Registry.adds_ofCalls`).
-/

namespace StreamFraming

/-! ### Making room for an id -/

/-- The id that a scanner has once another one stands at `k`. -/
def bump (k i : Nat) : Nat := if i < k then i else i + 1

theorem bump_ne (k i : Nat) : bump k i ≠ k := by
  unfold bump
  split <;> omega

theorem bump_lt_bump {k i j : Nat} (h : i < j) : bump k i < bump k j := by
  unfold bump
  split <;> split <;> omega

theorem bump_inj {k i j : Nat} : bump k i = bump k j ↔ i = j := by
  unfold bump
  split <;> split <;> omega

theorem exists_bump {k j : Nat} (h : j ≠ k) : ∃ i, bump k i = j := by
  by_cases below : j < k
  · exact ⟨j, if_pos below⟩
  · exact ⟨j - 1, by rw [bump, if_neg (by omega)]; omega⟩

theorem getElem?_eraseIdx_bump {β : Type} (l : List β) (k i : Nat) :
    (l.eraseIdx k)[i]? = l[bump k i]? := by
  rw [List.getElem?_eraseIdx, bump]
  split <;> rfl

namespace Registry

variable {α μ : Type} {r r' : Registry α μ}

/-! ### What is recorded of a name -/

/-- The scanner of the first call that names it. -/
def keeper (log : List (Registration α μ)) (n : String) : Option (Scanner α μ) :=
  (log.find? (·.name == n)).map (·.scanner)

namespace Records

variable {log log' : List (Registration α μ)} {n m : String} {i k : Nat}

theorem idOf?_eq_some_iff (h : r.Records log) :
    r.idOf? m = some i ↔ (r.scanners.map (·.name))[i]? = some m := by
  rw [idOf?, List.findIdx?_eq_some_iff_getElem, List.getElem?_eq_some_iff]
  constructor
  · rintro ⟨inside, same, -⟩
    exact ⟨by simpa using inside, by simpa using same⟩
  · rintro ⟨inside, same⟩
    rw [List.length_map] at inside
    refine ⟨inside, by simpa using same, fun j before other => ?_⟩
    have equal : (r.scanners.map (·.name))[j]? = (r.scanners.map (·.name))[i]? := by
      rw [List.getElem?_map, List.getElem?_map, List.getElem?_eq_getElem (before.trans inside),
        List.getElem?_eq_getElem inside]
      simp only [beq_iff_eq] at other
      simpa [other] using same.symm
    have := (List.nodup_iff_getElem?_ne_getElem?.mp h.distinct) j i before (by simpa using inside)
    exact this equal

theorem scanner?_eq (h : r.Records log) (i : Nat) :
    r.scanner? i = ((r.scanners.map (·.name))[i]?).bind (keeper log) := by
  rw [scanner?, List.getElem?_map]
  cases found : r.scanners[i]? with
  | none => rfl
  | some s => exact (h.first s (List.mem_of_getElem? found)).symm

/-- Each scanner was called for under its own name. -/
theorem exists_call (h : r.Records log) {s : Scanner α μ} (known : r.scanner? i = some s) :
    ∃ x ∈ log, x.scanner = s := by
  obtain ⟨x, found, same⟩ := Option.map_eq_some_iff.mp (h.first s (List.mem_of_getElem? known))
  exact ⟨x, List.mem_of_find?_eq_some found, same⟩

theorem name_eq (h : r.Records log) {s : Scanner α μ} (named : r.idOf? n = some i)
    (known : r.scanner? i = some s) : s.name = n := by
  have place := h.idOf?_eq_some_iff.mp named
  rw [List.getElem?_map, show r.scanners[i]? = some s from known, Option.map_some] at place
  exact Option.some.inj place

end Records

theorem eraseDups_filter (l : List String) (p : String → Bool) :
    (l.filter p).eraseDups = l.eraseDups.filter p := by
  induction l using List.reverseRecOn with
  | nil => rfl
  | append_singleton l n ih =>
    rw [List.filter_append, List.filter_singleton, eraseDups_concat]
    cases kept : p n with
    | true =>
      simp only [cond_true, eraseDups_concat, List.mem_filter, kept, and_true, ih]
      split
      case isTrue => rfl
      case isFalse => simp [kept]
    | false =>
      simp only [cond_false, List.append_nil, ih]
      split
      case isTrue => rfl
      case isFalse => simp [kept]

/-- A registry has one more scanner than another, under the id `k`. -/
structure Adds (k : Nat) (r r' : Registry α μ) : Prop where
  scanner : ∀ i, r'.scanner? (bump k i) = r.scanner? i
  masks : ∀ e i, (r'.binding e).scanners.contains (bump k i) = (r.binding e).scanners.contains i
  /-- The scanner that is added competes for no endpoint alone. -/
  joined : ∀ e, (r'.binding e).scanners.contains k = true → (r.binding e).scanners.isEmpty = false
  known : ∀ e i, (r.binding e).scanners.contains i = true → (r.scanner? i).isSome = true
  added : (r'.scanner? k).isSome = true
  bound : r'.maxFlushPoint = r.maxFlushPoint

namespace Records

variable {log log' : List (Registration α μ)} {n m : String} {i k : Nat}

theorem keeper_without (other : m ≠ n) :
    keeper (log.filter (·.name != n)) m = keeper log m := by
  rw [keeper, keeper, List.find?_filter]
  congr 2
  funext x
  by_cases same : x.name = m
  · simp [same, other]
  · simp [same]

section Without

variable (h' : r'.Records log) (h : r.Records (log.filter (·.name != n)))
  (known : r'.idOf? n = some k)

include h' h known

/-- Without the calls that name a scanner, its name is missing and those behind it move up. -/
theorem names_without :
    r.scanners.map (·.name) = (r'.scanners.map (·.name)).eraseIdx k := by
  have place : (r'.scanners.map (·.name)).idxOf n = k := by
    obtain ⟨inside, rfl⟩ := List.getElem?_eq_some_iff.mp (h'.idOf?_eq_some_iff.mp known)
    exact h'.distinct.idxOf_getElem k inside
  have others : (log.filter (·.name != n)).map (·.name) = (log.map (·.name)).filter (· != n) := by
    rw [List.filter_map]
    rfl
  rw [h.names, others, eraseDups_filter, ← h'.names, ← h'.distinct.erase_eq_filter,
    List.erase_eq_eraseIdx_of_idxOf place]

theorem idOf?_without : r'.idOf? m = some (bump k i) ↔ r.idOf? m = some i := by
  rw [h'.idOf?_eq_some_iff, h.idOf?_eq_some_iff, h'.names_without h known,
    getElem?_eraseIdx_bump]

theorem scanner?_without : r'.scanner? (bump k i) = r.scanner? i := by
  rw [h'.scanner?_eq, h.scanner?_eq, h'.names_without h known, getElem?_eraseIdx_bump]
  cases found : (r'.scanners.map (·.name))[bump k i]? with
  | none => rfl
  | some m =>
    have other : m ≠ n := by
      rintro rfl
      have same := known.symm.trans (h'.idOf?_eq_some_iff.mpr found)
      exact bump_ne k i (Option.some.inj same).symm
    exact (keeper_without other).symm

theorem masks_without (e : Endpoint) :
    (r'.binding e).scanners.contains (bump k i) = (r.binding e).scanners.contains i := by
  rw [Bool.eq_iff_iff, h'.masks, h.masks]
  simp only [h'.idOf?_without h known, List.mem_filter, bne_iff_ne, and_assoc]
  refine exists_congr fun x => and_congr_right fun _ => ?_
  refine (and_iff_right_of_imp fun ⟨_, own⟩ => ?_).symm
  intro same
  rw [← h'.idOf?_without h known, same, known, Option.some.injEq] at own
  exact bump_ne k i own.symm

theorem adds_without
    (joined : ∀ x ∈ log, x.name = n → ∃ y ∈ log, y.name ≠ n ∧ y.endpoint = x.endpoint)
    (bound : r'.maxFlushPoint = r.maxFlushPoint) : Adds k r r' where
  scanner _ := h'.scanner?_without h known
  masks e _ := h'.masks_without h known e
  joined e listed := by
    obtain ⟨x, inside, rfl, named⟩ := (h'.masks e k).mp listed
    have same : x.name = n := by
      rw [h'.idOf?_eq_some_iff] at named known
      exact Option.some.inj (named.symm.trans known)
    obtain ⟨y, other, apart, shared⟩ := joined x inside same
    have kept : y ∈ log.filter (·.name != n) := by simpa using ⟨other, apart⟩
    obtain ⟨i, own⟩ := h.known_of_mem kept
    rw [Bool.eq_false_iff]
    intro empty
    have missing := ScannerSet.isEmpty_iff.mp empty i
    rw [(h.masks x.endpoint i).mpr ⟨y, kept, shared, own⟩] at missing
    cases missing
  known _ _ := h.scanner?_isSome
  added := by
    rw [scanner?, List.getElem?_eq_getElem (lt_of_idOf? known)]
    rfl
  bound := bound

end Without

/-- Where there is an id for every name no call fails. -/
theorem accepted_eq (h : r.Records log) {calls : List (Registration α μ)}
    (room : ((log ++ calls).map (·.name)).toFinset.card ≤ ScannerSet.capacity) :
    r.accepted calls = calls := by
  induction calls generalizing r log with
  | nil => rfl
  | cons x calls ih =>
    rw [accepted]
    cases done : Registry.register x.endpoint x.scanner x.auto r with
    | ok id r' =>
      exact congrArg (x :: ·) (ih (h.register done).1 (by simpa using room))
    | error error r' =>
      obtain ⟨new, full⟩ := (h.fails_iff x).mp ⟨error, r', done⟩
      have grown : insert x.name (log.map (·.name)).toFinset ⊆
          ((log ++ x :: calls).map (·.name)).toFinset := by
        intro m
        simp only [Finset.mem_insert, List.mem_toFinset, List.map_append, List.map_cons,
          List.mem_append, List.mem_cons]
        tauto
      have more := Finset.card_le_card grown
      rw [Finset.card_insert_of_notMem (by simpa using new), full] at more
      exact absurd (more.trans room) (by omega)

end Records

theorem maxFlushPoint_enterAll (r : Registry α μ) (calls : List (Registration α μ)) :
    (r.enterAll calls).maxFlushPoint = r.maxFlushPoint := by
  induction calls generalizing r with
  | nil => rfl
  | cons x calls ih =>
    rw [enterAll]
    cases done : register x.endpoint x.scanner x.auto r with
    | ok id r' =>
      obtain ⟨_, _, same, _, kept, _⟩ | ⟨failed, _⟩ := call_cases r x
      · obtain ⟨-, rfl⟩ := EStateM.Result.ok.inj (done.symm.trans same)
        exact (ih r').trans kept
      · rw [done] at failed; cases failed
    | error error r' =>
      obtain ⟨-, rfl⟩ := register_error done
      exact ih _

/-- The registry that calls build. -/
def ofCalls (bound : UInt32) (calls : List (Registration α μ)) : Registry α μ :=
  (Registry.empty.withMaxFlushPoint bound).enterAll calls

variable {bound : UInt32} {calls : List (Registration α μ)} {n : String}

theorem records_ofCalls (room : (calls.map (·.name)).toFinset.card ≤ ScannerSet.capacity) :
    (ofCalls bound calls).Records calls := by
  have begun : (Registry.empty.withMaxFlushPoint bound : Registry α μ).Records [] := .nil rfl rfl
  have recorded := (begun.after_calls calls).1
  rwa [begun.accepted_eq room, List.nil_append] at recorded

theorem room_without (room : (calls.map (·.name)).toFinset.card ≤ ScannerSet.capacity)
    (n : String) :
    ((calls.filter (·.name != n)).map (·.name)).toFinset.card ≤ ScannerSet.capacity := by
  refine (Finset.card_le_card fun m => ?_).trans room
  simp only [List.mem_toFinset, List.mem_map, List.mem_filter]
  exact fun ⟨x, inside, same⟩ => ⟨x, inside.1, same⟩

/-- The calls that name a scanner add it to what the other calls register, where there is an id for
every name and others are called for wherever it is. -/
theorem adds_ofCalls (room : (calls.map (·.name)).toFinset.card ≤ ScannerSet.capacity) {k : Nat}
    (known : (ofCalls bound calls).idOf? n = some k)
    (joined : ∀ x ∈ calls, x.name = n → ∃ y ∈ calls, y.name ≠ n ∧ y.endpoint = x.endpoint) :
    Adds k (ofCalls bound (calls.filter (·.name != n))) (ofCalls bound calls) := by
  refine (records_ofCalls room).adds_without (records_ofCalls (room_without room n)) known joined ?_
  rw [ofCalls, ofCalls, maxFlushPoint_enterAll, maxFlushPoint_enterAll]

end Registry

end StreamFraming
