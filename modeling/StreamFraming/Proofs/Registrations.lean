import Mathlib.Data.Finset.Card
import StreamFraming.Registry

/-!
# Registrations

A registry is built by calls, each of which registers one scanner at one endpoint. `accepted` lists
the calls that succeed, and `Records` says that a registry is read off such a list: the names in the
order of their first calls, the scanner of the first call for each name, and at each endpoint the
scanners that were called for there. One call keeps `Records`, and so do all.
-/

namespace StreamFraming

structure Registration (α μ : Type) where
  endpoint : Endpoint
  scanner : Scanner α μ
  auto : Bool := false

def Registration.name {α μ : Type} (x : Registration α μ) : String := x.scanner.name

namespace Registry

variable {α μ : Type} {r : Registry α μ} {x : Registration α μ} {id : Nat}

/-! ### One call -/

/-- What a call can do, as `register_cases` says it of its parts. -/
theorem call_cases (r : Registry α μ) (x : Registration α μ) :
    (∃ id r', register x.endpoint x.scanner x.auto r = .ok id r' ∧
      r'.bindings = bind x.endpoint id x.auto r.bindings ∧ r'.maxFlushPoint = r.maxFlushPoint ∧
      (r.idOf? x.name = some id ∧ r'.scanners = r.scanners ∨
        r.idOf? x.name = none ∧ r.scanners.length ≠ ScannerSet.capacity ∧
          id = r.scanners.length ∧ r'.scanners = r.scanners ++ [x.scanner])) ∨
    register x.endpoint x.scanner x.auto r = .error (.tooManyScanners x.name) r ∧
      r.idOf? x.name = none ∧ r.scanners.length = ScannerSet.capacity :=
  register_cases r x.endpoint x.scanner x.auto

/-- A call that fails has no id to give, and leaves the registry as it was. -/
theorem register_error {r' : Registry α μ} {e : Endpoint} {s : Scanner α μ} {auto : Bool}
    {error : RegistryError} (failed : register e s auto r = .error error r') :
    error = .tooManyScanners s.name ∧ r' = r := by
  obtain ⟨_, _, done, _⟩ | ⟨same, _⟩ := register_cases r e s auto
  · rw [failed] at done; cases done
  · exact EStateM.Result.error.inj (failed.symm.trans same)

theorem idOf?_eq_none_iff {n : String} :
    r.idOf? n = none ↔ n ∉ r.scanners.map (·.name) := by
  simp [idOf?, List.findIdx?_eq_none_iff]

theorem idOf?_of_prefix {r' : Registry α μ} (kept : r.scanners <+: r'.scanners) {n : String}
    (known : r.idOf? n = some id) : r'.idOf? n = some id := by
  obtain ⟨more, same⟩ := kept
  simp only [idOf?] at known ⊢
  rw [← same, List.findIdx?_append, known, Option.some_or]

theorem lt_of_idOf? {n : String} (known : r.idOf? n = some id) : id < r.scanners.length :=
  (List.findIdx?_eq_some_iff_getElem.mp known).1

theorem binding_of_bind {r' : Registry α μ} {e : Endpoint} {auto : Bool}
    (bound : r'.bindings = bind e id auto r.bindings) (y : Endpoint) :
    r'.binding y =
      if e = y then
        { scanners := (r.binding y).scanners.insert id, auto := (r.binding y).auto || auto }
      else r.binding y := by
  simp only [binding, bound, lookup_bind]
  split
  case isTrue same => simp [same]
  case isFalse => rfl

theorem eraseDups_concat (l : List String) (n : String) :
    (l ++ [n]).eraseDups = if n ∈ l then l.eraseDups else l.eraseDups ++ [n] := by
  rw [List.eraseDups_append]
  split
  case isTrue inside => simp [List.removeAll, inside]
  case isFalse outside => simp [List.removeAll, outside, List.eraseDups_cons]

/-! ### Many calls -/

def enterAll (r : Registry α μ) : List (Registration α μ) → Registry α μ
  | [] => r
  | x :: xs =>
    match register x.endpoint x.scanner x.auto r with
    | .ok _ r' | .error _ r' => enterAll r' xs

theorem enterAll_append (r : Registry α μ) (xs ys : List (Registration α μ)) :
    r.enterAll (xs ++ ys) = (r.enterAll xs).enterAll ys := by
  induction xs generalizing r with
  | nil => rfl
  | cons x xs ih =>
    rw [List.cons_append, enterAll, enterAll]
    cases register x.endpoint x.scanner x.auto r <;> exact ih _

/-- Those of the calls made in turn that succeed. -/
def accepted (r : Registry α μ) : List (Registration α μ) → List (Registration α μ)
  | [] => []
  | x :: xs =>
    match register x.endpoint x.scanner x.auto r with
    | .ok _ r' => x :: accepted r' xs
    | .error _ r' => accepted r' xs

/-- What a registry keeps of the calls that succeeded. -/
structure Records (r : Registry α μ) (log : List (Registration α μ)) : Prop where
  /-- Ids are handed out in the order of the first calls for each name. -/
  names : r.scanners.map (·.name) = (log.map (·.name)).eraseDups
  distinct : (r.scanners.map (·.name)).Nodup
  room : r.scanners.length ≤ ScannerSet.capacity
  /-- The scanner that is kept for a name is that of the first call. -/
  first : ∀ s ∈ r.scanners, (log.find? (·.name == s.name)).map (·.scanner) = some s
  masks : ∀ e id, (r.binding e).scanners.contains id = true ↔
    ∃ x ∈ log, x.endpoint = e ∧ r.idOf? x.name = some id
  autos : ∀ e, (r.binding e).auto = log.any fun x => decide (x.endpoint = e) && x.auto

namespace Records

variable {log : List (Registration α μ)}

theorem nil {r : Registry α μ} (scanners : r.scanners = []) (bindings : r.bindings = []) :
    r.Records [] := by
  constructor <;> simp [scanners, binding, bindings, lookup, ScannerSet.capacity]

theorem mem_names (h : r.Records log) {n : String} :
    n ∈ r.scanners.map (·.name) ↔ n ∈ log.map (·.name) := by
  rw [h.names, List.mem_eraseDups]

theorem card_names (h : r.Records log) :
    (log.map (·.name)).toFinset.card = r.scanners.length := by
  rw [← List.length_map (·.name), ← List.toFinset_card_of_nodup h.distinct]
  congr 1
  ext n
  rw [List.mem_toFinset, List.mem_toFinset, h.mem_names]

theorem known_of_mem (h : r.Records log) (inside : x ∈ log) : ∃ id, r.idOf? x.name = some id := by
  refine Option.ne_none_iff_exists'.mp fun unknown => ?_
  rw [idOf?_eq_none_iff, h.mem_names] at unknown
  exact unknown (List.mem_map_of_mem inside)

theorem first_append (h : r.Records log) {s : Scanner α μ} (inside : s ∈ r.scanners) :
    ((log ++ [x]).find? (·.name == s.name)).map (·.scanner) = some s := by
  obtain ⟨y, found, rfl⟩ := Option.map_eq_some_iff.mp (h.first s inside)
  rw [List.find?_append, found, Option.some_or, Option.map_some]

/-- Binding the id of a name at an endpoint is recorded in the masks. -/
theorem masks_bind {r' : Registry α μ} (h : r.Records log) (kept : r.scanners <+: r'.scanners)
    (known : r'.idOf? x.name = some id) (room : id < ScannerSet.capacity)
    (bound : r'.bindings = bind x.endpoint id x.auto r.bindings) (e : Endpoint) (i : Nat) :
    (r'.binding e).scanners.contains i = true ↔
      ∃ y ∈ log ++ [x], y.endpoint = e ∧ r'.idOf? y.name = some i := by
  have before : (r.binding e).scanners.contains i = true ↔
      ∃ y ∈ log, y.endpoint = e ∧ r'.idOf? y.name = some i := by
    rw [h.masks]
    refine exists_congr fun y => and_congr_right fun inside => and_congr_right fun _ => ?_
    obtain ⟨j, old⟩ := h.known_of_mem inside
    rw [old, idOf?_of_prefix kept old]
  simp only [List.mem_append, List.mem_singleton, or_and_right, exists_or, exists_eq_left, known,
    Option.some.injEq, ← before, binding_of_bind bound]
  split
  case isTrue here =>
    simp only [ScannerSet.contains_insert, room, decide_true, Bool.and_true, Bool.or_eq_true,
      beq_iff_eq, here, true_and, eq_comm (a := i)]
  case isFalse elsewhere => simp [elsewhere]

theorem autos_bind {r' : Registry α μ} (h : r.Records log)
    (bound : r'.bindings = bind x.endpoint id x.auto r.bindings) (e : Endpoint) :
    (r'.binding e).auto = (log ++ [x]).any fun y => decide (y.endpoint = e) && y.auto := by
  rw [binding_of_bind bound, List.any_append, ← h.autos]
  split
  case isTrue here => simp [here]
  case isFalse elsewhere => simp [elsewhere]

theorem register {r' : Registry α μ} (h : r.Records log)
    (done : Registry.register x.endpoint x.scanner x.auto r = .ok id r') :
    r'.Records (log ++ [x]) ∧ r.scanners <+: r'.scanners ∧ r'.idOf? x.name = some id := by
  obtain ⟨_, _, same, bound, _, how⟩ | ⟨failed, _⟩ := call_cases r x
  case inr => rw [done] at failed; cases failed
  obtain ⟨rfl, rfl⟩ := EStateM.Result.ok.inj (done.symm.trans same)
  obtain ⟨known, kept⟩ | ⟨unknown, room, rfl, kept⟩ := how
  case inl =>
    have inside : x.name ∈ log.map (·.name) := by
      rw [← h.mem_names]
      by_contra absent
      rw [idOf?_eq_none_iff.mpr absent] at known
      cases known
    have known' : r'.idOf? x.name = some id := by rw [idOf?, kept]; exact known
    have fits : id < ScannerSet.capacity := (lt_of_idOf? known).trans_le h.room
    refine ⟨?_, by rw [kept], known'⟩
    constructor
    case names => rw [kept, h.names, List.map_append, List.map_singleton, eraseDups_concat,
      if_pos inside]
    case distinct => rw [kept]; exact h.distinct
    case room => rw [kept]; exact h.room
    case first => rw [kept]; exact fun s mem => h.first_append mem
    case masks => exact h.masks_bind (by rw [kept]) known' fits bound
    case autos => exact h.autos_bind bound
  case inr =>
    have absent : x.name ∉ r.scanners.map (·.name) := idOf?_eq_none_iff.mp unknown
    have outside : x.name ∉ log.map (·.name) := by rwa [← h.mem_names]
    have grown : r.scanners <+: r'.scanners := ⟨[x.scanner], kept.symm⟩
    have known' : r'.idOf? x.name = some r.scanners.length := by
      have own : (x.scanner.name == x.name) = true := beq_self_eq_true _
      rw [idOf?] at unknown ⊢
      rw [kept, List.findIdx?_append, unknown, Option.none_or, List.findIdx?_cons, if_pos own,
        Option.map_some, Nat.zero_add]
    have fits : r.scanners.length < ScannerSet.capacity := h.room.lt_of_ne room
    refine ⟨?_, grown, known'⟩
    constructor
    case names => rw [kept, List.map_append, h.names, List.map_append, List.map_singleton,
      List.map_singleton, eraseDups_concat, if_neg outside]; rfl
    case distinct =>
      rw [kept, List.map_append]
      exact h.distinct.append (List.nodup_singleton _) (by simpa [Registration.name] using absent)
    case room => rw [kept, List.length_append]; exact fits
    case first =>
      intro s mem
      rw [kept, List.mem_append, List.mem_singleton] at mem
      obtain old | rfl := mem
      · exact h.first_append old
      · have : log.find? (·.name == x.scanner.name) = none := by
          simpa [List.find?_eq_none, Registration.name] using outside
        have own : (x.name == x.scanner.name) = true := beq_self_eq_true _
        rw [List.find?_append, this, Option.none_or, List.find?_singleton, if_pos own,
          Option.map_some]
    case masks => exact h.masks_bind grown known' fits bound
    case autos => exact h.autos_bind bound

/-- A call keeps the record: one that fails changes nothing, one that succeeds is added to it. -/
theorem after_calls (h : r.Records log) (xs : List (Registration α μ)) :
    (r.enterAll xs).Records (log ++ r.accepted xs) ∧
      r.scanners <+: (r.enterAll xs).scanners := by
  induction xs generalizing r log with
  | nil => exact ⟨by rwa [accepted, List.append_nil], List.prefix_rfl⟩
  | cons x xs ih =>
    rw [enterAll, accepted]
    cases done : Registry.register x.endpoint x.scanner x.auto r with
    | ok id r' =>
      obtain ⟨recorded, grown, _⟩ := h.register done
      obtain ⟨rest, kept⟩ := ih recorded
      rw [List.append_assoc, List.singleton_append] at rest
      exact ⟨rest, grown.trans kept⟩
    | error error r' =>
      obtain ⟨-, rfl⟩ := register_error done
      exact ih h

/-- A call fails where its name is new and no id is left, and only there. -/
theorem fails_iff (h : r.Records log) (x : Registration α μ) :
    (∃ error r', Registry.register x.endpoint x.scanner x.auto r = .error error r') ↔
      x.name ∉ log.map (·.name) ∧ (log.map (·.name)).toFinset.card = ScannerSet.capacity := by
  rw [h.card_names, ← h.mem_names, ← idOf?_eq_none_iff]
  constructor
  · rintro ⟨error, r', failed⟩
    obtain ⟨_, _, same, _⟩ | ⟨_, unknown, full⟩ := call_cases r x
    · rw [failed] at same; cases same
    · exact ⟨unknown, full⟩
  · rintro ⟨unknown, full⟩
    obtain ⟨_, _, _, _, _, how⟩ | ⟨failed, _⟩ := call_cases r x
    · obtain ⟨known, _⟩ | ⟨_, room, _⟩ := how
      · rw [unknown] at known; cases known
      · exact absurd full room
    · exact ⟨_, _, failed⟩

theorem scanner?_isSome (h : r.Records log) {e : Endpoint}
    (inside : (r.binding e).scanners.contains id = true) : (r.scanner? id).isSome := by
  obtain ⟨x, _, _, known⟩ := (h.masks e id).mp inside
  rw [scanner?, List.getElem?_eq_getElem (lt_of_idOf? known), Option.isSome_some]

end Records

/-- A registry is the record of the calls that succeeded, whatever calls were made. A call fails
where its name is new and as many names as there are ids have been registered, and it then leaves
the registry as it was; a call that succeeds answers with the id of its name. The names stand in the
order of their first calls, each with the scanner of that call, and keep their places. At each
endpoint the ids are those of the scanners that were called for there, it is scanned unasked if one
of those calls says so, and each of its ids has a scanner. -/
theorem registry_records (bound : UInt32) (calls : List (Registration α μ)) :
    let start : Registry α μ := Registry.empty.withMaxFlushPoint bound
    let r := start.enterAll calls
    let log := start.accepted calls
    (∀ e s auto, (∃ error r', register e s auto r = .error error r') ↔
      s.name ∉ log.map (·.name) ∧ (log.map (·.name)).toFinset.card = 8) ∧
    (∀ e s auto error r', register e s auto r = .error error r' →
      error = .tooManyScanners s.name ∧ r' = r) ∧
    (∀ e s auto id r', register e s auto r = .ok id r' → r'.idOf? s.name = some id) ∧
    r.scanners.map (·.name) = (log.map (·.name)).eraseDups ∧
    (∀ s ∈ r.scanners, (log.find? (·.name == s.name)).map (·.scanner) = some s) ∧
    (∀ more, r.scanners <+: (start.enterAll (calls ++ more)).scanners) ∧
    (∀ e id, (r.binding e).scanners.contains id = true ↔
      ∃ x ∈ log, x.endpoint = e ∧ r.idOf? x.name = some id) ∧
    (∀ e, (r.binding e).auto = log.any fun x => decide (x.endpoint = e) && x.auto) ∧
    ∀ e id, (r.binding e).scanners.contains id = true → (r.scanner? id).isSome := by
  intro start r log
  have begun : start.Records [] := .nil rfl rfl
  have recorded : r.Records log := (begun.after_calls calls).1
  refine ⟨fun e s auto => recorded.fails_iff ⟨e, s, auto⟩, fun _ _ _ _ _ => register_error,
    fun e s auto id r' done => ?_, recorded.names, recorded.first, fun more => ?_, recorded.masks,
    recorded.autos, fun e id => recorded.scanner?_isSome⟩
  · exact (recorded.register (x := ⟨e, s, auto⟩) done).2.2
  · rw [enterAll_append]
    exact (recorded.after_calls more).2

end Registry

end StreamFraming
