import StreamFraming.ScannerSet
import StreamFraming.Scanner
import StreamFraming.Settings
import StreamFraming.Text.Listing
import StreamFraming.Text.Quoted

/-!
# The registry

Which scanners exist, and which of them apply to a server port and a direction. A scanner is
registered for one endpoint at a time; its id is its place in the order of first registrations, and
its name decides whether it is known already. There is room for `ScannerSet.capacity` scanners.
-/

namespace StreamFraming

structure Endpoint where
  port : UInt16
  direction : Direction
  deriving DecidableEq, Repr

structure Binding where
  scanners : ScannerSet := .empty
  auto : Bool := false
  deriving DecidableEq, Repr

inductive RegistryError where
  | tooManyScanners (name : String)
  | invalidScanner (fault : String)
  | settings (error : SettingsError)
  deriving DecidableEq, Repr

def RegistryError.message : RegistryError → String
  | tooManyScanners name =>
    "Cannot register scanner '" ++ name ++ "': limit of " ++ toString ScannerSet.capacity ++
      " scanners reached"
  | invalidScanner fault => "Invalid scanner: " ++ fault
  | settings error => error.message

structure Registry (α μ : Type) where
  scanners : List (Scanner α μ) := []
  bindings : List (Endpoint × Binding) := []
  maxFlushPoint : UInt32 := defaultMaxFlushPoint

namespace Registry

variable {α μ : Type}

def empty : Registry α μ := {}

/-- The registry with another size bound; zero stands for the default. -/
def withMaxFlushPoint (r : Registry α μ) (bound : UInt32) : Registry α μ :=
  { r with maxFlushPoint := if bound = 0 then defaultMaxFlushPoint else bound }

def scanner? (r : Registry α μ) (id : Nat) : Option (Scanner α μ) := r.scanners[id]?

def idOf? (r : Registry α μ) (name : String) : Option Nat :=
  r.scanners.findIdx? (·.name == name)

def lookup (e : Endpoint) : List (Endpoint × Binding) → Option Binding
  | [] => none
  | b :: bs => if b.1 = e then some b.2 else lookup e bs

def binding (r : Registry α μ) (e : Endpoint) : Binding := (lookup e r.bindings).getD {}

def bind (e : Endpoint) (id : Nat) (auto : Bool) :
    List (Endpoint × Binding) → List (Endpoint × Binding)
  | [] => [(e, { scanners := .singleton id, auto })]
  | b :: bs =>
    if b.1 = e then (e, { scanners := b.2.scanners.insert id, auto := b.2.auto || auto }) :: bs
    else b :: bind e id auto bs

/-- The id of a scanner's name. A known name keeps its id and its scanner; a new one takes the next
id, if there is one. -/
def allot (s : Scanner α μ) : EStateM RegistryError (Registry α μ) Nat := do
  let r ← get
  match r.idOf? s.name with
  | some id => return id
  | none =>
    if r.scanners.length = ScannerSet.capacity then
      throw (.tooManyScanners s.name)
    else
      set { r with scanners := r.scanners ++ [s] }
      return r.scanners.length

def register (e : Endpoint) (s : Scanner α μ) (auto : Bool) :
    EStateM RegistryError (Registry α μ) Nat := do
  let id ← allot s
  modify fun r => { r with bindings := bind e id auto r.bindings }
  return id

def isEnabled (r : Registry α μ) (e : Endpoint) (asked : Bool) : Bool :=
  let b := r.binding e
  !b.scanners.isEmpty && (b.auto || asked)

def describe (r : Registry α μ) : String :=
  Text.Listing.record "ScannerRegistry"
    [("scanners", Text.Listing.list (r.scanners.map fun s => Text.Quoted.encode s.name)),
      ("bindings", toString r.bindings.length),
      ("max_flush_point", toString r.maxFlushPoint.toNat)]

theorem lookup_bind (e x : Endpoint) (id : Nat) (auto : Bool) (bs : List (Endpoint × Binding)) :
    lookup x (bind e id auto bs) =
      if e = x then
        let b := (lookup e bs).getD {}
        some { scanners := b.scanners.insert id, auto := b.auto || auto }
      else lookup x bs := by
  induction bs with
  | nil => simp [bind, lookup, ScannerSet.singleton]
  | cons b bs ih =>
    unfold bind
    by_cases h : b.1 = e
    · subst h
      by_cases hx : b.1 = x <;> simp [lookup, hx]
    · by_cases hx : b.1 = x
      · subst hx
        simp [lookup, h, Ne.symm h]
      · simp only [h, if_false, lookup, hx, ih]

theorem allot_eq (s : Scanner α μ) (r : Registry α μ) :
    allot s r =
      match r.idOf? s.name with
      | some id => .ok id r
      | none =>
        if r.scanners.length = ScannerSet.capacity then .error (.tooManyScanners s.name) r
        else .ok r.scanners.length { r with scanners := r.scanners ++ [s] } := by
  have current : (get : EStateM RegistryError (Registry α μ) (Registry α μ)) r = .ok r r := rfl
  simp only [allot, Bind.bind, EStateM.bind, current]
  cases r.idOf? s.name with
  | some id => rfl
  | none => by_cases full : r.scanners.length = ScannerSet.capacity <;> simp only [full] <;> rfl

/-- What a registration can do: bind the id of a known name, bind the next id to a new name, or fail
where the name is new and no id is left, and then leave the registry alone. -/
theorem register_cases (r : Registry α μ) (e : Endpoint) (s : Scanner α μ) (auto : Bool) :
    (∃ id r', register e s auto r = .ok id r' ∧ r'.bindings = bind e id auto r.bindings ∧
      r'.maxFlushPoint = r.maxFlushPoint ∧
      (r.idOf? s.name = some id ∧ r'.scanners = r.scanners ∨
        r.idOf? s.name = none ∧ r.scanners.length ≠ ScannerSet.capacity ∧
          id = r.scanners.length ∧ r'.scanners = r.scanners ++ [s])) ∨
    register e s auto r = .error (.tooManyScanners s.name) r ∧ r.idOf? s.name = none ∧
      r.scanners.length = ScannerSet.capacity := by
  simp only [register, Bind.bind, EStateM.bind, allot_eq]
  cases r.idOf? s.name with
  | some id => exact .inl ⟨id, _, rfl, rfl, rfl, .inl ⟨rfl, rfl⟩⟩
  | none =>
    by_cases full : r.scanners.length = ScannerSet.capacity
    · rw [if_pos full]
      exact .inr ⟨rfl, rfl, full⟩
    · rw [if_neg full]
      exact .inl ⟨_, _, rfl, rfl, rfl, .inr ⟨rfl, full, rfl, rfl⟩⟩

end Registry

end StreamFraming
