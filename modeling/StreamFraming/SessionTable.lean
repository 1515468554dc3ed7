import StreamFraming.Engine

/-!
# The session table

Sessions by key, all served by one engine. Opening a key anew replaces its session; a key that is
not open answers every segment with no cut.
-/

namespace StreamFraming

structure SessionTable (α μ : Type) where
  engine : Engine α μ
  sessions : Slots (Session α) := .empty

namespace SessionTable

variable {α μ : Type}

def ofEngine (e : Engine α μ) : SessionTable α μ := { engine := e }

def get? (t : SessionTable α μ) (key : UInt64) : Option (Session α) := t.sessions.get? key.toNat

def size (t : SessionTable α μ) : Nat := t.sessions.ids.length

def isEmpty (t : SessionTable α μ) : Bool := t.sessions.isEmpty

def put (t : SessionTable α μ) (key : UInt64) (s : Session α) : SessionTable α μ :=
  { t with sessions := t.sessions.set key.toNat s }

def erase (t : SessionTable α μ) (key : UInt64) : SessionTable α μ :=
  { t with sessions := t.sessions.erase key.toNat }

/-- Open a session, in place of any with the same key. -/
def openSession (t : SessionTable α μ) (key : UInt64) (port : UInt16) : SessionTable α μ :=
  t.put key (t.engine.openSession key port)

def check (t : SessionTable α μ) (key : UInt64) (d : Direction) (segment : Segment) :
    Option (Reply α μ) × SessionTable α μ :=
  match t.get? key with
  | some s =>
    let reply := t.engine.check s d segment
    (some reply, { t with engine := reply.engine }.put key reply.session)
  | none => (none, t)

/-- Set a session up anew and drop its anomalies; false if the key is not open. -/
def reset (t : SessionTable α μ) (key : UInt64) : Bool × SessionTable α μ :=
  match t.get? key with
  | some s => (true, t.put key { t.engine.resetSession s with raised := [] })
  | none => (false, t)

def close (t : SessionTable α μ) (key : UInt64) : Option (Session α) × SessionTable α μ :=
  (t.get? key, t.erase key)

theorem get?_put (t : SessionTable α μ) (key x : UInt64) (s : Session α) :
    (t.put key s).get? x = if key = x then some s else t.get? x := by
  simp [get?, put, Slots.get?_set, UInt64.toNat_inj]

theorem get?_erase (t : SessionTable α μ) (key x : UInt64) :
    (t.erase key).get? x = if key = x then none else t.get? x := by
  simp [get?, erase, Slots.get?_erase, UInt64.toNat_inj]

end SessionTable

end StreamFraming
