/-!
# Settings

What the host may choose: the size bound of forced cuts, and where and how HTTP is scanned. Settings
that cannot work are refused with a cause; `SettingsError.message` is its wording.
-/

namespace StreamFraming

structure HttpSettings where
  enabled : Bool := true
  ports : List UInt16 := [80, 8080]
  client : Bool := true
  server : Bool := true
  autoActivate : Bool := true
  /-- Bytes after which scanning stops; none if zero. -/
  byteCap : UInt32 := 0
  deriving DecidableEq, Repr

def defaultMaxFlushPoint : UInt32 := 65280

def longestCut : UInt32 := 0x7FFFFFFF

structure Settings where
  /-- Queued bytes that force a cut; zero stands for the default. -/
  maxFlushPoint : UInt32 := defaultMaxFlushPoint
  http : HttpSettings := {}
  deriving DecidableEq, Repr

inductive SettingsError where
  | invalidUtf8 (fault : String)
  | invalidJson (fault : String)
  | invalid (reason : String)
  deriving DecidableEq, Repr

def SettingsError.message : SettingsError → String
  | invalidUtf8 fault => "Invalid UTF-8: " ++ fault
  | invalidJson fault => "Invalid JSON: " ++ fault
  | invalid reason => "Invalid setting: " ++ reason

namespace Settings

def validate (s : Settings) : Except SettingsError Unit :=
  if longestCut < s.maxFlushPoint then
    .error (.invalid ("max_flush_point " ++ toString s.maxFlushPoint.toNat ++ " exceeds " ++
      toString longestCut.toNat))
  else if s.http.enabled && s.http.ports.isEmpty then
    .error (.invalid "http scanner enabled without ports")
  else
    .ok ()

theorem validate_eq_ok_iff (s : Settings) : s.validate = .ok () ↔
    s.maxFlushPoint ≤ longestCut ∧ (s.http.enabled = true → s.http.ports ≠ []) := by
  simp only [validate]
  split
  · rename_i h
    simp only [reduceCtorEq, false_iff, not_and]
    intro le
    exact absurd h (by rw [UInt32.lt_iff_toNat_lt, UInt32.le_iff_toNat_le] at *; omega)
  · rename_i h
    have le : s.maxFlushPoint ≤ longestCut := by
      rw [UInt32.lt_iff_toNat_lt] at h
      rw [UInt32.le_iff_toNat_le]
      omega
    cases s.http.enabled <;> cases s.http.ports <;> simp [le]

end Settings

end StreamFraming
