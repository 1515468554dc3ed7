import StreamFraming.Setup
import StreamFraming.Proofs.Http.Alone
import StreamFraming.Proofs.Registrations

/-!
# Configurations

Bytes choose settings, however a decoder reads them, and settings that are valid always make an
engine: the token table is sound, and one scanner never uses up the ids, however many endpoints it
is registered at (`OnlyHttp.registerAll`). What the engine does with an endpoint can be read off the
settings (`configure_describes`).
-/

namespace StreamFraming

variable {α : Type} [Holds α Http.Progress]

/-- Whether a direction is scanned at the ports of HTTP. -/
def HttpSettings.scans (s : HttpSettings) : Direction → Bool
  | .toServer => s.client
  | .toClient => s.server

/-- Whether HTTP is scanned at an endpoint, be it unasked or not. -/
def HttpSettings.covers (s : HttpSettings) (x : Endpoint) : Bool :=
  s.enabled && s.ports.contains x.port && s.scans x.direction

theorem HttpSettings.mem_endpoints {s : HttpSettings} {x : Endpoint} :
    x ∈ s.endpoints ↔ x.port ∈ s.ports ∧ s.scans x.direction = true := by
  obtain ⟨port, d⟩ := x
  cases d <;> simp [endpoints, scans, and_comm]

namespace Settings

/-- The settings that bytes choose: the defaults where there are none. -/
def chosen (d : Decoder) (bytes : List UInt8) : Except SettingsError Settings :=
  if bytes = [] then .ok {} else ofBytes d bytes

variable {d : Decoder} {bytes : List UInt8} {s : Settings}

theorem validate_ofBytes (read : ofBytes d bytes = .ok s) : s.validate = .ok () := by
  rw [ofBytes_eq] at read
  split at read
  · cases read
  · split at read
    · cases read
    · rename_i t _
      cases valid : t.validate with
      | error e => rw [valid] at read; cases read
      | ok _ => rw [valid] at read; cases read; exact valid

theorem validate_chosen (chose : chosen d bytes = .ok s) :
    s.validate = .ok () := by
  unfold chosen at chose
  split at chose
  · cases chose
    rfl
  · exact validate_ofBytes chose

end Settings

/-! ### Registries of settings -/

theorem ScannerSet.insert_insert (s : ScannerSet) (id : Nat) :
    (s.insert id).insert id = s.insert id := by
  ext x
  rw [contains_insert, contains_insert, Bool.or_assoc, Bool.or_self]

namespace Registry

variable {r : Registry α Tally} {cap : UInt32}

/-- One scanner always has an id. -/
theorem OnlyHttp.register_ok (h : r.OnlyHttp cap) (x : Endpoint) (auto : Bool) :
    ∃ r', Registry.register x (Http.scanner cap) auto r = .ok 0 r' ∧
      r'.scanners = [Http.scanner cap] ∧ r'.maxFlushPoint = r.maxFlushPoint ∧
      r'.bindings = bind x 0 auto r.bindings := by
  obtain ⟨id, r', done, bindings, bound, how⟩ | ⟨-, -, full⟩ :=
    register_cases r x (Http.scanner cap) auto
  · rcases h with unused | one
    · obtain ⟨known, -⟩ | ⟨-, -, rfl, scanners⟩ := how
      · simp [idOf?, unused] at known
      · rw [unused] at done scanners bindings
        exact ⟨r', done, scanners, bound, bindings⟩
    · obtain ⟨known, kept⟩ | ⟨new, -⟩ := how
      · obtain rfl : 0 = id := by simpa [idOf?, one] using known
        exact ⟨r', done, kept.trans one, bound, bindings⟩
      · simp [idOf?, one] at new
  · rcases h with unused | one
    · rw [unused] at full
      cases full
    · rw [one] at full
      cases full

/-- Registering the scanner at endpoints in turn binds it at each of them, however often it is
listed, and nowhere else. -/
theorem OnlyHttp.registerAll (h : r.OnlyHttp cap) (auto : Bool) (es : List Endpoint) :
    ∃ r', Registry.registerAll (Http.scanner cap) auto es r = .ok () r' ∧
      r'.scanners = (if es = [] then r.scanners else [Http.scanner cap]) ∧
      r'.maxFlushPoint = r.maxFlushPoint ∧
      ∀ x, r'.binding x =
        if x ∈ es then
          { scanners := (r.binding x).scanners.insert 0, auto := (r.binding x).auto || auto }
        else r.binding x := by
  induction es generalizing r with
  | nil => exact ⟨r, rfl, rfl, rfl, fun x => rfl⟩
  | cons e es ih =>
    obtain ⟨next, first, one, bound, bindings⟩ := h.register_ok e auto
    obtain ⟨last, rest, scanners, bound', all⟩ := ih (.inr one)
    refine ⟨last, ?_, ?_, bound'.trans bound, fun x => ?_⟩
    · simp only [Registry.registerAll, Bind.bind, EStateM.bind, first]
      exact rest
    · rw [scanners, one, ite_self, if_neg (List.cons_ne_nil e es)]
    · rw [all, binding_of_bind bindings]
      simp only [List.mem_cons]
      by_cases here : e = x
      · subst here
        simp only [if_true, true_or, ScannerSet.insert_insert, Bool.or_assoc, Bool.or_self,
          ite_self]
      · simp only [here, Ne.symm here, if_false, false_or]

/-- Valid settings have a registry. -/
theorem ofSettings_of_valid {s : Settings} (valid : s.validate = .ok ()) :
    ∃ r : Registry α Tally, ofSettings s = .ok r ∧
      r.maxFlushPoint = (if s.maxFlushPoint = 0 then defaultMaxFlushPoint else s.maxFlushPoint) ∧
      ∀ x, r.binding x =
          (if s.http.covers x then { scanners := .singleton 0, auto := s.http.autoActivate }
            else {}) ∧
        (s.http.covers x = true → r.scanners = [Http.scanner s.http.byteCap]) := by
  rw [ofSettings_eq, valid]
  cases enabled : s.http.enabled with
  | false =>
    refine ⟨_, rfl, rfl, fun x => ?_⟩
    have uncovered : s.http.covers x = false := by rw [HttpSettings.covers, enabled]; rfl
    rw [uncovered]
    exact ⟨rfl, nofun⟩
  | true =>
    let start : Registry α Tally := Registry.empty.withMaxFlushPoint s.maxFlushPoint
    have unused : start.OnlyHttp s.http.byteCap := .inl rfl
    obtain ⟨r, done, scanners, bound, bindings⟩ :=
      unused.registerAll s.http.autoActivate s.http.endpoints
    have covers (x : Endpoint) : s.http.covers x = true ↔ x ∈ s.http.endpoints := by
      simp [HttpSettings.covers, HttpSettings.mem_endpoints, enabled]
    refine ⟨r, by simp only [if_true, start, done], bound, fun x => ⟨?_, fun covered => ?_⟩⟩
    · rw [bindings]
      simp only [covers]
      rfl
    · rw [scanners, if_neg (List.ne_nil_of_mem ((covers x).mp covered))]

end Registry

theorem configure_eq (decoder : Decoder) (bytes : List UInt8) :
    configure (α := α) decoder bytes =
      match Settings.chosen decoder bytes with
      | .error error => .error (.config error)
      | .ok s => ((Registry.ofSettings s).mapError SetupError.registry).map Engine.ofRegistry := by
  have made (s : Settings) : (do
      let registry ← (Registry.ofSettings s).mapError SetupError.registry
      return Engine.ofRegistry registry : Except SetupError (Engine α Tally)) =
        ((Registry.ofSettings s).mapError SetupError.registry).map Engine.ofRegistry := by
    cases (Registry.ofSettings s : Except RegistryError (Registry α Tally)) <;> rfl
  unfold configure Settings.chosen
  cases bytes with
  | nil =>
    simp only [List.isEmpty_nil, if_true]
    generalize ({} : Settings) = s
    exact made s
  | cons b bs =>
    simp only [List.isEmpty_cons, Bool.false_eq_true, if_false, reduceCtorEq]
    cases Settings.ofBytes decoder (b :: bs) with
    | error e => rfl
    | ok s => exact made s

/-- Setting up fails where the settings are refused, and there alone: a registry can always be
made of settings that are read. The size bound is the one chosen, or the default for zero, and never
exceeds the longest cut. An endpoint has the HTTP scanner, with its cap, where HTTP is enabled, the
port is among the ports of HTTP and the direction is switched on; elsewhere it has none. It is
scanned where it has a scanner and scans unasked or is asked to. -/
theorem configure_describes (decoder : Decoder) (bytes : List UInt8) :
    (∀ error, configure (α := α) decoder bytes ≠ .error (.registry error)) ∧
    match Settings.chosen decoder bytes with
    | .error error => configure (α := α) decoder bytes = .error (.config error)
    | .ok s =>
      ∃ e : Engine α Tally, configure decoder bytes = .ok e ∧
        e.registry.maxFlushPoint =
          (if s.maxFlushPoint = 0 then 65280 else s.maxFlushPoint) ∧
        0 < e.registry.maxFlushPoint ∧ e.registry.maxFlushPoint ≤ 0x7FFFFFFF ∧
        ∀ x,
          (∀ asked, e.isEnabled x asked = true ↔
            s.http.covers x = true ∧ (s.http.autoActivate = true ∨ asked = true)) ∧
          ((e.registry.binding x).scanners = .singleton 0 ↔ s.http.covers x = true) ∧
          ((e.registry.binding x).scanners = .empty ↔ s.http.covers x = false) ∧
          (s.http.covers x = true →
            e.registry.scanner? 0 = some (Http.scanner s.http.byteCap)) := by
  rw [configure_eq]
  cases chose : Settings.chosen decoder bytes with
  | error e => exact ⟨nofun, rfl⟩
  | ok s =>
    have valid := Settings.validate_chosen chose
    obtain ⟨r, made, bound, bindings⟩ := Registry.ofSettings_of_valid (α := α) valid
    simp only [made]
    refine ⟨nofun, .ofRegistry r, rfl, bound, ?_, ?_, fun x => ?_⟩
    · show 0 < r.maxFlushPoint
      rw [bound]
      split
      · decide
      · rename_i nonzero
        exact UInt32.pos_iff_ne_zero.mpr nonzero
    · show r.maxFlushPoint ≤ longestCut
      rw [bound]
      split
      · decide
      · exact ((Settings.validate_eq_ok_iff s).mp valid).1
    · obtain ⟨binding, scanners⟩ := bindings x
      simp only [Engine.isEnabled, Registry.isEnabled, Engine.ofRegistry, binding]
      cases covered : s.http.covers x with
      | false => simp +decide
      | true => simp +decide [Registry.scanner?, scanners covered]

end StreamFraming
