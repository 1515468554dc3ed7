import StreamFraming.Engine
import StreamFraming.Http.Scanner
import StreamFraming.Settings.Reading

/-!
# Setting an engine up

Settings become a registry with the HTTP scanner on its ports, and the registry becomes an engine.
No bytes at all stand for the default settings.
-/

namespace StreamFraming

inductive SetupError where
  | config (error : SettingsError)
  | registry (error : RegistryError)
  deriving DecidableEq, Repr

def SetupError.message : SetupError → String
  | config error => "configuration: " ++ error.message
  | registry error => "registry: " ++ error.message

def HttpSettings.endpoints (s : HttpSettings) : List Endpoint :=
  s.ports.flatMap fun port =>
    (if s.client then [⟨port, .toServer⟩] else []) ++
      (if s.server then [⟨port, .toClient⟩] else [])

namespace Registry

variable {α μ : Type}

def registerAll (s : Scanner α μ) (auto : Bool) :
    List Endpoint → EStateM RegistryError (Registry α μ) Unit
  | [] => return
  | e :: es => do
    let _ ← register e s auto
    registerAll s auto es

def ofSettings [Holds α Http.Progress] (s : Settings) :
    Except RegistryError (Registry α Tally) := do
  (s.validate).mapError RegistryError.settings
  let r : Registry α Tally := Registry.empty.withMaxFlushPoint s.maxFlushPoint
  if s.http.enabled then
    let scanner ← (Http.scanner? s.http.byteCap).mapError fun e => .invalidScanner e.message
    match registerAll scanner s.http.autoActivate s.http.endpoints r with
    | .ok _ r => return r
    | .error error _ => throw error
  else
    return r

end Registry

def configure {α : Type} [Holds α Http.Progress] (d : Decoder) (bytes : List UInt8) :
    Except SetupError (Engine α Tally) := do
  let settings ←
    if bytes.isEmpty then pure {} else (Settings.ofBytes d bytes).mapError SetupError.config
  let registry ← (Registry.ofSettings settings).mapError SetupError.registry
  return .ofRegistry registry

end StreamFraming
