import StreamFraming.Settings
import StreamFraming.Shape
import StreamFraming.Utf8

/-!
# Settings as they are written

The fields of the settings by their names, each with its default, and how settings are read from
bytes: these are text, a decoder reads it, and what it has read is validated before it is used.
-/

namespace StreamFraming

def HttpSettings.fields : Fields HttpSettings :=
  Fields.make HttpSettings.mk
    |>.field "enabled" .bool true
    |>.field "ports" (.list .word16) [80, 8080]
    |>.field "client" .bool true
    |>.field "server" .bool true
    |>.field "auto_activate" .bool true
    |>.field "byte_cap" .word32 0

namespace Settings

def fields : Fields Settings :=
  Fields.make Settings.mk
    |>.field "max_flush_point" .word32 defaultMaxFlushPoint
    |>.field "http" (.record HttpSettings.fields) {}

/-- Read settings from bytes and validate them. -/
def ofBytes (d : Decoder) (bytes : List UInt8) : Except SettingsError Settings := do
  let text ← (Utf8.decode bytes).mapError fun fault => .invalidUtf8 fault.message
  let s ← (d.decode (.record fields) text).mapError .invalidJson
  s.validate
  return s

theorem ofBytes_eq (d : Decoder) (bytes : List UInt8) :
    ofBytes d bytes =
      match Utf8.decode bytes with
      | .error fault => .error (.invalidUtf8 fault.message)
      | .ok text =>
        match d.decode (.record fields) text with
        | .error fault => .error (.invalidJson fault)
        | .ok s => s.validate.map fun _ => s := by
  unfold ofBytes
  cases Utf8.decode bytes with
  | error fault => rfl
  | ok text =>
    change (Except.ok text : Except SettingsError _).bind _ = _
    simp only [Except.bind]
    cases d.decode (.record fields) text <;> rfl

end Settings

end StreamFraming
