import StreamFraming.Text.Hex

/-!
# JSON text

Strings and objects written as compact JSON. Quotes, backslashes and characters below the space are
escaped, all others stand for themselves.
-/

namespace StreamFraming.Text.JsonText

def escape (c : Char) : String :=
  match c with
  | '"' => "\\\""
  | '\\' => "\\\\"
  | '\x08' => "\\b"
  | '\x0c' => "\\f"
  | '\n' => "\\n"
  | '\r' => "\\r"
  | '\t' => "\\t"
  | c => if c.toNat < 0x20 then "\\u" ++ Hex.padded 4 c.toNat else c.toString

def string (s : String) : String :=
  "\"" ++ String.join (s.toList.map escape) ++ "\""

/-- A JSON object of members in order; the values are JSON text already. -/
def object (members : List (String × String)) : String :=
  "\x7b" ++ ",".intercalate (members.map fun m => string m.1 ++ ":" ++ m.2) ++ "\x7d"

end StreamFraming.Text.JsonText
