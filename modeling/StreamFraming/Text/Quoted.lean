import StreamFraming.Text.Extending
import StreamFraming.Text.Hex
import StreamFraming.Text.Printable

/-!
# Quoted text

Text between double quotes. Quotes and backslashes take a backslash, and a few controls their
letter. A character that would not be seen, or that would be seen as a part of the one in front of
it, takes its number in braces, so that different texts look different.
-/

namespace StreamFraming.Text.Quoted

/-- The two halfwidth sound marks. They extend a letter, but take a place of their own behind it. -/
def isSoundMark (c : Char) : Bool := c == '\uFF9E' || c == '\uFF9F'

def isPlain (c : Char) : Bool :=
  Printable.isPrintable c && (!Extending.isExtending c || isSoundMark c)

def escape (c : Char) : String :=
  match c with
  | '"' => "\\\""
  | '\\' => "\\\\"
  | '\n' => "\\n"
  | '\r' => "\\r"
  | '\t' => "\\t"
  | '\x00' => "\\0"
  | c => if isPlain c then c.toString else "\\u\x7b" ++ Hex.digits c.toNat ++ "\x7d"

def encode (s : String) : String :=
  "\"" ++ String.join (s.toList.map escape) ++ "\""

end StreamFraming.Text.Quoted
