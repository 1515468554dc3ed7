import StreamFraming.Json.Lexeme

/-!
# JSON values

Lexemes are put together to values one at a time. The arrays and objects that are open lie on a
stack, innermost first, so nesting of any depth is read alike. Objects keep their members in the
order of the text, repeated keys and all.
-/

namespace StreamFraming

inductive Json where
  | null
  | bool (b : Bool)
  | number (natural? : Option Nat)
  | text (text? : Option String)
  | array (items : List Json)
  | object (members : List (Option String × Json))

namespace Json

/-- An array or an object of which a value is still being read; what it holds so far is listed
latest first. -/
inductive Frame where
  | array (items : List Json)
  | object (members : List (Option String × Json)) (key : Option String)

inductive Reading where
  | value (stack : List Frame)
  | arrayOpen (stack : List Frame)
  | objectOpen (stack : List Frame)
  | key (stack : List Frame) (members : List (Option String × Json))
  | colon (stack : List Frame) (members : List (Option String × Json)) (key : Option String)
  | complete (stack : List Frame) (v : Json)

namespace Reading

def start? (stack : List Frame) : Lexeme → Option Reading
  | .null => some (.complete stack .null)
  | .bool b => some (.complete stack (.bool b))
  | .number n => some (.complete stack (.number n))
  | .text s => some (.complete stack (.text s))
  | .openArray => some (.arrayOpen stack)
  | .openObject => some (.objectOpen stack)
  | .closeArray | .closeObject | .comma | .colon => none

def step? : Reading → Lexeme → Option Reading
  | .value stack, x => start? stack x
  | .arrayOpen stack, .closeArray => some (.complete stack (.array []))
  | .arrayOpen stack, x => start? (.array [] :: stack) x
  | .objectOpen stack, .closeObject => some (.complete stack (.object []))
  | .objectOpen stack, .text k => some (.colon stack [] k)
  | .key stack members, .text k => some (.colon stack members k)
  | .colon stack members k, .colon => some (.value (.object members k :: stack))
  | .complete (.array items :: stack) v, .comma => some (.value (.array (v :: items) :: stack))
  | .complete (.array items :: stack) v, .closeArray =>
    some (.complete stack (.array (v :: items).reverse))
  | .complete (.object members k :: stack) v, .comma => some (.key stack ((k, v) :: members))
  | .complete (.object members k :: stack) v, .closeObject =>
    some (.complete stack (.object ((k, v) :: members).reverse))
  | _, _ => none

def run? (r : Reading) : List Lexeme → Option Reading
  | [] => some r
  | x :: xs =>
    match r.step? x with
    | some r => run? r xs
    | none => none

end Reading

def ofLexemes? (xs : List Lexeme) : Option Json :=
  match (Reading.value []).run? xs with
  | some (.complete [] v) => some v
  | _ => none

def parse? (cs : List Char) : Option Json := (Lexeme.read? cs).bind ofLexemes?

end Json

end StreamFraming
