import StreamFraming.Json
import StreamFraming.Shape

/-!
# Decoding JSON

The decoder that runs: a text is read as a JSON value, and the value is taken for one of the shape
that is asked for. A record is written as an object, or as an array of its fields in their order.
How a refusal is worded is left open.
-/

namespace StreamFraming

namespace Json

def bool? : Json → Option Bool
  | .bool b => some b
  | _ => none

def below? (bound : Nat) : Json → Option Nat
  | .number (some n) => if n < bound then some n else none
  | _ => none

def items? : Json → Option (List Json)
  | .array items => some items
  | _ => none

/-- The value of a key among members; none if the key is written twice. -/
def member? (key : String) (members : List (String × Json)) : Option (Option Json) :=
  match members.filter (·.1 == key) with
  | [] => some none
  | [m] => some (some m.2)
  | _ => none

/-- How the fields of a record of so many are found by name and place: in an object, of which all
keys must have a text, or in an array that is not too long. -/
def finder? (size : Nat) : Json → Option (String → Nat → Option (Option Json))
  | .array items => if items.length ≤ size then some fun _ i => some items[i]? else none
  | .object members => do
    let members ← members.mapM fun m => m.1.map (·, m.2)
    some fun name _ => member? name members
  | _ => none

def orDefault? {τ : Type} (read? : Json → Option τ) (fallback : τ) : Option Json → Option τ
  | some v => read? v
  | none => some fallback

end Json

mutual

def Shape.ofJson? : {τ : Type} → Shape τ → Json → Option τ
  | _, .bool, v => v.bool?
  | _, .word16, v => (v.below? UInt16.size).map Nat.toUInt16
  | _, .word32, v => (v.below? UInt32.size).map Nat.toUInt32
  | _, .list item, v => v.items?.bind fun items => items.mapM item.ofJson?
  | _, .record fields, v => (v.finder? fields.names.length).bind fields.find?

def Fields.find? : {σ : Type} → Fields σ → (String → Nat → Option (Option Json)) → Option σ
  | _, .make s, _ => some s
  | _, .field before name shape initial, find => do
    let f ← before.find? find
    let v ← find name before.names.length
    let x ← Json.orDefault? shape.ofJson? initial v
    some (f x)

end

def Json.decoder (fault : List Char → String) : Decoder where
  decode shape text :=
    match (parse? text).bind shape.ofJson? with
    | some x => .ok x
    | none => .error (fault text)

end StreamFraming
