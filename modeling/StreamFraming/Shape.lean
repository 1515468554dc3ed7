/-!
# Shapes

What a type is made of, as far as reading it from text goes: switches, words, lists, and records
that say of each field its name, its shape and what it is where it is not written. Reading itself is
left to a decoder, which is given the shape and answers with a value or with the wording of a fault.
-/

namespace StreamFraming

mutual

inductive Shape : Type → Type 1
  | bool : Shape Bool
  | word16 : Shape UInt16
  | word32 : Shape UInt32
  | list {τ : Type} (item : Shape τ) : Shape (List τ)
  | record {σ : Type} (fields : Fields σ) : Shape σ

inductive Fields : Type → Type 1
  | make {σ : Type} (s : σ) : Fields σ
  /-- One more field, behind those that are `before` it. -/
  | field {τ σ : Type} (before : Fields (τ → σ)) (name : String) (shape : Shape τ) (initial : τ) :
      Fields σ

end

def Fields.names : {σ : Type} → Fields σ → List String
  | _, .make _ => []
  | _, .field before name _ _ => before.names ++ [name]

mutual

def Shape.depth : {τ : Type} → Shape τ → Nat
  | _, .bool => 0
  | _, .word16 => 0
  | _, .word32 => 0
  | _, .list item => item.depth + 1
  | _, .record fields => fields.depth + 1

def Fields.depth : {σ : Type} → Fields σ → Nat
  | _, .make _ => 0
  | _, .field before _ shape _ => max before.depth shape.depth

end

structure Decoder where
  decode {τ : Type} (shape : Shape τ) (text : List Char) : Except String τ

end StreamFraming
