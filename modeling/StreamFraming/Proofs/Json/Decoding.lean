import Mathlib.Data.List.Nodup
import StreamFraming.Proofs.Json.Grammar
import StreamFraming.Shape

/-!
# What a decoder may be relied on for

`Decoder.Documented` says, shape by shape, what reading a text gives that is written well: how
switches, words and lists are written, that white space around a value does not count, and that an
object gives a record, with the defaults of the fields it leaves out and whatever else it holds
passed over. An object is refused that writes a field twice, or a field in a text that is refused
for it. Nothing is said of texts that are not written well.
-/

namespace StreamFraming

open Json

namespace Json

/-- An object whose names all say something. -/
abbrev IsRecord (ms : List (String × List Char)) (cs : List Char) : Prop :=
  IsObject (ms.map fun m => (some m.1, m.2)) cs

/-- A field occurs twice or more among names. -/
def Repeats (fields : List String) (names : List (Option String)) : Prop :=
  ∃ field ∈ fields, 2 ≤ names.count (some field)

theorem IsNumeral.isValue {n : Nat} {ds : List Char} (isNumeral : IsNumeral n ds) : IsValue ds := by
  have isNumber : IsNumber ds := by
    simpa using IsNumber.mk (.inl rfl) isNumeral.1 .none .none
  exact .number isNumber

theorem IsRecord.isValue {ms : List (String × List Char)} {cs : List Char}
    (isRecord : IsRecord ms cs) (values : ∀ m ∈ ms, IsValue m.2) : IsValue cs := by
  refine .object isRecord fun m inObject => ?_
  obtain ⟨n, inRecord, rfl⟩ := List.mem_map.mp inObject
  exact values n inRecord

end Json

/-- What a decoder reads of the members of an object: a field that is written has the value that is
read of its text, the others have their defaults. -/
inductive Fields.Reads (d : Decoder) (ms : List (String × List Char)) :
    {σ : Type} → Fields σ → σ → Prop
  | make {σ : Type} (s : σ) : Reads d ms (.make s) s
  | written {τ σ : Type} {before : Fields (τ → σ)} {name : String} {shape : Shape τ} {initial x : τ}
      {f : τ → σ} {text : List Char} (others : Reads d ms before f) (inside : (name, text) ∈ ms)
      (value : d.decode shape text = .ok x) : Reads d ms (.field before name shape initial) (f x)
  | unwritten {τ σ : Type} {before : Fields (τ → σ)} {name : String} {shape : Shape τ}
      {initial : τ} {f : τ → σ} (others : Reads d ms before f) (absent : name ∉ ms.map (·.1)) :
      Reads d ms (.field before name shape initial) (f initial)

/-- A field of this name and shape is among the fields. -/
inductive Fields.Has {τ : Type} (name : String) (shape : Shape τ) : {σ : Type} → Fields σ → Prop
  | last {σ : Type} {before : Fields (τ → σ)} {initial : τ} :
      Has name shape (.field before name shape initial)
  | before {ρ σ : Type} {fields : Fields (ρ → σ)} {other : String} {shape' : Shape ρ} {initial : ρ}
      (has : Has name shape fields) : Has name shape (.field fields other shape' initial)

/-- How deep lists and records may lie within each other; a decoder may refuse deeper ones. -/
def Shape.deepest : Nat := 127

structure Decoder.Documented (d : Decoder) : Prop where
  /-- White space around a value changes the wording of a refusal at most. -/
  item {τ : Type} (shape : Shape τ) {value cs : List Char} (isValue : IsValue value)
    (isItem : IsItem value cs) : (d.decode shape cs).toOption = (d.decode shape value).toOption
  bool (b : Bool) : d.decode .bool (boolText b) = .ok b
  word16 {n : UInt16} {ds : List Char} (isNumeral : IsNumeral n.toNat ds) :
    d.decode .word16 ds = .ok n
  word32 {n : UInt32} {ds : List Char} (isNumeral : IsNumeral n.toNat ds) :
    d.decode .word32 ds = .ok n
  list {τ : Type} {shape : Shape τ} (shallow : (Shape.list shape).depth ≤ Shape.deepest)
    {texts : List (List Char)} {cs : List Char} (isArray : IsArray texts cs)
    (values : ∀ text ∈ texts, IsValue text) {xs : List τ}
    (items : List.Forall₂ (fun x text => d.decode shape text = .ok x) xs texts) :
    d.decode (.list shape) cs = .ok xs
  record {σ : Type} {fields : Fields σ} (distinct : fields.names.Nodup)
    (shallow : (Shape.record fields).depth ≤ Shape.deepest) {ms : List (String × List Char)}
    {cs : List Char} (isRecord : IsRecord ms cs) (values : ∀ m ∈ ms, IsValue m.2)
    (once : ∀ name ∈ fields.names, (ms.map (·.1)).count name ≤ 1) {s : σ}
    (reads : fields.Reads d ms s) : d.decode (.record fields) cs = .ok s
  repeated {σ : Type} {fields : Fields σ} (distinct : fields.names.Nodup)
    {ms : List (Option String × List Char)} {cs : List Char} (isObject : IsObject ms cs)
    (values : ∀ m ∈ ms, IsValue m.2) (repeats : Repeats fields.names (ms.map (·.1))) :
    ∃ fault, d.decode (.record fields) cs = .error fault
  refused {σ τ : Type} {fields : Fields σ} (distinct : fields.names.Nodup) {name : String}
    {shape : Shape τ} (has : fields.Has name shape) {ms : List (Option String × List Char)}
    {cs : List Char} (isObject : IsObject ms cs) (values : ∀ m ∈ ms, IsValue m.2)
    {text : List Char} (inside : (some name, text) ∈ ms) {fault : String}
    (refused : d.decode shape text = .error fault) :
    ∃ fault, d.decode (.record fields) cs = .error fault

variable {d : Decoder}

theorem Decoder.Documented.item_ok (h : d.Documented) {τ : Type} {shape : Shape τ}
    {value cs : List Char} (isValue : IsValue value) (isItem : IsItem value cs) {x : τ}
    (read : d.decode shape value = .ok x) : d.decode shape cs = .ok x := by
  have same := h.item shape isValue isItem
  rw [read] at same
  cases around : d.decode shape cs with
  | error fault => rw [around] at same; cases same
  | ok y =>
    rw [around] at same
    exact congrArg Except.ok (Option.some.inj same)

theorem Decoder.Documented.item_error (h : d.Documented) {τ : Type} {shape : Shape τ}
    {value cs : List Char} (isValue : IsValue value) (isItem : IsItem value cs) {fault : String}
    (refused : d.decode shape value = .error fault) :
    ∃ fault, d.decode shape cs = .error fault := by
  have same := h.item shape isValue isItem
  rw [refused] at same
  cases around : d.decode shape cs with
  | error fault => exact ⟨fault, rfl⟩
  | ok y => rw [around] at same; cases same

/-- A field has what its members say where it is written, and else its default. -/
theorem Fields.Reads.field {ms : List (String × List Char)} {τ σ : Type} {before : Fields (τ → σ)}
    {f : τ → σ} (others : before.Reads d ms f) {name : String} {shape : Shape τ} {x : τ}
    (reads : ∀ m ∈ ms, m.1 = name → d.decode shape m.2 = .ok x) (initial : τ) :
    (Fields.field before name shape initial).Reads d ms
      (f (if name ∈ ms.map (·.1) then x else initial)) := by
  split
  · rename_i written
    obtain ⟨⟨_, text⟩, inside, rfl⟩ := List.mem_map.mp written
    exact .written others inside (reads _ inside rfl)
  · rename_i absent
    exact .unwritten others absent

end StreamFraming
