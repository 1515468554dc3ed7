import Mathlib.Data.List.Count
import Mathlib.Data.Option.Basic
import StreamFraming.Json.Decoder
import StreamFraming.Proofs.Json.Decoding
import StreamFraming.Proofs.Json.Reading

/-!
# The decoder of JSON

The decoder that runs does what one may rely on (`documented_decoder`): a text that is written well
is read as one value, and fields are found among the members of an object by their names.
-/

namespace StreamFraming.Json

/-! ### Members -/

/-- The members of a record, once their values are read. -/
def valued (ms : List (String × List Char)) : List (String × Json) :=
  ms.map fun m => (m.1, valueOf m.2)

theorem readsAs_record {ms : List (String × List Char)} {cs : List Char}
    (isRecord : IsRecord ms cs) (values : ∀ m ∈ ms, IsValue m.2) :
    ReadsAs cs (.object ((valued ms).map fun m => (some m.1, m.2))) := by
  have object := readsAs_object isRecord ?_
  · simpa [valued, Function.comp_def] using object
  · intro m inObject
    obtain ⟨n, inRecord, rfl⟩ := List.mem_map.mp inObject
    exact (values n inRecord).readsAs

theorem filter_valued (ms : List (String × List Char)) (name : String) :
    (valued ms).filter (·.1 == name) = valued (ms.filter (·.1 == name)) := by
  rw [valued, List.filter_map]
  rfl

theorem count_names {τ : Type} (ms : List (String × τ)) (name : String) :
    (ms.map (·.1)).count name = (ms.filter (·.1 == name)).length := by
  rw [List.count_eq_countP, List.countP_map, List.countP_eq_length_filter]
  rfl

/-- The one member of a name is found. -/
theorem member?_of_mem {ms : List (String × List Char)} {name : String} {text : List Char}
    (once : (ms.map (·.1)).count name ≤ 1) (inside : (name, text) ∈ ms) :
    member? name (valued ms) = some (some (valueOf text)) := by
  have kept : (name, text) ∈ ms.filter (·.1 == name) :=
    List.mem_filter.mpr ⟨inside, beq_self_eq_true name⟩
  rw [count_names] at once
  rw [member?, filter_valued]
  generalize ms.filter (·.1 == name) = found at once kept
  match found with
  | [] => cases kept
  | [m] => rw [← List.mem_singleton.mp kept]; rfl
  | _ :: _ :: _ => simp at once

theorem member?_of_not_mem {ms : List (String × List Char)} {name : String}
    (absent : name ∉ ms.map (·.1)) : member? name (valued ms) = some none := by
  have unfound : ms.filter (·.1 == name) = [] := by
    refine List.filter_eq_nil_iff.mpr fun m inside same => ?_
    exact absent (List.mem_map.mpr ⟨m, inside, beq_iff_eq.mp same⟩)
  rw [member?, filter_valued, unfound]
  rfl

theorem member?_eq_none {name : String} {members : List (String × Json)}
    (repeats : 2 ≤ (members.map (·.1)).count name) : member? name members = none := by
  rw [count_names] at repeats
  rw [member?]
  generalize members.filter (·.1 == name) = found at repeats
  match found with
  | [] | [_] => simp at repeats
  | _ :: _ :: _ => rfl

/-- What is found of a name, if anything can be, is what any member of the name holds. -/
theorem eq_of_member? {name : String} {v : Json} {members : List (String × Json)}
    (inside : (name, v) ∈ members) {w : Option Json} (found : member? name members = some w) :
    w = some v := by
  have kept : (name, v) ∈ members.filter (·.1 == name) :=
    List.mem_filter.mpr ⟨inside, beq_self_eq_true name⟩
  rw [member?] at found
  generalize members.filter (·.1 == name) = those at kept found
  match those with
  | [] => cases kept
  | [m] =>
    cases found
    rw [← List.mem_singleton.mp kept]
  | _ :: _ :: _ => cases found

theorem mapM_names (members : List (String × Json)) :
    (members.map fun m => (some m.1, m.2)).mapM
      (fun m : Option String × Json => m.1.map (·, m.2)) = some members := by
  induction members with
  | nil => rfl
  | cons m members ih =>
    rw [List.map_cons, List.mapM_cons, ih]
    rfl

theorem eq_of_mapM_names {ms : List (Option String × Json)} {members : List (String × Json)}
    (named : ms.mapM (fun m => m.1.map (·, m.2)) = some members) :
    ms = members.map fun m => (some m.1, m.2) := by
  induction ms generalizing members with
  | nil =>
    cases named
    rfl
  | cons m ms ih =>
    simp only [List.mapM_cons, Option.bind_eq_bind, Option.bind_eq_some_iff, Option.map_eq_some_iff]
      at named
    obtain ⟨-, ⟨name, known, rfl⟩, members, more, same⟩ := named
    cases same
    rw [List.map_cons, ← ih more, ← known]

/-- In an object fields are found by their names, if all its names say something. -/
theorem finder?_object (size : Nat) (ms : List (Option String × Json)) :
    finder? size (.object ms) = none ∨
      ∃ members : List (String × Json), (ms = members.map fun m => (some m.1, m.2)) ∧
        finder? size (.object ms) = some fun name _ => member? name members := by
  rw [finder?]
  cases named : ms.mapM fun m => m.1.map (·, m.2) with
  | none => exact .inl rfl
  | some members => exact .inr ⟨members, eq_of_mapM_names named, rfl⟩

theorem finder?_record (size : Nat) (members : List (String × Json)) :
    finder? size (.object (members.map fun m => (some m.1, m.2))) =
      some fun name _ => member? name members := by
  rw [finder?, mapM_names]
  rfl

end StreamFraming.Json

namespace StreamFraming

open Json

/-! ### Fields -/

namespace Fields

variable {find : String → Nat → Option (Option Json)} {name : String}

/-- A field that cannot be found spoils the record. -/
theorem find?_eq_none (lost : ∀ i, find name i = none) :
    {σ : Type} → (fields : Fields σ) → name ∈ fields.names → fields.find? find = none
  | _, .make _, listed => absurd listed List.not_mem_nil
  | _, .field before other shape initial, listed => by
    rw [names, List.mem_append, List.mem_singleton] at listed
    simp only [find?, Option.bind_eq_bind]
    rcases listed with listed | rfl
    · rw [find?_eq_none lost before listed, Option.bind_none]
    · cases before.find? find with
      | none => rfl
      | some f => rw [Option.bind_some, lost, Option.bind_none]

/-- A field that is found with a value that cannot be taken spoils the record. -/
theorem Has.find?_eq_none {τ σ : Type} {shape : Shape τ} {fields : Fields σ}
    (has : fields.Has name shape) {v : Json} (refused : shape.ofJson? v = none)
    (found : ∀ i w, find name i = some w → w = some v) : fields.find? find = none := by
  induction has with
  | @last σ before initial =>
    simp only [find?, Option.bind_eq_bind]
    cases before.find? find with
    | none => rfl
    | some f =>
      cases own : find name before.names.length with
      | none => rfl
      | some w =>
        rw [found _ w own]
        simp only [Option.bind_some, orDefault?, refused, Option.bind_none]
  | before _ ih => simp only [find?, ih, Option.bind_eq_bind, Option.bind_none]

end Fields

/-! ### The decoder -/

section

variable {fault : List Char → String} {τ : Type} {shape : Shape τ} {cs : List Char}

theorem toOption_decoder (fault : List Char → String) (shape : Shape τ) (cs : List Char) :
    ((decoder fault).decode shape cs).toOption = (parse? cs).bind shape.ofJson? := by
  simp only [decoder]
  cases (parse? cs).bind shape.ofJson? <;> rfl

theorem decoder_eq_ok_iff {x : τ} :
    (decoder fault).decode shape cs = .ok x ↔ (parse? cs).bind shape.ofJson? = some x := by
  rw [← toOption_decoder fault]
  cases (decoder fault).decode shape cs <;> simp [Except.toOption]

theorem decoder_eq_error_iff :
    (∃ f, (decoder fault).decode shape cs = .error f) ↔
      (parse? cs).bind shape.ofJson? = none := by
  rw [← toOption_decoder fault]
  cases (decoder fault).decode shape cs <;> simp [Except.toOption]

variable {v : Json} (reads : ReadsAs cs v)

include reads

theorem decode_of_readsAs {x : τ} (taken : shape.ofJson? v = some x) :
    (decoder fault).decode shape cs = .ok x := by
  rw [decoder_eq_ok_iff, parse?_of_readsAs reads]
  exact taken

theorem refuse_of_readsAs (refused : shape.ofJson? v = none) :
    ∃ f, (decoder fault).decode shape cs = .error f := by
  rw [decoder_eq_error_iff, parse?_of_readsAs reads]
  exact refused

end

/-- A text of a value is decoded as its value is taken. -/
theorem ofJson?_valueOf (fault : List Char → String) {τ : Type} {shape : Shape τ}
    {text : List Char} (isValue : IsValue text) :
    shape.ofJson? (valueOf text) = ((decoder fault).decode shape text).toOption := by
  rw [toOption_decoder, parse?_of_readsAs isValue.readsAs]
  rfl

/-- The fields of a record are found among the members that write it. -/
theorem find?_of_reads {fault : List Char → String} {σ : Type} {fields : Fields σ} {s : σ}
    {ms : List (String × List Char)} (values : ∀ m ∈ ms, IsValue m.2)
    (reads : fields.Reads (decoder fault) ms s)
    (once : ∀ name ∈ fields.names, (ms.map (·.1)).count name ≤ 1) :
    fields.find? (fun name _ => member? name (valued ms)) = some s := by
  induction reads with
  | make s => rfl
  | @written τ σ before name shape initial x f text others inside value ih =>
    obtain ⟨earlier, own⟩ := List.forall_mem_append.mp once
    have found := member?_of_mem (own name List.mem_cons_self) inside
    have taken : shape.ofJson? (valueOf text) = some x := by
      rw [ofJson?_valueOf fault (values _ inside), value]
      rfl
    simp only [Fields.find?, ih earlier, found, Option.bind_eq_bind, Option.bind_some, orDefault?,
      taken]
  | @unwritten τ σ before name shape initial f others absent ih =>
    obtain ⟨earlier, -⟩ := List.forall_mem_append.mp once
    simp only [Fields.find?, ih earlier, member?_of_not_mem absent, Option.bind_eq_bind,
      Option.bind_some, orDefault?]

theorem mapM_valueOf {fault : List Char → String} {τ : Type} {shape : Shape τ} {xs : List τ}
    {texts : List (List Char)} (values : ∀ text ∈ texts, IsValue text)
    (items : List.Forall₂ (fun x text => (decoder fault).decode shape text = .ok x) xs texts) :
    (texts.map valueOf).mapM shape.ofJson? = some xs := by
  induction items with
  | nil => rfl
  | cons item _ ih =>
    obtain ⟨value, values⟩ := List.forall_mem_cons.mp values
    rw [List.map_cons, List.mapM_cons, ih values, ofJson?_valueOf fault value, item]
    rfl

/-- An object is refused if its fields cannot be taken of the members it has. -/
theorem refuse_object {fault : List Char → String} {σ : Type} {fields : Fields σ}
    {ms : List (Option String × List Char)} {cs : List Char} (isObject : IsObject ms cs)
    (values : ∀ m ∈ ms, IsValue m.2)
    (spoilt : ∀ members : List (String × Json),
      (ms.map fun m => (m.1, valueOf m.2)) = (members.map fun m => (some m.1, m.2)) →
        fields.find? (fun name _ => member? name members) = none) :
    ∃ f, (decoder fault).decode (.record fields) cs = .error f := by
  refine refuse_of_readsAs
    (readsAs_object isObject fun m inside => (values m inside).readsAs) ?_
  rw [Shape.ofJson?]
  rcases finder?_object fields.names.length (ms.map fun m => (m.1, valueOf m.2)) with
    unnamed | ⟨members, same, finder⟩
  · rw [unnamed, Option.bind_none]
  · rw [finder, Option.bind_some, spoilt members same]

theorem documented_decoder (fault : List Char → String) : (decoder fault).Documented where
  item shape _ _ isValue isItem := by
    rw [toOption_decoder, toOption_decoder, parse?_of_readsAs isValue.readsAs,
      parse?_of_readsAs (readsAs_item isItem isValue.readsAs)]
  bool b := decode_of_readsAs (readsAs_bool b) rfl
  word16 {n _} isNumeral := by
    refine decode_of_readsAs
      (readsAs_numeral isNumeral (Nat.lt_trans n.toNat_lt (by decide))) ?_
    simp [Shape.ofJson?, below?, n.toNat_lt]
  word32 {n _} isNumeral := by
    refine decode_of_readsAs
      (readsAs_numeral isNumeral (Nat.lt_trans n.toNat_lt (by decide))) ?_
    simp [Shape.ofJson?, below?, n.toNat_lt]
  list _ _ _ isArray values _ items := by
    refine decode_of_readsAs
      (readsAs_array isArray fun text inside => (values text inside).readsAs) ?_
    simp only [Shape.ofJson?, items?, Option.bind_some]
    exact mapM_valueOf values items
  record _ _ _ _ isRecord values once _ reads := by
    refine decode_of_readsAs (readsAs_record isRecord values) ?_
    simp only [Shape.ofJson?, finder?_record, Option.bind_some]
    exact find?_of_reads values reads once
  repeated _ ms _ isObject values repeats := by
    obtain ⟨name, listed, twice⟩ := repeats
    refine refuse_object isObject values fun members same => ?_
    have names : ms.map (·.1) = (members.map (·.1)).map some := by
      simpa [Function.comp_def] using congrArg (List.map (·.1)) same
    rw [names, List.count_map_of_injective _ _ (Option.some_injective _)] at twice
    exact Fields.find?_eq_none (fun _ => member?_eq_none twice) _ listed
  refused _ name _ has ms _ isObject values text inside _ refused := by
    have taken := ofJson?_valueOf fault (values _ inside) ▸ congrArg Except.toOption refused
    refine refuse_object isObject values fun members same => ?_
    have among : (name, valueOf text) ∈ members := by
      have inObject : (some name, valueOf text) ∈ members.map fun m => (some m.1, m.2) :=
        same ▸ List.mem_map_of_mem inside
      obtain ⟨m, member, own⟩ := List.mem_map.mp inObject
      obtain ⟨named, valued⟩ := Prod.mk.inj own
      rwa [← Option.some.inj named, ← valued]
    exact has.find?_eq_none taken fun _ w found => eq_of_member? among found

end StreamFraming
