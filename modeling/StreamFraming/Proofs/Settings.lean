import StreamFraming.Proofs.Json.Decoder
import StreamFraming.Proofs.Utf8
import StreamFraming.Settings.Reading

/-!
# Settings that are written well

A text may write any of the fields, each once and in any order, at both levels, with white space and
with members that name no field between them. What is read of it are the settings it was written
from, with the default of each field that it leaves out (`IsWritten`). A text that writes a field
twice is refused (`IsRepeated`). Of the decoder no more is used than `Decoder.Documented` says.
-/

namespace StreamFraming

open Json

variable {d : Decoder}

/-- The text of an object with members that `Writes` allows. It has these names, and each field
among them just once. -/
def Json.WritesRecord (fields : List String) (Writes : String × List Char → Prop)
    (names : List String) (cs : List Char) : Prop :=
  ∃ ms : List (String × List Char), IsRecord ms cs ∧ (∀ m ∈ ms, Writes m) ∧
    names = ms.map (·.1) ∧ ∀ field ∈ fields, names.count field ≤ 1

namespace HttpSettings

theorem names_fields :
    fields.names = ["enabled", "ports", "client", "server", "auto_activate", "byte_cap"] := rfl

/-- What a member with one of the field names says of the settings. -/
structure Writes (s : HttpSettings) (m : String × List Char) : Prop where
  enabled : m.1 = "enabled" → m.2 = boolText s.enabled
  ports : m.1 = "ports" → ∃ texts, IsArray texts m.2 ∧
    List.Forall₂ (fun port text => IsNumeral (UInt16.toNat port) text) s.ports texts
  client : m.1 = "client" → m.2 = boolText s.client
  server : m.1 = "server" → m.2 = boolText s.server
  autoActivate : m.1 = "auto_activate" → m.2 = boolText s.autoActivate
  byteCap : m.1 = "byte_cap" → IsNumeral s.byteCap.toNat m.2
  other : m.1 ∉ fields.names → IsValue m.2

/-- The text writes the fields of the settings that are among these names. -/
def IsWritten (s : HttpSettings) : List String → List Char → Prop :=
  WritesRecord fields.names s.Writes

/-- The settings with the defaults of the fields that are not among these names. -/
def restrict (s : HttpSettings) (names : List String) : HttpSettings :=
  let initial : HttpSettings := {}
  { enabled := if "enabled" ∈ names then s.enabled else initial.enabled
    ports := if "ports" ∈ names then s.ports else initial.ports
    client := if "client" ∈ names then s.client else initial.client
    server := if "server" ∈ names then s.server else initial.server
    autoActivate := if "auto_activate" ∈ names then s.autoActivate else initial.autoActivate
    byteCap := if "byte_cap" ∈ names then s.byteCap else initial.byteCap }

theorem isValue_ports {ports : List UInt16} {texts : List (List Char)}
    (numerals : List.Forall₂ (fun port text => IsNumeral (UInt16.toNat port) text) ports texts) :
    ∀ text ∈ texts, IsValue text := by
  induction numerals with
  | nil => exact nofun
  | cons numeral _ ih => exact List.forall_mem_cons.mpr ⟨numeral.isValue, ih⟩

theorem Writes.isValue {s : HttpSettings} {m : String × List Char} (writes : s.Writes m) :
    IsValue m.2 := by
  by_cases known : m.1 ∈ fields.names
  · simp only [names_fields, List.mem_cons, List.not_mem_nil, or_false] at known
    have flag {b : Bool} (text : m.2 = boolText b) : IsValue m.2 := text ▸ .bool b
    rcases known with name | name | name | name | name | name
    · exact flag (writes.enabled name)
    · obtain ⟨texts, isArray, numerals⟩ := writes.ports name
      exact .array isArray (isValue_ports numerals)
    · exact flag (writes.client name)
    · exact flag (writes.server name)
    · exact flag (writes.autoActivate name)
    · exact (writes.byteCap name).isValue
  · exact writes.other known

theorem IsWritten.isValue {s : HttpSettings} {names : List String} {cs : List Char}
    (written : s.IsWritten names cs) : IsValue cs := by
  obtain ⟨ms, isRecord, writes, -, -⟩ := written
  exact isRecord.isValue fun m inside => (writes m inside).isValue

theorem Writes.decode_ports {s : HttpSettings} {m : String × List Char} (writes : s.Writes m)
    (documented : d.Documented) (name : m.1 = "ports") :
    d.decode (.list .word16) m.2 = .ok s.ports := by
  obtain ⟨texts, isArray, numerals⟩ := writes.ports name
  exact documented.list (by decide) isArray (isValue_ports numerals)
    (numerals.imp fun _ _ numeral => documented.word16 numeral)

/-- The fields that are written are read, and the others have their defaults. -/
theorem IsWritten.decode {s : HttpSettings} {names : List String} {cs : List Char}
    (written : s.IsWritten names cs) (documented : d.Documented) :
    d.decode (.record fields) cs = .ok (s.restrict names) := by
  obtain ⟨ms, isRecord, writes, rfl, once⟩ := written
  refine documented.record (by decide) (by decide) isRecord
    (fun m inside => (writes m inside).isValue) once ?_
  have flag {b : Bool} {text : List Char} (same : text = boolText b) :
      d.decode .bool text = .ok b := same ▸ documented.bool b
  have begun : Fields.Reads d ms (.make HttpSettings.mk) HttpSettings.mk := .make _
  have enabled := begun.field (fun m inside name => flag ((writes m inside).enabled name)) true
  have ports := enabled.field
    (fun m inside name => (writes m inside).decode_ports documented name) [80, 8080]
  have client := ports.field (fun m inside name => flag ((writes m inside).client name)) true
  have server := client.field (fun m inside name => flag ((writes m inside).server name)) true
  have autoActivate :=
    server.field (fun m inside name => flag ((writes m inside).autoActivate name)) true
  exact autoActivate.field
    (fun m inside name => documented.word32 ((writes m inside).byteCap name)) 0

end HttpSettings

namespace Settings

theorem names_fields : fields.names = ["max_flush_point", "http"] := rfl

/-- What a member with one of the field names says of the settings; `httpNames` are the fields that
are written of the HTTP settings. -/
structure Writes (s : Settings) (httpNames : List String) (m : String × List Char) : Prop where
  maxFlushPoint : m.1 = "max_flush_point" → IsNumeral s.maxFlushPoint.toNat m.2
  http : m.1 = "http" → s.http.IsWritten httpNames m.2
  other : m.1 ∉ fields.names → IsValue m.2

/-- The text writes the fields of the settings that are among the first names, and of the HTTP
settings those among the others. -/
def IsWritten (s : Settings) (names httpNames : List String) : List Char → Prop :=
  WritesRecord fields.names (s.Writes httpNames) names

/-- The settings with the defaults of the fields that are not among these names. -/
def restrict (s : Settings) (names httpNames : List String) : Settings :=
  let initial : Settings := {}
  { maxFlushPoint := if "max_flush_point" ∈ names then s.maxFlushPoint else initial.maxFlushPoint
    http := if "http" ∈ names then s.http.restrict httpNames else initial.http }

theorem Writes.isValue {s : Settings} {httpNames : List String} {m : String × List Char}
    (writes : s.Writes httpNames m) : IsValue m.2 := by
  by_cases known : m.1 ∈ fields.names
  · simp only [names_fields, List.mem_cons, List.not_mem_nil, or_false] at known
    rcases known with name | name
    · exact (writes.maxFlushPoint name).isValue
    · exact (writes.http name).isValue
  · exact writes.other known

theorem IsWritten.isValue {s : Settings} {names httpNames : List String} {cs : List Char}
    (written : s.IsWritten names httpNames cs) : IsValue cs := by
  obtain ⟨ms, isRecord, writes, -, -⟩ := written
  exact isRecord.isValue fun m inside => (writes m inside).isValue

theorem IsWritten.decode {s : Settings} {names httpNames : List String} {cs : List Char}
    (written : s.IsWritten names httpNames cs) (documented : d.Documented) :
    d.decode (.record fields) cs = .ok (s.restrict names httpNames) := by
  obtain ⟨ms, isRecord, writes, rfl, once⟩ := written
  refine documented.record (by decide) (by decide) isRecord
    (fun m inside => (writes m inside).isValue) once ?_
  have begun : Fields.Reads d ms (.make Settings.mk) Settings.mk := .make _
  have maxFlushPoint := begun.field
    (fun m inside name => documented.word32 ((writes m inside).maxFlushPoint name))
    defaultMaxFlushPoint
  exact maxFlushPoint.field
    (fun m inside name => ((writes m inside).http name).decode documented) {}

/-- A text of an object, with white space around it, that writes a field twice: one of the settings,
or one of the HTTP settings where it writes those. -/
def IsRepeated (cs : List Char) : Prop :=
  ∃ ms : List (Option String × List Char), IsObject ms cs ∧ (∀ m ∈ ms, IsValue m.2) ∧
    (Repeats fields.names (ms.map (·.1)) ∨
      ∃ inner httpMs, (some "http", inner) ∈ ms ∧ IsObject httpMs inner ∧
        (∀ m ∈ httpMs, IsValue m.2) ∧ Repeats HttpSettings.fields.names (httpMs.map (·.1)))

theorem IsRepeated.isValue {cs : List Char} (repeated : IsRepeated cs) : IsValue cs := by
  obtain ⟨ms, isObject, values, -⟩ := repeated
  exact .object isObject values

theorem IsRepeated.decode {cs : List Char} (repeated : IsRepeated cs) (documented : d.Documented) :
    ∃ fault, d.decode (.record fields) cs = .error fault := by
  obtain ⟨ms, isObject, values, repeats | ⟨inner, httpMs, inside, isHttp, httpValues, repeats⟩⟩ :=
    repeated
  · exact documented.repeated (by decide) isObject values repeats
  · -- HTTP settings that are refused spoil the settings.
    obtain ⟨fault, refused⟩ := documented.repeated (by decide) isHttp httpValues repeats
    exact documented.refused (by decide) .last isObject values inside refused

/-! ### Bytes -/

theorem ofBytes_of_ok {text : String} {s : Settings}
    (read : d.decode (.record fields) text.toList = .ok s) :
    ofBytes d text.toUTF8.toList = s.validate.map fun _ => s := by
  rw [ofBytes_eq, Utf8.decode_toUTF8]
  simp only [read]

theorem ofBytes_of_error {text : String} {fault : String}
    (refused : d.decode (.record fields) text.toList = .error fault) :
    ofBytes d text.toUTF8.toList = .error (.invalidJson fault) := by
  rw [ofBytes_eq, Utf8.decode_toUTF8]
  simp only [refused]

theorem invalid_of_validate {s : Settings} (refused : s.validate ≠ .ok ()) :
    ∃ reason, s.validate = .error (.invalid reason) := by
  unfold validate at refused ⊢
  split
  · exact ⟨_, rfl⟩
  · rename_i short
    rw [if_neg short] at refused
    split
    · exact ⟨_, rfl⟩
    · rename_i ported
      rw [if_neg ported] at refused
      exact absurd rfl refused

/-- Settings that a text writes are read back, each field that it does not write with its default,
where these are settings that can work; where they are not the text is refused for them. A text that
writes a field twice does not describe settings. -/
theorem ofBytes_reads_back (documented : d.Documented) {text : String} {cs : List Char}
    (isItem : IsItem cs text.toList) :
    (∀ (s : Settings) (names httpNames : List String), s.IsWritten names httpNames cs →
      let written := s.restrict names httpNames
      (written.validate = .ok () → ofBytes d text.toUTF8.toList = .ok written) ∧
        (written.validate ≠ .ok () →
          ∃ reason, ofBytes d text.toUTF8.toList = .error (.invalid reason))) ∧
      (IsRepeated cs → ∃ fault, ofBytes d text.toUTF8.toList = .error (.invalidJson fault)) := by
  refine ⟨fun s names httpNames isWritten => ?_, fun isRepeated => ?_⟩
  · have read := documented.item_ok isWritten.isValue isItem (isWritten.decode documented)
    rw [ofBytes_of_ok read]
    refine ⟨fun valid => ?_, fun refused => ?_⟩
    · rw [valid]
      rfl
    · obtain ⟨reason, invalid⟩ := invalid_of_validate refused
      exact ⟨reason, by rw [invalid]; rfl⟩
  · obtain ⟨_, refused⟩ := isRepeated.decode documented
    obtain ⟨fault, refused⟩ := documented.item_error isRepeated.isValue isItem refused
    exact ⟨fault, ofBytes_of_error refused⟩

/-- A text that writes the size bound, one field of the HTTP settings and a member that names no
field; and one that writes a field of the HTTP settings twice, the second time with an escape. -/
theorem ofBytes_reads_back_subset :
    let s : Settings := { maxFlushPoint := 16384, http := { ports := [9], server := false } }
    let once := "\x7b \"x\":[null], \"http\":\x7b\"server\":false\x7d,\"max_flush_point\":16384\x7d"
    let twice := " \x7b\"http\":\x7b\"client\":true,\"\\u0063lient\":false\x7d\x7d\n"
    let decoder := Json.decoder fun _ => "duplicate field `client` at line 1 column 37"
    s.IsWritten ["x", "http", "max_flush_point"] ["server"] once.toList ∧
      ofBytes decoder once.toUTF8.toList =
        .ok { maxFlushPoint := 16384, http := { server := false } } ∧
      ∃ fault, ofBytes decoder twice.toUTF8.toList = .error (.invalidJson fault) := by
  intro s once twice decoder
  have documented : decoder.Documented := documented_decoder _
  have unspaced : IsBlanks [] := List.forall_mem_nil _
  have blank : IsBlanks [' '] := by decide
  have line : IsBlanks ['\n'] := by decide
  have member (name value : String) (plain : IsPlain name.toList) :=
    isMember_plain unspaced plain value.toList
  have spaced (name value : String) (plain : IsPlain name.toList) :=
    isMember_plain blank plain value.toList
  have http : s.http.IsWritten ["server"] "\x7b\"server\":false\x7d".toList := by
    have isObject : IsObject _ _ := .elements (.last (member "server" "false" (by decide)))
    refine ⟨[("server", "false".toList)], isObject, ?_, rfl, by decide⟩
    rintro m inside
    cases List.mem_singleton.mp inside
    constructor <;> intro name <;> first | rfl | exact absurd name (by decide)
  have ignored : IsValue "[null]".toList := by
    have isArray : IsArray ["null".toList] _ := .elements (.last (isItem_self _))
    exact .array isArray (List.forall_mem_singleton.mpr .null)
  have isWritten : s.IsWritten ["x", "http", "max_flush_point"] ["server"] once.toList := by
    have isObject : IsObject _ _ := .elements (.cons (spaced "x" "[null]" (by decide))
      (.cons (spaced "http" "\x7b\"server\":false\x7d" (by decide))
        (.last (member "max_flush_point" "16384" (by decide)))))
    refine ⟨[("x", "[null]".toList), ("http", "\x7b\"server\":false\x7d".toList),
      ("max_flush_point", "16384".toList)], ?_, ?_, rfl, by decide⟩
    · exact Eq.mp (congrArg (IsObject _) (by decide +kernel)) isObject
    · rintro m inside
      simp only [List.mem_cons, List.not_mem_nil, or_false] at inside
      rcases inside with rfl | rfl | rfl
      · exact ⟨fun name => absurd name (by decide), fun name => absurd name (by decide),
          fun _ => ignored⟩
      · exact ⟨fun name => absurd name (by decide), fun _ => http,
          fun other => absurd other (by decide)⟩
      · exact ⟨fun _ => by decide, fun name => absurd name (by decide),
          fun other => absurd other (by decide)⟩
  have isRepeated : IsRepeated
      "\x7b\"http\":\x7b\"client\":true,\"\\u0063lient\":false\x7d\x7d".toList := by
    have escaped : IsString (some "client") "\"\\u0063lient\"".toList := by
      have isInside : IsInside ('\\' :: 'u' :: '0' :: '0' :: '6' :: '3' :: "lient".toList) _ :=
        .unit rfl (isInside_plain (by decide))
      exact .text isInside (.unit (by decide) (denotes_chars "lient".toList))
    have client : IsMember (some "client", "false".toList) _ :=
      .mk unspaced escaped unspaced (isItem_self _)
    have isHttp : IsObject _ _ :=
      .elements (.cons (member "client" "true" (by decide)) (.last client))
    have values : ∀ m ∈ [(some "client", "true".toList), (some "client", "false".toList)],
        IsValue m.2 :=
      List.forall_mem_cons.mpr ⟨.bool true, List.forall_mem_singleton.mpr (.bool false)⟩
    have isObject : IsObject _ _ := .elements (.last (member "http"
      "\x7b\"client\":true,\"\\u0063lient\":false\x7d" (by decide)))
    refine ⟨_, isObject, ?_, .inr ⟨_, _, List.mem_cons_self, isHttp, values, "client", ?_, ?_⟩⟩
    · exact List.forall_mem_singleton.mpr (.object isHttp values)
    · decide
    · decide
  refine ⟨isWritten, ?_, ?_⟩
  · exact ((ofBytes_reads_back documented (isItem_self once.toList)).1 s _ _ isWritten).1 rfl
  · refine (ofBytes_reads_back documented ?_).2 isRepeated
    exact Eq.mp (congrArg (IsItem _) (by decide +kernel)) (IsItem.mk blank line)

end Settings

end StreamFraming
