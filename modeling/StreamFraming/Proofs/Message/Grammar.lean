import StreamFraming.Direction
import StreamFraming.Http.Digit
import StreamFraming.Http.Flags
import StreamFraming.Proofs.Http.Rows

/-!
# Well-formed heads

What comes in front of a body when a client or a server keeps to the rules: a first line, header
fields that may be folded over several lines, and a blank line. A line ends with a line feed, with
or without a carriage return. The length and the coding that fields declare are read off their
unfolded text.
-/

namespace StreamFraming.Http

inductive LineEnd where
  | lf
  | crlf
  deriving DecidableEq, Repr

def LineEnd.bytes : LineEnd → List UInt8
  | lf => [lineFeed]
  | crlf => [carriageReturn, lineFeed]

def IsLineText (u : List UInt8) : Prop := ∀ c ∈ u, c ≠ carriageReturn ∧ c ≠ lineFeed

instance (u : List UInt8) : Decidable (IsLineText u) :=
  inferInstanceAs (Decidable (∀ c ∈ u, c ≠ carriageReturn ∧ c ≠ lineFeed))

def IsBlank (u : List UInt8) : Prop := ∀ c ∈ u, isBlank c = true

instance (u : List UInt8) : Decidable (IsBlank u) :=
  inferInstanceAs (Decidable (∀ c ∈ u, isBlank c = true))

def IsWord (u : List UInt8) : Prop := u ≠ [] ∧ IsLineText u ∧ ∀ c ∈ u, isBlank c = false

instance (u : List UInt8) : Decidable (IsWord u) :=
  inferInstanceAs (Decidable (u ≠ [] ∧ IsLineText u ∧ ∀ c ∈ u, isBlank c = false))

theorem isLineText_append {u v : List UInt8} :
    IsLineText (u ++ v) ↔ IsLineText u ∧ IsLineText v :=
  List.forall_mem_append

structure Line where
  text : List UInt8
  plain : IsLineText text
  ending : LineEnd
  deriving DecidableEq

def Line.bytes (l : Line) : List UInt8 := l.text ++ l.ending.bytes

/-! ### Header fields -/

/-- A line that goes on with the line before it. -/
structure Fold where
  blank : UInt8
  isBlank : isBlank blank = true
  line : Line
  deriving DecidableEq

namespace Fold

def bytes (f : Fold) : List UInt8 := f.blank :: f.line.bytes

/-- What the line adds once it is unfolded. -/
def text (f : Fold) : List UInt8 := space :: f.line.text

end Fold

structure HeaderField where
  line : Line
  begins : line.text.head?.map isBlank = some false
  folds : List Fold := []
  deriving DecidableEq

/-- The value in the text of a field, when it has the given name; blanks around the colon do not
count. -/
def fieldValue? (name u : List UInt8) : Option (List UInt8) :=
  if name <+: u.map fold then
    match (u.drop name.length).dropWhile isBlank with
    | c :: v => if c = 0x3A then some (v.dropWhile isBlank) else none
    | [] => none
  else none

theorem isBlank_takeWhile (u : List UInt8) : IsBlank (u.takeWhile isBlank) :=
  fun c hc => List.all_eq_true.mp List.all_takeWhile c hc

theorem head?_dropWhile_isBlank {u : List UInt8} {c : UInt8}
    (h : (u.dropWhile isBlank).head? = some c) : isBlank c = false := by
  have := List.head?_dropWhile_not isBlank u
  rw [h] at this
  simpa using this

theorem isLineText_of_isBlank {u : List UInt8} (h : IsBlank u) : IsLineText u := by
  intro c hc
  have blank := h c hc
  constructor <;> rintro rfl <;> cases blank

theorem exists_word_of_prefix {name u : List UInt8} (h : name <+: u.map fold) :
    ∃ word rest, u = word ++ rest ∧ word.map fold = name ∧ rest = u.drop name.length := by
  refine ⟨u.take name.length, u.drop name.length, (List.take_append_drop _ _).symm, ?_, rfl⟩
  rw [List.map_take]
  exact (List.prefix_iff_eq_take.mp h).symm

theorem fieldValue?_some {name u v : List UInt8} (h : fieldValue? name u = some v) :
    ∃ word blanks blanks', u = word ++ (blanks ++ 0x3A :: (blanks' ++ v)) ∧
      word.map fold = name ∧ IsBlank blanks ∧ IsBlank blanks' ∧
      ∀ c, v.head? = some c → isBlank c = false := by
  unfold fieldValue? at h
  split at h
  · rename_i starts
    obtain ⟨word, rest, whole, spelled, cut⟩ := exists_word_of_prefix starts
    rw [← cut] at h
    split at h
    · rename_i c v' found
      split at h
      · rename_i colon
        cases h
        refine ⟨word, rest.takeWhile isBlank, v'.takeWhile isBlank, ?_, spelled,
          isBlank_takeWhile _, isBlank_takeWhile _, fun _ => head?_dropWhile_isBlank⟩
        rw [List.takeWhile_append_dropWhile, ← colon, ← found, List.takeWhile_append_dropWhile,
          whole]
      · cases h
    · cases h
  · cases h

theorem fieldValue?_none {name u : List UInt8} (h : fieldValue? name u = none)
    (starts : name <+: u.map fold) :
    ∃ word blanks rest, u = word ++ (blanks ++ rest) ∧ word.map fold = name ∧ IsBlank blanks ∧
      ∀ c, rest.head? = some c → isBlank c = false ∧ c ≠ 0x3A := by
  unfold fieldValue? at h
  rw [if_pos starts] at h
  obtain ⟨word, rest, whole, spelled, cut⟩ := exists_word_of_prefix starts
  rw [← cut] at h
  refine ⟨word, rest.takeWhile isBlank, rest.dropWhile isBlank, ?_, spelled, isBlank_takeWhile _,
    fun c first => ⟨head?_dropWhile_isBlank first, ?_⟩⟩
  · rw [List.takeWhile_append_dropWhile, whole]
  · rintro rfl
    obtain ⟨v, found⟩ : ∃ v, rest.dropWhile isBlank = 0x3A :: v :=
      ⟨_, List.eq_cons_of_mem_head? first⟩
    rw [found] at h
    cases h

def contentLengthName : List UInt8 :=
  ascii ['C', 'O', 'N', 'T', 'E', 'N', 'T', '-', 'L', 'E', 'N', 'G', 'T', 'H']

def transferEncodingName : List UInt8 :=
  ascii ['T', 'R', 'A', 'N', 'S', 'F', 'E', 'R', '-', 'E', 'N', 'C', 'O', 'D', 'I', 'N', 'G']

def chunkedName : List UInt8 := ascii ['C', 'H', 'U', 'N', 'K', 'E', 'D']

namespace HeaderField

def bytes (f : HeaderField) : List UInt8 := f.line.bytes ++ f.folds.flatMap Fold.bytes

def text (f : HeaderField) : List UInt8 := f.line.text ++ f.folds.flatMap Fold.text

theorem isLineText_text (f : HeaderField) : IsLineText f.text := by
  refine isLineText_append.mpr ⟨f.line.plain, fun c hc => ?_⟩
  obtain ⟨g, -, inside⟩ := List.mem_flatMap.mp hc
  rcases List.mem_cons.mp inside with rfl | inside
  · decide
  · exact g.line.plain c inside

def contentLength? (f : HeaderField) : Option (List UInt8) := fieldValue? contentLengthName f.text

def isChunked (f : HeaderField) : Bool :=
  (fieldValue? transferEncodingName f.text).any fun v => chunkedName.isPrefixOf (v.map fold)

end HeaderField

/-! ### Numbers -/

def isDigit (c : UInt8) : Bool := 0x30 ≤ c && c ≤ 0x39

@[irreducible] def digitValue (c : UInt8) : Nat :=
  if isDigit c then c.toNat - 0x30 else (fold c).toNat - 0x37

def numeralFrom (base n : Nat) (v : List UInt8) : Nat :=
  v.foldl (fun n c => n * base + digitValue c) n

@[simp] theorem numeralFrom_nil (base n : Nat) : numeralFrom base n [] = n := rfl

@[simp] theorem numeralFrom_cons (base n : Nat) (c : UInt8) (v : List UInt8) :
    numeralFrom base n (c :: v) = numeralFrom base (n * base + digitValue c) v := rfl

def numeral (base : Nat) (v : List UInt8) : Nat := numeralFrom base 0 v

/-- Digits that make a number below the bound, with `n` in front of them. -/
def Fits (digit : UInt8 → Bool) (base bound n : Nat) (v : List UInt8) : Prop :=
  (∀ c ∈ v, digit c = true) ∧ numeralFrom base n v < bound

theorem fits_cons {digit : UInt8 → Bool} {base bound n : Nat} {c : UInt8} {v : List UInt8} :
    Fits digit base bound n (c :: v) ↔
      digit c = true ∧ Fits digit base bound (n * base + digitValue c) v := by
  unfold Fits
  rw [List.forall_mem_cons, and_assoc, numeralFrom_cons]

theorem fits_single {digit : UInt8 → Bool} {base bound n : Nat} {c : UInt8} :
    Fits digit base bound n [c] ↔ digit c = true ∧ n * base + digitValue c < bound := by
  rw [fits_cons]
  exact and_congr_right fun _ => and_iff_right nofun

/-- Lengths from here on are too large to be read. -/
def lengthBound : Nat := 4294967280

def IsLength (v : List UInt8) : Prop :=
  (∀ c ∈ v, isDigit c = true) ∧ numeral 10 v < lengthBound

instance (v : List UInt8) : Decidable (IsLength v) :=
  inferInstanceAs (Decidable ((∀ c ∈ v, isDigit c = true) ∧ numeral 10 v < lengthBound))

/-- At most one field declares a length, and the length can be read. -/
structure ValidFields (fs : List HeaderField) : Prop where
  single : (fs.filterMap HeaderField.contentLength?).length ≤ 1
  length : ∀ v ∈ fs.filterMap HeaderField.contentLength?, IsLength v

def declared? (fs : List HeaderField) : Option Nat :=
  ((fs.filterMap HeaderField.contentLength?).head?).map (numeral 10)

/-! ### First lines -/

structure RequestLine where
  indent : List UInt8 := []
  method : List UInt8
  gap : List UInt8 := [space]
  target : List UInt8
  gap' : List UInt8 := [space]
  /-- The third word and what follows. -/
  rest : List UInt8
  isBlank_indent : IsBlank indent
  isWord_method : IsWord method
  isBlank_gap : gap ≠ [] ∧ IsBlank gap
  isWord_target : IsWord target
  isBlank_gap' : gap' ≠ [] ∧ IsBlank gap'
  plain : IsLineText rest
  begins : rest.head?.map isBlank = some false
  deriving DecidableEq

namespace RequestLine

def text (l : RequestLine) : List UInt8 :=
  l.indent ++ l.method ++ l.gap ++ l.target ++ l.gap' ++ l.rest

theorem isLineText_text (l : RequestLine) : IsLineText l.text := by
  simp only [text, isLineText_append]
  exact ⟨⟨⟨⟨⟨isLineText_of_isBlank l.isBlank_indent, l.isWord_method.2.1⟩,
    isLineText_of_isBlank l.isBlank_gap.2⟩, l.isWord_target.2.1⟩,
    isLineText_of_isBlank l.isBlank_gap'.2⟩, l.plain⟩

def isNamed (l : RequestLine) (name : List UInt8) : Bool :=
  l.indent.isEmpty && l.method.map fold == name

def isHead (l : RequestLine) : Bool := l.isNamed (ascii ['H', 'E', 'A', 'D'])

def isPost (l : RequestLine) : Bool := l.isNamed (ascii ['P', 'O', 'S', 'T'])

def mark (l : RequestLine) (f : Flags) : Flags :=
  { f with noBody := f.noBody || l.isHead, post := f.post || l.isPost }

end RequestLine

structure StatusLine where
  minor : UInt8
  gap : List UInt8 := [space]
  hundreds : UInt8
  tens : UInt8
  ones : UInt8
  blank : UInt8 := space
  reason : List UInt8
  isDigit_minor : isDigit minor = true
  isBlank_gap : gap ≠ [] ∧ IsBlank gap
  isDigit_hundreds : isDigit hundreds = true
  isDigit_tens : isDigit tens = true
  isDigit_ones : isDigit ones = true
  isBlank_blank : isBlank blank = true
  plain : IsLineText reason
  deriving DecidableEq

namespace StatusLine

/-- The line up to its status. -/
def bare (l : StatusLine) : List UInt8 :=
  ascii ['H', 'T', 'T', 'P', '/', '1', '.'] ++ l.minor :: l.gap ++ [l.hundreds, l.tens, l.ones]

def text (l : StatusLine) : List UInt8 :=
  ascii ['H', 'T', 'T', 'P', '/', '1', '.'] ++ l.minor :: l.gap ++
    l.hundreds :: l.tens :: l.ones :: l.blank :: l.reason

theorem text_eq (l : StatusLine) : l.text = l.bare ++ l.blank :: l.reason := by
  simp only [text, bare, List.append_assoc, List.cons_append, List.nil_append]

theorem isLineText_text (l : StatusLine) : IsLineText l.text := by
  have digit {c : UInt8} (h : isDigit c = true) : c ≠ carriageReturn ∧ c ≠ lineFeed := by
    constructor <;> rintro rfl <;> cases h
  have blank : IsLineText [l.blank] :=
    isLineText_of_isBlank (by simpa [IsBlank] using l.isBlank_blank)
  intro c hc
  simp only [text, List.mem_append, List.mem_cons] at hc
  rcases hc with (version | rfl | gap) | rfl | rfl | rfl | rfl | reason
  · have plain : IsLineText (ascii ['H', 'T', 'T', 'P', '/', '1', '.']) := by decide +kernel
    exact plain c version
  · exact digit l.isDigit_minor
  · exact isLineText_of_isBlank l.isBlank_gap.2 c gap
  · exact digit l.isDigit_hundreds
  · exact digit l.isDigit_tens
  · exact digit l.isDigit_ones
  · exact blank _ List.mem_cons_self
  · exact l.plain c reason

/-- The status is 1xx, 204 or 304. -/
def isBodiless (l : StatusLine) : Bool :=
  l.hundreds == 0x31 ||
    (l.hundreds == 0x32 || l.hundreds == 0x33) && l.tens == 0x30 && l.ones == 0x34

/-- The version is 1.0 or 1.1. -/
def isKnown (l : StatusLine) : Bool := l.minor == 0x30 || l.minor == 0x31

/-- What the line tells about the message; a version that is not known tells nothing. -/
def mark (l : StatusLine) (f : Flags) : Flags :=
  if l.isKnown then
    { f with
      noBody := f.noBody || l.isBodiless
      response := true
      version10 := f.version10 || l.minor == 0x30
      version11 := f.version11 || l.minor == 0x31 }
  else f

end StatusLine

inductive StartLine : Direction → Type where
  | request (l : RequestLine) : StartLine .toServer
  | status (l : StatusLine) : StartLine .toClient

variable {d : Direction}

def StartLine.text : StartLine d → List UInt8
  | .request l => l.text
  | .status l => l.text

theorem StartLine.isLineText_text (l : StartLine d) : IsLineText l.text := by
  cases l with
  | request l => exact l.isLineText_text
  | status l => exact l.isLineText_text

def StartLine.mark : StartLine d → Flags → Flags
  | .request l => l.mark
  | .status l => l.mark

/-! ### Heads -/

structure Head (d : Direction) where
  start : StartLine d
  ending : LineEnd := .crlf
  fields : List HeaderField := []
  valid : ValidFields fields
  blank : LineEnd := .crlf

namespace Head

def bytes (h : Head d) : List UInt8 :=
  h.start.text ++ h.ending.bytes ++ h.fields.flatMap HeaderField.bytes ++ h.blank.bytes

def isChunked (h : Head d) : Bool := h.fields.any HeaderField.isChunked

def declared? (h : Head d) : Option Nat := Http.declared? h.fields

end Head

end StreamFraming.Http
