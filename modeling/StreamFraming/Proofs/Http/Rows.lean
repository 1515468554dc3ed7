import Mathlib.Data.FinEnum
import StreamFraming.Http.Token.Table

/-!
# Where the table takes a byte

The places of the table that a byte can find, and for each of them where the byte leads and what it
notes. A place that is met only while a byte is tried has no lemma of its own.
-/

namespace StreamFraming.Http

def isBlank (c : UInt8) : Bool := c == space || c == tab

/-- The bytes of a name of ASCII characters. -/
def ascii (cs : List Char) : List UInt8 := cs.map Char.toUInt8

theorem fold_eq_lineFeed {c : UInt8} : fold c = lineFeed ↔ c = lineFeed := by
  revert c
  decide +kernel

theorem fold_eq_space {c : UInt8} : fold c = space ↔ isBlank c = true := by
  revert c
  decide +kernel

namespace Token

theorem seek_succ {t : Table} {p : Position} {row : Row} (h : t.row? p = some row) (c : UInt8)
    (n : Nat) :
    t.seek c (n + 1) p =
      if row.accepts.accepts c then (row.next, row.action) else t.seek c n row.other := by
  simp [Table.seek, h]

/-- What holds of every row of every block holds of the rows that are found. -/
theorem of_row? {P : Position → Row → Prop}
    (all : ∀ b ∈ Block.all, ∀ i < b.size, ∀ row ∈ table.row? ⟨b, i⟩, P ⟨b, i⟩ row) {p : Position}
    {row : Row} (found : table.row? p = some row) : P p row := by
  obtain ⟨b, i⟩ := p
  have inside : i < b.size := by
    by_contra outside
    rw [Table.row?, Table.index?, if_neg outside] at found
    cases found
  exact all b (by cases b <;> decide) i inside row found

/-- What holds of the rows of some places, and of those where a byte is tried again, holds of where
the byte leads and of what it notes. -/
theorem seek_closed {S : Position → Prop} {T : Position → Action → Prop} {c : UInt8}
    (still : ∀ {p}, S p → T p .nop)
    (closed : ∀ {p row}, S p → table.row? p = some row →
      S row.other ∧ (row.accepts.accepts c = true → T row.next row.action))
    {p : Position} (start : S p) (n : Nat) : T (table.seek c n p).1 (table.seek c n p).2 := by
  induction n generalizing p with
  | zero => exact still start
  | succ n ih =>
    unfold Table.seek
    cases found : table.row? p with
    | none => exact still start
    | some row =>
      obtain ⟨other, taken⟩ := closed start found
      simp only
      split
      · rename_i accepted
        exact taken accepted
      · exact ih other

/-! ### Words -/

/-- A word whose letters are taken in turn from a place of a block on. A byte that is not the next
letter is tried at one other place. -/
structure Word where
  block : Block
  first : Nat
  letters : List UInt8
  other : Position

namespace Word

def contentLength : Word where
  block := .contentLength
  first := 1
  letters := ascii ['O', 'N', 'T', 'E', 'N', 'T', '-', 'L', 'E', 'N', 'G', 'T', 'H']
  other := .skipLine

def transferEncoding : Word where
  block := .transferEncoding
  first := 1
  letters :=
    ascii ['R', 'A', 'N', 'S', 'F', 'E', 'R', '-', 'E', 'N', 'C', 'O', 'D', 'I', 'N', 'G']
  other := .skipLine

def chunked : Word := ⟨.chunked, 0, ascii ['C', 'H', 'U', 'N', 'K', 'E'], .skipLine⟩

def head : Word := ⟨.requestLine, 1, ascii ['E', 'A', 'D'], ⟨.requestLine, 10⟩⟩

def post : Word := ⟨.requestLine, 6, ascii ['O', 'S', 'T'], ⟨.requestLine, 10⟩⟩

def version : Word := ⟨.statusLine, 1, ascii ['T', 'T', 'P', '/', '1', '.'], .skipLine⟩

def all : List Word := [contentLength, transferEncoding, chunked, head, post, version]

end Word

theorem row_word : ∀ w ∈ Word.all, ∀ i (h : i < w.letters.length),
    table.row? ⟨w.block, w.first + i⟩ = some ⟨⟨w.block, w.first + i⟩, .byte w.letters[i],
      ⟨w.block, w.first + i + 1⟩, w.other, .nop⟩ := by
  decide +kernel

/-! ### Lines that do not matter -/

theorem seek_skipLine (c : UInt8) (n : Nat) :
    table.seek c (n + 2) .skipLine =
      if c = lineFeed then (.fieldStart, .nop) else (.skipLine, .nop) := by
  have first : table.row? .skipLine =
      some ⟨.skipLine, .eol, .fieldStart, ⟨.skipLine, 1⟩, .nop⟩ := rfl
  have last : table.row? ⟨.skipLine, 1⟩ =
      some ⟨⟨.skipLine, 1⟩, .any, .skipLine, .skipLine, .nop⟩ := rfl
  rw [seek_succ first, seek_succ last]
  simp [Pattern.accepts]

theorem step_skipLine (c : UInt8) :
    table.step .skipLine c = if c = lineFeed then (.fieldStart, .nop) else (.skipLine, .nop) := by
  rw [Table.step, size_table, seek_skipLine]
  simp only [fold_eq_lineFeed]

/-- In a word of a header line a byte either goes on with the word or makes the line one that does
not matter. -/
theorem step_word {p next : Position} {x : UInt8}
    (row : table.row? p = some ⟨p, .byte x, next, .skipLine, .nop⟩) (c : UInt8) :
    table.step p c = if fold c = x then (next, .nop) else table.step .skipLine c := by
  rw [step_skipLine, Table.step, size_table, seek_succ row, seek_skipLine]
  simp only [Pattern.accepts, beq_iff_eq, fold_eq_lineFeed]

/-! ### Header lines -/

theorem step_fieldStart (c : UInt8) :
    table.step .fieldStart c =
      if fold c = 0x43 then (⟨.contentLength, 1⟩, .nop)
      else if fold c = 0x54 then (⟨.transferEncoding, 1⟩, .nop)
      else table.step .skipLine c := by
  have first : table.row? .fieldStart =
      some ⟨.fieldStart, .byte 0x43, ⟨.contentLength, 1⟩, ⟨.transferEncoding, 0⟩, .nop⟩ := rfl
  have second : table.row? ⟨.transferEncoding, 0⟩ =
      some ⟨⟨.transferEncoding, 0⟩, .byte 0x54, ⟨.transferEncoding, 1⟩, .skipLine, .nop⟩ := rfl
  rw [step_skipLine, Table.step, size_table, seek_succ first, seek_succ second, seek_skipLine]
  simp only [Pattern.accepts, beq_iff_eq, fold_eq_lineFeed]

theorem step_afterContentLength (c : UInt8) :
    table.step ⟨.contentLength, 14⟩ c =
      if isBlank c then (⟨.contentLength, 14⟩, .nop)
      else if fold c = 0x3A then (⟨.contentLength, 16⟩, .nop)
      else table.step .skipLine c := by
  have first : table.row? ⟨.contentLength, 14⟩ =
      some ⟨⟨.contentLength, 14⟩, .blank, ⟨.contentLength, 14⟩, ⟨.contentLength, 15⟩, .nop⟩ := rfl
  have second : table.row? ⟨.contentLength, 15⟩ =
      some ⟨⟨.contentLength, 15⟩, .byte 0x3A, ⟨.contentLength, 16⟩, .skipLine, .nop⟩ := rfl
  rw [step_skipLine, Table.step, size_table, seek_succ first, seek_succ second, seek_skipLine]
  simp only [Pattern.accepts, beq_iff_eq, fold_eq_lineFeed, fold_eq_space]

theorem step_lengthDigits (c : UInt8) :
    table.step ⟨.lengthDigits, 0⟩ c =
      if c = lineFeed then (.fieldStart, .lengthBody) else (⟨.lengthDigits, 0⟩, .shiftDecimal) := by
  have first : table.row? ⟨.lengthDigits, 0⟩ =
      some ⟨⟨.lengthDigits, 0⟩, .eol, .fieldStart, ⟨.lengthDigits, 1⟩, .lengthBody⟩ := rfl
  have second : table.row? ⟨.lengthDigits, 1⟩ =
      some ⟨⟨.lengthDigits, 1⟩, .any, ⟨.lengthDigits, 0⟩, ⟨.lengthDigits, 0⟩, .shiftDecimal⟩ := rfl
  rw [Table.step, size_table, seek_succ first, seek_succ second]
  simp only [Pattern.accepts, beq_iff_eq, fold_eq_lineFeed, if_true]

theorem step_beforeDigits (c : UInt8) :
    table.step ⟨.contentLength, 16⟩ c =
      if isBlank c then (⟨.contentLength, 16⟩, .lengthZero)
      else table.step ⟨.lengthDigits, 0⟩ c := by
  have first : table.row? ⟨.contentLength, 16⟩ =
      some ⟨⟨.contentLength, 16⟩, .blank, ⟨.contentLength, 16⟩, ⟨.lengthDigits, 0⟩,
        .lengthZero⟩ := rfl
  have second : table.row? ⟨.lengthDigits, 0⟩ =
      some ⟨⟨.lengthDigits, 0⟩, .eol, .fieldStart, ⟨.lengthDigits, 1⟩, .lengthBody⟩ := rfl
  have third : table.row? ⟨.lengthDigits, 1⟩ =
      some ⟨⟨.lengthDigits, 1⟩, .any, ⟨.lengthDigits, 0⟩, ⟨.lengthDigits, 0⟩, .shiftDecimal⟩ := rfl
  rw [step_lengthDigits, Table.step, size_table, seek_succ first, seek_succ second,
    seek_succ third]
  simp only [Pattern.accepts, beq_iff_eq, fold_eq_lineFeed, fold_eq_space, if_true]

theorem step_afterTransferEncoding (c : UInt8) :
    table.step ⟨.transferEncoding, 17⟩ c =
      if isBlank c then (⟨.transferEncoding, 17⟩, .nop)
      else if fold c = 0x3A then (⟨.transferEncoding, 19⟩, .nop)
      else table.step .skipLine c := by
  have first : table.row? ⟨.transferEncoding, 17⟩ =
      some ⟨⟨.transferEncoding, 17⟩, .blank, ⟨.transferEncoding, 17⟩, ⟨.transferEncoding, 18⟩,
        .nop⟩ := rfl
  have second : table.row? ⟨.transferEncoding, 18⟩ =
      some ⟨⟨.transferEncoding, 18⟩, .byte 0x3A, ⟨.transferEncoding, 19⟩, .skipLine, .nop⟩ := rfl
  rw [step_skipLine, Table.step, size_table, seek_succ first, seek_succ second, seek_skipLine]
  simp only [Pattern.accepts, beq_iff_eq, fold_eq_lineFeed, fold_eq_space]

theorem step_beforeCoding (c : UInt8) :
    table.step ⟨.transferEncoding, 19⟩ c =
      if isBlank c then (⟨.transferEncoding, 19⟩, .nop) else table.step ⟨.chunked, 0⟩ c := by
  have first : table.row? ⟨.transferEncoding, 19⟩ =
      some ⟨⟨.transferEncoding, 19⟩, .blank, ⟨.transferEncoding, 19⟩, ⟨.chunked, 0⟩, .nop⟩ := rfl
  have second : table.row? ⟨.chunked, 0⟩ =
      some ⟨⟨.chunked, 0⟩, .byte 0x43, ⟨.chunked, 1⟩, .skipLine, .nop⟩ := rfl
  rw [step_word second, step_skipLine, Table.step, size_table, seek_succ first, seek_succ second,
    seek_skipLine]
  simp only [Pattern.accepts, beq_iff_eq, fold_eq_lineFeed, fold_eq_space]

theorem step_chunkedEnd (c : UInt8) :
    table.step ⟨.chunked, 6⟩ c =
      if fold c = 0x44 then (.skipLine, .chunked) else table.step .skipLine c := by
  have first : table.row? ⟨.chunked, 6⟩ =
      some ⟨⟨.chunked, 6⟩, .byte 0x44, .skipLine, .skipLine, .chunked⟩ := rfl
  rw [step_skipLine, Table.step, size_table, seek_succ first, seek_skipLine]
  simp only [Pattern.accepts, beq_iff_eq, fold_eq_lineFeed]

/-! ### Request lines -/

theorem seek_method (c : UInt8) (n : Nat) :
    table.seek c (n + 2) ⟨.requestLine, 10⟩ =
      if c = space then (⟨.requestLine, 12⟩, .nop) else (⟨.requestLine, 10⟩, .nop) := by
  have first : table.row? ⟨.requestLine, 10⟩ =
      some ⟨⟨.requestLine, 10⟩, .blank, ⟨.requestLine, 12⟩, ⟨.requestLine, 11⟩, .nop⟩ := rfl
  have second : table.row? ⟨.requestLine, 11⟩ =
      some ⟨⟨.requestLine, 11⟩, .any, ⟨.requestLine, 10⟩, ⟨.requestLine, 10⟩, .nop⟩ := rfl
  rw [seek_succ first, seek_succ second]
  simp [Pattern.accepts]

theorem step_method (c : UInt8) :
    table.step ⟨.requestLine, 10⟩ c =
      if isBlank c then (⟨.requestLine, 12⟩, .nop) else (⟨.requestLine, 10⟩, .nop) := by
  rw [Table.step, size_table, seek_method]
  simp only [fold_eq_space]

theorem step_methodName {p next : Position} {x : UInt8}
    (row : table.row? p = some ⟨p, .byte x, next, ⟨.requestLine, 10⟩, .nop⟩) (c : UInt8) :
    table.step p c = if fold c = x then (next, .nop) else table.step ⟨.requestLine, 10⟩ c := by
  rw [step_method, Table.step, size_table, seek_succ row, seek_method]
  simp only [Pattern.accepts, beq_iff_eq, fold_eq_space]

theorem step_methodEnd {p : Position} {a : Action}
    (row : table.row? p = some ⟨p, .blank, ⟨.requestLine, 12⟩, ⟨.requestLine, 10⟩, a⟩)
    (c : UInt8) :
    table.step p c =
      if isBlank c then (⟨.requestLine, 12⟩, a) else table.step ⟨.requestLine, 10⟩ c := by
  rw [step_method, Table.step, size_table, seek_succ row, seek_method]
  simp only [Pattern.accepts, beq_iff_eq, fold_eq_space]

theorem step_requestStart (c : UInt8) :
    table.step .requestStart c =
      if fold c = 0x48 then (⟨.requestLine, 1⟩, .nop)
      else if fold c = 0x50 then (⟨.requestLine, 6⟩, .nop)
      else table.step ⟨.requestLine, 10⟩ c := by
  have first : table.row? .requestStart =
      some ⟨.requestStart, .byte 0x48, ⟨.requestLine, 1⟩, ⟨.requestLine, 5⟩, .nop⟩ := rfl
  have second : table.row? ⟨.requestLine, 5⟩ =
      some ⟨⟨.requestLine, 5⟩, .byte 0x50, ⟨.requestLine, 6⟩, ⟨.requestLine, 10⟩, .nop⟩ := rfl
  rw [step_method, Table.step, size_table, seek_succ first, seek_succ second, seek_method]
  simp only [Pattern.accepts, beq_iff_eq, fold_eq_space]

theorem row_headEnd :
    table.row? ⟨.requestLine, 4⟩ =
      some ⟨⟨.requestLine, 4⟩, .blank, ⟨.requestLine, 12⟩, ⟨.requestLine, 10⟩, .noBody⟩ := rfl

theorem row_postEnd :
    table.row? ⟨.requestLine, 9⟩ =
      some ⟨⟨.requestLine, 9⟩, .blank, ⟨.requestLine, 12⟩, ⟨.requestLine, 10⟩, .post⟩ := rfl

theorem row_target :
    table.row? ⟨.requestLine, 13⟩ =
      some ⟨⟨.requestLine, 13⟩, .eol, .skipLine, ⟨.requestLine, 14⟩, .simple⟩ := rfl

theorem seek_target (c : UInt8) (n : Nat) :
    table.seek c (n + 3) ⟨.requestLine, 13⟩ =
      if c = space then (⟨.requestLine, 16⟩, .nop)
      else if c = lineFeed then (.skipLine, .simple)
      else (⟨.requestLine, 13⟩, .nop) := by
  have second : table.row? ⟨.requestLine, 14⟩ =
      some ⟨⟨.requestLine, 14⟩, .blank, ⟨.requestLine, 16⟩, ⟨.requestLine, 15⟩, .nop⟩ := rfl
  have third : table.row? ⟨.requestLine, 15⟩ =
      some ⟨⟨.requestLine, 15⟩, .any, ⟨.requestLine, 13⟩, ⟨.requestLine, 13⟩, .nop⟩ := rfl
  rw [seek_succ row_target, seek_succ second, seek_succ third]
  simp only [Pattern.accepts, beq_iff_eq, if_true]
  by_cases h : c = lineFeed
  · subst h
    simp [show lineFeed ≠ space by decide]
  · simp [h]

theorem step_target (c : UInt8) :
    table.step ⟨.requestLine, 13⟩ c =
      if isBlank c then (⟨.requestLine, 16⟩, .nop)
      else if c = lineFeed then (.skipLine, .simple)
      else (⟨.requestLine, 13⟩, .nop) := by
  rw [Table.step, size_table, seek_target]
  simp only [fold_eq_space, fold_eq_lineFeed]

theorem step_afterMethod (c : UInt8) :
    table.step ⟨.requestLine, 12⟩ c =
      if isBlank c then (⟨.requestLine, 12⟩, .nop) else table.step ⟨.requestLine, 13⟩ c := by
  have first : table.row? ⟨.requestLine, 12⟩ =
      some ⟨⟨.requestLine, 12⟩, .blank, ⟨.requestLine, 12⟩, ⟨.requestLine, 13⟩, .nop⟩ := rfl
  rw [step_target, Table.step, size_table, seek_succ first, seek_target]
  simp only [Pattern.accepts, beq_iff_eq, fold_eq_space, fold_eq_lineFeed]

theorem step_afterTarget (c : UInt8) :
    table.step ⟨.requestLine, 16⟩ c =
      if isBlank c then (⟨.requestLine, 16⟩, .nop)
      else if c = lineFeed then (.skipLine, .simple)
      else (.skipLine, .nop) := by
  have first : table.row? ⟨.requestLine, 16⟩ =
      some ⟨⟨.requestLine, 16⟩, .blank, ⟨.requestLine, 16⟩, ⟨.requestLine, 17⟩, .nop⟩ := rfl
  have second : table.row? ⟨.requestLine, 17⟩ =
      some ⟨⟨.requestLine, 17⟩, .eol, .skipLine, .skipLine, .simple⟩ := rfl
  rw [Table.step, size_table, seek_succ first, seek_succ second, seek_skipLine]
  simp only [Pattern.accepts, beq_iff_eq, fold_eq_space, fold_eq_lineFeed]
  by_cases h : c = lineFeed
  · simp only [h, if_true]
  · simp only [h, if_false]

/-! ### Status lines -/

theorem step_responseStart (c : UInt8) :
    table.step .responseStart c =
      if fold c = 0x48 then (⟨.statusLine, 1⟩, .nop)
      else if isBlank c then (.responseStart, .nop)
      else if c = lineFeed then (.responseStart, .nop)
      else (.skipLine, .nop) := by
  have letter : table.row? .responseStart =
      some ⟨.responseStart, .byte 0x48, ⟨.statusLine, 1⟩, ⟨.leadingBlank, 0⟩, .nop⟩ := rfl
  have blank : table.row? ⟨.leadingBlank, 0⟩ =
      some ⟨⟨.leadingBlank, 0⟩, .blank, .responseStart, ⟨.leadingBlank, 1⟩, .nop⟩ := rfl
  have ended : table.row? ⟨.leadingBlank, 1⟩ =
      some ⟨⟨.leadingBlank, 1⟩, .eol, .responseStart, ⟨.skipLine, 1⟩, .nop⟩ := rfl
  have last : table.row? ⟨.skipLine, 1⟩ =
      some ⟨⟨.skipLine, 1⟩, .any, .skipLine, .skipLine, .nop⟩ := rfl
  rw [Table.step, size_table, seek_succ letter, seek_succ blank, seek_succ ended, seek_succ last]
  simp only [Pattern.accepts, beq_iff_eq, fold_eq_space, fold_eq_lineFeed, if_true]

theorem step_minor (c : UInt8) :
    table.step ⟨.statusLine, 7⟩ c =
      if fold c = 0x30 then (⟨.statusLine, 9⟩, .version10)
      else if fold c = 0x31 then (⟨.statusLine, 9⟩, .version11)
      else table.step .skipLine c := by
  have zero : table.row? ⟨.statusLine, 7⟩ =
      some ⟨⟨.statusLine, 7⟩, .byte 0x30, ⟨.statusLine, 9⟩, ⟨.statusLine, 8⟩, .version10⟩ := rfl
  have one : table.row? ⟨.statusLine, 8⟩ =
      some ⟨⟨.statusLine, 8⟩, .byte 0x31, ⟨.statusLine, 9⟩, .skipLine, .version11⟩ := rfl
  rw [step_skipLine, Table.step, size_table, seek_succ zero, seek_succ one, seek_skipLine]
  simp only [Pattern.accepts, beq_iff_eq, fold_eq_lineFeed]

theorem step_afterVersion (c : UInt8) :
    table.step ⟨.statusLine, 9⟩ c =
      if isBlank c then (⟨.statusLine, 10⟩, .nop) else table.step .skipLine c := by
  have first : table.row? ⟨.statusLine, 9⟩ =
      some ⟨⟨.statusLine, 9⟩, .blank, ⟨.statusLine, 10⟩, .skipLine, .nop⟩ := rfl
  rw [step_skipLine, Table.step, size_table, seek_succ first, seek_skipLine]
  simp only [Pattern.accepts, beq_iff_eq, fold_eq_space, fold_eq_lineFeed]

theorem seek_anyDigit (c : UInt8) (n : Nat) :
    table.seek c (n + 1) ⟨.statusLine, 16⟩ = (⟨.statusLine, 17⟩, .nop) := by
  have first : table.row? ⟨.statusLine, 16⟩ =
      some ⟨⟨.statusLine, 16⟩, .any, ⟨.statusLine, 17⟩, ⟨.statusLine, 17⟩, .nop⟩ := rfl
  rw [seek_succ first]
  rfl

theorem step_anyDigit (c : UInt8) :
    table.step ⟨.statusLine, 16⟩ c = (⟨.statusLine, 17⟩, .nop) := by
  rw [Table.step, size_table, seek_anyDigit]

theorem step_beforeStatus (c : UInt8) :
    table.step ⟨.statusLine, 10⟩ c =
      if isBlank c then (⟨.statusLine, 10⟩, .nop)
      else if fold c = 0x31 then (⟨.statusLine, 16⟩, .noBody)
      else if fold c = 0x32 then (⟨.statusLine, 14⟩, .nop)
      else if fold c = 0x33 then (⟨.statusLine, 14⟩, .nop)
      else (⟨.statusLine, 17⟩, .nop) := by
  have first : table.row? ⟨.statusLine, 10⟩ =
      some ⟨⟨.statusLine, 10⟩, .blank, ⟨.statusLine, 10⟩, ⟨.statusLine, 11⟩, .nop⟩ := rfl
  have one : table.row? ⟨.statusLine, 11⟩ =
      some ⟨⟨.statusLine, 11⟩, .byte 0x31, ⟨.statusLine, 16⟩, ⟨.statusLine, 12⟩, .noBody⟩ := rfl
  have two : table.row? ⟨.statusLine, 12⟩ =
      some ⟨⟨.statusLine, 12⟩, .byte 0x32, ⟨.statusLine, 14⟩, ⟨.statusLine, 13⟩, .nop⟩ := rfl
  have three : table.row? ⟨.statusLine, 13⟩ =
      some ⟨⟨.statusLine, 13⟩, .byte 0x33, ⟨.statusLine, 14⟩, ⟨.statusLine, 16⟩, .nop⟩ := rfl
  rw [Table.step, size_table, seek_succ first, seek_succ one, seek_succ two, seek_succ three,
    seek_anyDigit]
  simp only [Pattern.accepts, beq_iff_eq, fold_eq_space]

theorem step_secondDigit (c : UInt8) :
    table.step ⟨.statusLine, 14⟩ c =
      if fold c = 0x30 then (⟨.statusLine, 15⟩, .nop) else (⟨.statusLine, 17⟩, .nop) := by
  have first : table.row? ⟨.statusLine, 14⟩ =
      some ⟨⟨.statusLine, 14⟩, .byte 0x30, ⟨.statusLine, 15⟩, ⟨.statusLine, 16⟩, .nop⟩ := rfl
  rw [Table.step, size_table, seek_succ first, seek_anyDigit]
  simp only [Pattern.accepts, beq_iff_eq]

theorem step_thirdDigit (c : UInt8) :
    table.step ⟨.statusLine, 15⟩ c =
      if fold c = 0x34 then (⟨.statusLine, 17⟩, .noBody) else (⟨.statusLine, 17⟩, .nop) := by
  have first : table.row? ⟨.statusLine, 15⟩ =
      some ⟨⟨.statusLine, 15⟩, .byte 0x34, ⟨.statusLine, 17⟩, ⟨.statusLine, 16⟩, .noBody⟩ := rfl
  rw [Table.step, size_table, seek_succ first, seek_anyDigit]
  simp only [Pattern.accepts, beq_iff_eq]

theorem step_status (c : UInt8) :
    table.step ⟨.statusLine, 17⟩ c =
      if isBlank c then (.skipLine, .response) else (⟨.statusLine, 17⟩, .nop) := by
  have first : table.row? ⟨.statusLine, 17⟩ =
      some ⟨⟨.statusLine, 17⟩, .blank, .skipLine, ⟨.statusLine, 16⟩, .response⟩ := rfl
  rw [Table.step, size_table, seek_succ first, seek_anyDigit]
  simp only [Pattern.accepts, beq_iff_eq, fold_eq_space]

/-! ### Chunks -/

theorem step_chunkStart (c : UInt8) :
    table.step .chunkStart c =
      if c = lineFeed then (⟨.chunkDataEol, 0⟩, .lengthChunk) else (.chunkStart, .shiftHex) := by
  have first : table.row? .chunkStart =
      some ⟨.chunkStart, .eol, ⟨.chunkDataEol, 0⟩, ⟨.chunkSize, 1⟩, .lengthChunk⟩ := rfl
  have second : table.row? ⟨.chunkSize, 1⟩ =
      some ⟨⟨.chunkSize, 1⟩, .any, .chunkStart, .chunkStart, .shiftHex⟩ := rfl
  rw [Table.step, size_table, seek_succ first, seek_succ second]
  simp only [Pattern.accepts, beq_iff_eq, fold_eq_lineFeed, if_true]

theorem step_chunkDataEol (c : UInt8) :
    table.step ⟨.chunkDataEol, 0⟩ c =
      if c = lineFeed then (.chunkStart, .lengthZero) else (⟨.chunkDataEol, 0⟩, .nop) := by
  have first : table.row? ⟨.chunkDataEol, 0⟩ =
      some ⟨⟨.chunkDataEol, 0⟩, .eol, .chunkStart, ⟨.chunkDataEol, 1⟩, .lengthZero⟩ := rfl
  have second : table.row? ⟨.chunkDataEol, 1⟩ =
      some ⟨⟨.chunkDataEol, 1⟩, .any, ⟨.chunkDataEol, 0⟩, ⟨.chunkDataEol, 0⟩, .nop⟩ := rfl
  rw [Table.step, size_table, seek_succ first, seek_succ second]
  simp only [Pattern.accepts, beq_iff_eq, fold_eq_lineFeed, if_true]

end Token

end StreamFraming.Http
