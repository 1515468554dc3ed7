import StreamFraming.Http.Token

/-!
# Token tables

A table is a list of rows, block after block. It is sound when each block has its rows in order,
every place that a row names exists, and trying a byte from row to row always ends at a row that
accepts anything. `step` takes one byte through a table; it looks at no more rows than there are.
-/

namespace StreamFraming.Http.Token

structure Table where
  rows : Array Row

inductive TableError where
  | misplaced (index : Nat) (found : Position)
  | blockSize (block : Block) (rows : Nat)
  | badTarget (target : Position)
  | unterminated (place : Position)
  deriving DecidableEq, Repr

def TableError.message : TableError → String
  | misplaced index found => "row " ++ toString index ++ " holds state " ++ found.describe
  | blockSize block rows =>
    "block " ++ block.label ++ " has " ++ toString rows ++ " rows, expected " ++
      toString block.size
  | badTarget target => "transition to missing state " ++ target.describe
  | unterminated place => "miss chain from " ++ place.describe ++ " never matches"

namespace Table

def size (t : Table) : Nat := t.rows.size

def index? (p : Position) : Option Nat :=
  if p.step < p.block.size then some (p.block.offset + p.step) else none

def row? (t : Table) (p : Position) : Option Row := (index? p).bind (t.rows[·]?)

/-- Try a byte, folded already, from a place on, at no more than `fuel` rows. -/
def seek (t : Table) (c : UInt8) : Nat → Position → Position × Action
  | 0, p => (p, .nop)
  | fuel + 1, p =>
    match t.row? p with
    | none => (p, .nop)
    | some row =>
      if row.accepts.accepts c then (row.next, row.action) else seek t c fuel row.other

def step (t : Table) (p : Position) (c : UInt8) : Position × Action := t.seek (fold c) t.size p

def sizeFaults (t : Table) : List TableError :=
  Block.all.filterMap fun block =>
    let rows := (t.rows.filter (·.place.block == block)).size
    if rows = block.size then none else some (.blockSize block rows)

def rowFaults (t : Table) : List TableError :=
  t.rows.toList.zipIdx.flatMap fun (row, index) =>
    (if index? row.place = some index then [] else [.misplaced index row.place]) ++
    [row.next, row.other].filterMap fun target =>
      if (index? target).isSome then none else some (.badTarget target)

/-- Follow the tries of a byte that only a row for anything accepts, past no more than `fuel` rows.
-/
def chainFault? (t : Table) (start : Position) : Nat → Position → Option TableError
  | fuel, p =>
    match t.row? p with
    | none => some (.badTarget p)
    | some row =>
      if row.accepts = .any then none
      else
        match fuel with
        | 0 => some (.unterminated start)
        | fuel + 1 => chainFault? t start fuel row.other

def faults (t : Table) : List TableError :=
  t.sizeFaults ++ t.rowFaults ++
    t.rows.toList.filterMap fun row => t.chainFault? row.place t.size row.place

def validate (t : Table) : Except TableError Unit :=
  match t.faults with
  | [] => .ok ()
  | fault :: _ => .error fault

def describe (t : Table) : String :=
  Text.Listing.record "Fsm" [("rows", toString t.size)]

end Table

/-! ### The table of HTTP framing -/

/-- Rows that accept the characters of a word in turn; a byte that fits none of them is tried at
`other`. -/
def word (block : Block) (first : Nat) (other : Position) (cs : List Char) : List Row :=
  cs.zipIdx.map fun (c, i) =>
    { place := ⟨block, first + i⟩, accepts := .char c, next := ⟨block, first + i + 1⟩, other }

/-- An HTTP version begins a response. A status of 1xx, 204 or 304 has no body. -/
def statusLine : List Row :=
  let at_ (step : Nat) : Position := ⟨.statusLine, step⟩
  [⟨at_ 0, .char 'H', at_ 1, ⟨.leadingBlank, 0⟩, .nop⟩] ++
  word .statusLine 1 .skipLine ['T', 'T', 'P', '/', '1', '.'] ++
  [⟨at_ 7, .char '0', at_ 9, at_ 8, .version10⟩,
    ⟨at_ 8, .char '1', at_ 9, .skipLine, .version11⟩,
    ⟨at_ 9, .blank, at_ 10, .skipLine, .nop⟩,
    ⟨at_ 10, .blank, at_ 10, at_ 11, .nop⟩,
    ⟨at_ 11, .char '1', at_ 16, at_ 12, .noBody⟩,
    ⟨at_ 12, .char '2', at_ 14, at_ 13, .nop⟩,
    ⟨at_ 13, .char '3', at_ 14, at_ 16, .nop⟩,
    ⟨at_ 14, .char '0', at_ 15, at_ 16, .nop⟩,
    ⟨at_ 15, .char '4', at_ 17, at_ 16, .noBody⟩,
    ⟨at_ 16, .any, at_ 17, at_ 17, .nop⟩,
    ⟨at_ 17, .blank, .skipLine, at_ 16, .response⟩]

/-- HEAD has no body in its response, and POST needs a length. Of any request the words are counted:
a line of two is a simple request. -/
def requestLine : List Row :=
  let at_ (step : Nat) : Position := ⟨.requestLine, step⟩
  [⟨at_ 0, .char 'H', at_ 1, at_ 5, .nop⟩] ++
  word .requestLine 1 (at_ 10) ['E', 'A', 'D'] ++
  [⟨at_ 4, .blank, at_ 12, at_ 10, .noBody⟩] ++
  word .requestLine 5 (at_ 10) ['P', 'O', 'S', 'T'] ++
  [⟨at_ 9, .blank, at_ 12, at_ 10, .post⟩,
    ⟨at_ 10, .blank, at_ 12, at_ 11, .nop⟩,
    ⟨at_ 11, .any, at_ 10, at_ 10, .nop⟩,
    ⟨at_ 12, .blank, at_ 12, at_ 13, .nop⟩,
    ⟨at_ 13, .eol, .skipLine, at_ 14, .simple⟩,
    ⟨at_ 14, .blank, at_ 16, at_ 15, .nop⟩,
    ⟨at_ 15, .any, at_ 13, at_ 13, .nop⟩,
    ⟨at_ 16, .blank, at_ 16, at_ 17, .nop⟩,
    ⟨at_ 17, .eol, .skipLine, .skipLine, .simple⟩]

def contentLength : List Row :=
  let at_ (step : Nat) : Position := ⟨.contentLength, step⟩
  [⟨at_ 0, .char 'C', at_ 1, ⟨.transferEncoding, 0⟩, .nop⟩] ++
  word .contentLength 1 .skipLine
    ['O', 'N', 'T', 'E', 'N', 'T', '-', 'L', 'E', 'N', 'G', 'T', 'H'] ++
  [⟨at_ 14, .blank, at_ 14, at_ 15, .nop⟩,
    ⟨at_ 15, .char ':', at_ 16, .skipLine, .nop⟩,
    ⟨at_ 16, .blank, at_ 16, ⟨.lengthDigits, 0⟩, .lengthZero⟩]

def transferEncoding : List Row :=
  let at_ (step : Nat) : Position := ⟨.transferEncoding, step⟩
  [⟨at_ 0, .char 'T', at_ 1, .skipLine, .nop⟩] ++
  word .transferEncoding 1 .skipLine
    ['R', 'A', 'N', 'S', 'F', 'E', 'R', '-', 'E', 'N', 'C', 'O', 'D', 'I', 'N', 'G'] ++
  [⟨at_ 17, .blank, at_ 17, at_ 18, .nop⟩,
    ⟨at_ 18, .char ':', at_ 19, .skipLine, .nop⟩,
    ⟨at_ 19, .blank, at_ 19, ⟨.chunked, 0⟩, .nop⟩]

def chunkedCoding : List Row :=
  word .chunked 0 .skipLine ['C', 'H', 'U', 'N', 'K', 'E'] ++
  [⟨⟨.chunked, 6⟩, .char 'D', .skipLine, .skipLine, .chunked⟩]

def digits : List Row :=
  [⟨⟨.lengthDigits, 0⟩, .eol, .fieldStart, ⟨.lengthDigits, 1⟩, .lengthBody⟩,
    ⟨⟨.lengthDigits, 1⟩, .any, ⟨.lengthDigits, 0⟩, ⟨.lengthDigits, 0⟩, .shiftDecimal⟩,
    ⟨⟨.chunkSize, 0⟩, .eol, ⟨.chunkDataEol, 0⟩, ⟨.chunkSize, 1⟩, .lengthChunk⟩,
    ⟨⟨.chunkSize, 1⟩, .any, .chunkStart, .chunkStart, .shiftHex⟩]

def rests : List Row :=
  [⟨⟨.chunkDataEol, 0⟩, .eol, .chunkStart, ⟨.chunkDataEol, 1⟩, .lengthZero⟩,
    ⟨⟨.chunkDataEol, 1⟩, .any, ⟨.chunkDataEol, 0⟩, ⟨.chunkDataEol, 0⟩, .nop⟩,
    ⟨⟨.leadingBlank, 0⟩, .blank, .responseStart, ⟨.leadingBlank, 1⟩, .nop⟩,
    ⟨⟨.leadingBlank, 1⟩, .eol, .responseStart, ⟨.skipLine, 1⟩, .nop⟩,
    ⟨.skipLine, .eol, .fieldStart, ⟨.skipLine, 1⟩, .nop⟩,
    ⟨⟨.skipLine, 1⟩, .any, .skipLine, .skipLine, .nop⟩]

def table : Table where
  rows := (statusLine ++ requestLine ++ contentLength ++ transferEncoding ++ chunkedCoding ++
    digits ++ rests).toArray

theorem size_table : table.size = 90 := by decide

theorem faults_table : table.faults = [] := by decide +kernel

theorem validate_table : table.validate = .ok () := by
  rw [Table.validate, faults_table]

end StreamFraming.Http.Token
