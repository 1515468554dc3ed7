import StreamFraming.Text.Listing

/-!
# Tokens of HTTP framing

The few words that decide where an HTTP message ends are recognised by a table of rows, grouped in
blocks. A row says which byte it accepts, where the machine goes then and what it notes, and at
which row to try again otherwise. Bytes are folded first: letters to upper case, a tab to a space.
-/

namespace StreamFraming.Http

def lineFeed : UInt8 := 0x0A

def space : UInt8 := 0x20

def carriageReturn : UInt8 := 0x0D

def tab : UInt8 := 0x09

/-- A letter in upper case, a tab as a space, any other byte as it is. -/
def fold (c : UInt8) : UInt8 :=
  if c = tab then space else if 0x61 ≤ c ∧ c ≤ 0x7A then c - 0x20 else c

namespace Token

inductive Block where
  | statusLine
  | requestLine
  | contentLength
  | transferEncoding
  | chunked
  | lengthDigits
  | chunkSize
  | chunkDataEol
  | leadingBlank
  | skipLine
  deriving DecidableEq, Repr

namespace Block

def all : List Block :=
  [statusLine, requestLine, contentLength, transferEncoding, chunked, lengthDigits, chunkSize,
    chunkDataEol, leadingBlank, skipLine]

def size : Block → Nat
  | statusLine => 18
  | requestLine => 18
  | contentLength => 17
  | transferEncoding => 20
  | chunked => 7
  | lengthDigits | chunkSize | chunkDataEol | leadingBlank | skipLine => 2

def offset (b : Block) : Nat := (all.takeWhile (· != b)).foldl (fun n b => n + b.size) 0

def label : Block → String
  | statusLine => "StatusLine"
  | requestLine => "RequestLine"
  | contentLength => "ContentLength"
  | transferEncoding => "TransferEncoding"
  | chunked => "Chunked"
  | lengthDigits => "LengthDigits"
  | chunkSize => "ChunkSize"
  | chunkDataEol => "ChunkDataEol"
  | leadingBlank => "LeadingBlank"
  | skipLine => "SkipLine"

end Block

structure Position where
  block : Block
  step : Nat
  deriving DecidableEq, Repr

namespace Position

def responseStart : Position := ⟨.statusLine, 0⟩

def requestStart : Position := ⟨.requestLine, 0⟩

def chunkStart : Position := ⟨.chunkSize, 0⟩

def skipLine : Position := ⟨.skipLine, 0⟩

def fieldStart : Position := ⟨.contentLength, 0⟩

def describe (p : Position) : String :=
  Text.Listing.record "State" [("block", p.block.label), ("step", toString p.step)]

end Position

inductive Pattern where
  | byte (c : UInt8)
  | blank
  | eol
  | any
  deriving DecidableEq, Repr

namespace Pattern

def char (c : Char) : Pattern := .byte c.toUInt8

def accepts : Pattern → UInt8 → Bool
  | .byte x, c => c == x
  | .blank, c => c == space
  | .eol, c => c == lineFeed
  | .any, _ => true

end Pattern

inductive Action where
  | nop
  /-- The message has no body, or its response has none. -/
  | noBody
  | post
  | simple
  | version10
  | version11
  | response
  | shiftDecimal
  | shiftHex
  | lengthBody
  | lengthChunk
  | lengthZero
  | chunked
  deriving DecidableEq, Repr

structure Row where
  place : Position
  accepts : Pattern
  next : Position
  /-- Where to try a byte that is not accepted. -/
  other : Position
  action : Action := .nop
  deriving DecidableEq, Repr

end Token

end StreamFraming.Http
