/-!
# HTTP message flags

What has been learnt about the message in progress. Flags combine as sets do; `bits` is their packed
form.
-/

namespace StreamFraming.Http

structure Flags where
  request : Bool := false
  response : Bool := false
  hasLength : Bool := false
  chunked : Bool := false
  /-- A HEAD request, or a response that has no body. -/
  noBody : Bool := false
  /-- Chunk sizes and chunk data are being read; line ends end no header field. -/
  inChunks : Bool := false
  simple : Bool := false
  version10 : Bool := false
  version11 : Bool := false
  error : Bool := false
  post : Bool := false
  seenEol : Bool := false
  deriving DecidableEq, Repr

namespace Flags

def none : Flags := {}

def zipWith (f : Bool → Bool → Bool) (a b : Flags) : Flags where
  request := f a.request b.request
  response := f a.response b.response
  hasLength := f a.hasLength b.hasLength
  chunked := f a.chunked b.chunked
  noBody := f a.noBody b.noBody
  inChunks := f a.inChunks b.inChunks
  simple := f a.simple b.simple
  version10 := f a.version10 b.version10
  version11 := f a.version11 b.version11
  error := f a.error b.error
  post := f a.post b.post
  seenEol := f a.seenEol b.seenEol

def union (a b : Flags) : Flags := zipWith (· || ·) a b

def inter (a b : Flags) : Flags := zipWith (· && ·) a b

def diff (a b : Flags) : Flags := zipWith (fun x y => x && !y) a b

def contains (a b : Flags) : Bool := inter a b == b

def overlaps (a b : Flags) : Bool := inter a b != none

def toList (f : Flags) : List Bool :=
  [f.request, f.response, f.hasLength, f.chunked, f.noBody, f.inChunks, f.simple, f.version10,
    f.version11, f.error, f.post, f.seenEol]

def bits (f : Flags) : Nat :=
  f.toList.foldr (fun b rest => b.toNat + 2 * rest) 0

end Flags

end StreamFraming.Http
