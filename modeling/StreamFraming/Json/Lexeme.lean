import StreamFraming.Text.Hex

/-!
# Lexemes of JSON

JSON text is cut into brackets, separators and scalars; white space between them falls away. Numbers
keep their value only when they are written as plain digits and fit in 64 bits. Strings keep their
text only when their escapes make up characters: a surrogate that stands alone makes none.
-/

namespace StreamFraming.Json

inductive Lexeme where
  | openArray
  | closeArray
  | openObject
  | closeObject
  | comma
  | colon
  | null
  | bool (b : Bool)
  /-- A number, with its value if it is written as plain digits and fits in 64 bits. -/
  | number (natural? : Option Nat)
  | text (text? : Option String)
  deriving DecidableEq, Repr

namespace Lexeme

def isBlank (c : Char) : Bool := c == ' ' || c == '\t' || c == '\n' || c == '\r'

def isDigit (c : Char) : Bool := decide ('0' ≤ c ∧ c ≤ '9')

/-! ### Strings -/

/-- A part of a string: a character, or a 16-bit unit that an escape gives by its number. -/
inductive Part where
  | char (c : Char)
  | unit (n : Nat)
  deriving DecidableEq, Repr

def escaped? : Char → Option Char
  | '"' => some '"'
  | '\\' => some '\\'
  | '/' => some '/'
  | 'b' => some '\x08'
  | 'f' => some '\x0c'
  | 'n' => some '\n'
  | 'r' => some '\r'
  | 't' => some '\t'
  | _ => none

def unit? (a b c d : Char) : Option Nat := do
  let a ← Text.Hex.value? a
  let b ← Text.Hex.value? b
  let c ← Text.Hex.value? c
  let d ← Text.Hex.value? d
  some (((a * 16 + b) * 16 + c) * 16 + d)

/-- The parts of a string behind its opening quote, after the parts `done` (latest first), and what
follows the closing quote. -/
def parts? (done : List Part) : List Char → Option (List Part × List Char)
  | [] => none
  | '"' :: cs => some (done.reverse, cs)
  | '\\' :: 'u' :: a :: b :: c :: d :: cs =>
    match unit? a b c d with
    | some n => parts? (.unit n :: done) cs
    | none => none
  | '\\' :: e :: cs =>
    match escaped? e with
    | some c => parts? (.char c :: done) cs
    | none => none
  | c :: cs => if c.toNat < 0x20 ∨ c = '\\' then none else parts? (.char c :: done) cs

/-- The characters that parts make up, behind the characters `done` (latest first). A high unit
needs a low one behind it, and a low unit a high one in front of it. -/
def assembleFrom? (done : List Char) : List Part → Option (List Char)
  | [] => some done.reverse
  | .char c :: ps => assembleFrom? (c :: done) ps
  | .unit n :: .unit m :: ps =>
    if 0xD800 ≤ n ∧ n < 0xDC00 then
      if 0xDC00 ≤ m ∧ m < 0xE000 then
        assembleFrom? (Char.ofNat (0x10000 + (n - 0xD800) * 0x400 + (m - 0xDC00)) :: done) ps
      else none
    else if 0xDC00 ≤ n ∧ n < 0xE000 then none
    else assembleFrom? (Char.ofNat n :: done) (.unit m :: ps)
  | .unit n :: ps =>
    if 0xD800 ≤ n ∧ n < 0xE000 then none else assembleFrom? (Char.ofNat n :: done) ps

def assemble? (ps : List Part) : Option String := (assembleFrom? [] ps).map String.ofList

theorem length_parts? {done ps : List Part} {cs rest : List Char}
    (h : parts? done cs = some (ps, rest)) : rest.length < cs.length := by
  fun_induction parts? done cs with
  | case1 | case4 | case6 | case7 => cases h
  | case2 =>
    cases h
    exact Nat.lt_succ_self _
  | case3 _ _ _ _ _ _ _ _ ih | case5 _ _ _ _ _ _ ih | case8 _ _ _ _ _ _ _ ih =>
    have := ih h
    simp only [List.length_cons]
    omega

/-! ### Numbers -/

def pushDigit? (n : Nat) (c : Char) : Option Nat :=
  let n := n * 10 + (c.toNat - '0'.toNat)
  if n < UInt64.size then some n else none

def natural? (ds : List Char) : Option Nat := ds.foldlM pushDigit? 0

def digits? (cs : List Char) : Option (List Char × List Char) :=
  match cs.takeWhile isDigit with
  | [] => none
  | d :: ds => some (d :: ds, cs.dropWhile isDigit)

def afterFraction? : List Char → Option (Bool × List Char)
  | '.' :: cs => (digits? cs).map fun (_, rest) => (true, rest)
  | cs => some (false, cs)

def afterSign : List Char → List Char
  | '+' :: cs => cs
  | '-' :: cs => cs
  | cs => cs

def afterExponent? : List Char → Option (Bool × List Char)
  | 'e' :: cs => (digits? (afterSign cs)).map fun (_, rest) => (true, rest)
  | 'E' :: cs => (digits? (afterSign cs)).map fun (_, rest) => (true, rest)
  | cs => some (false, cs)

def unsigned? (cs : List Char) : Option (Option Nat × List Char) := do
  let (ds, cs) ← digits? cs
  if ds.head? = some '0' ∧ ds.length ≠ 1 then none
  let (fraction, cs) ← afterFraction? cs
  let (exponent, cs) ← afterExponent? cs
  some (if fraction || exponent then none else natural? ds, cs)

def number? : List Char → Option (Option Nat × List Char)
  | '-' :: cs => (unsigned? cs).map fun (_, rest) => (none, rest)
  | cs => unsigned? cs

theorem length_digits? {cs ds rest : List Char} (h : digits? cs = some (ds, rest)) :
    rest.length < cs.length := by
  unfold digits? at h
  have whole := congrArg List.length (List.takeWhile_append_dropWhile (p := isDigit) (l := cs))
  rw [List.length_append] at whole
  split at h
  · cases h
  · rename_i front
    cases h
    rw [front, List.length_cons] at whole
    omega

theorem length_afterFraction? {cs rest : List Char} {b : Bool}
    (h : afterFraction? cs = some (b, rest)) : rest.length ≤ cs.length := by
  unfold afterFraction? at h
  split at h
  · simp only [Option.map_eq_some_iff, Prod.mk.injEq, Prod.exists] at h
    obtain ⟨_, _, found, _, rfl⟩ := h
    have := length_digits? found
    rw [List.length_cons]
    omega
  · cases h
    exact Nat.le_refl _

theorem length_afterSign (cs : List Char) : (afterSign cs).length ≤ cs.length := by
  unfold afterSign
  split <;> simp

theorem length_afterExponent? {cs rest : List Char} {b : Bool}
    (h : afterExponent? cs = some (b, rest)) : rest.length ≤ cs.length := by
  unfold afterExponent? at h
  split at h
  iterate 2
    · rename_i cs
      simp only [Option.map_eq_some_iff, Prod.mk.injEq, Prod.exists] at h
      obtain ⟨_, _, found, _, rfl⟩ := h
      have := length_digits? found
      have := length_afterSign cs
      rw [List.length_cons]
      omega
  · cases h
    exact Nat.le_refl _

theorem length_unsigned? {cs rest : List Char} {n : Option Nat}
    (h : unsigned? cs = some (n, rest)) : rest.length < cs.length := by
  simp only [unsigned?, Option.bind_eq_bind, Option.bind_eq_some_iff, Prod.exists] at h
  obtain ⟨ds, cs₁, front, h⟩ := h
  have := length_digits? front
  split at h
  · cases h
  · simp only [Option.bind_eq_some_iff, Prod.exists] at h
    obtain ⟨_, _, fraction, _, _, exponent, h⟩ := h
    cases h
    have := length_afterFraction? fraction
    have := length_afterExponent? exponent
    omega

theorem length_number? {cs rest : List Char} {n : Option Nat}
    (h : number? cs = some (n, rest)) : rest.length < cs.length := by
  unfold number? at h
  split at h
  · simp only [Option.map_eq_some_iff, Prod.mk.injEq, Prod.exists] at h
    obtain ⟨_, _, found, _, rfl⟩ := h
    have := length_unsigned? found
    rw [List.length_cons]
    omega
  · exact length_unsigned? h

/-! ### All lexemes -/

def next? : List Char → Option (Lexeme × List Char)
  | '[' :: cs => some (.openArray, cs)
  | ']' :: cs => some (.closeArray, cs)
  | '\x7b' :: cs => some (.openObject, cs)
  | '\x7d' :: cs => some (.closeObject, cs)
  | ',' :: cs => some (.comma, cs)
  | ':' :: cs => some (.colon, cs)
  | 'n' :: 'u' :: 'l' :: 'l' :: cs => some (.null, cs)
  | 't' :: 'r' :: 'u' :: 'e' :: cs => some (.bool true, cs)
  | 'f' :: 'a' :: 'l' :: 's' :: 'e' :: cs => some (.bool false, cs)
  | '"' :: cs => (parts? [] cs).map fun (ps, rest) => (.text (assemble? ps), rest)
  | cs => (number? cs).map fun (n, rest) => (.number n, rest)

theorem length_next? {cs rest : List Char} {x : Lexeme} (h : next? cs = some (x, rest)) :
    rest.length < cs.length := by
  unfold next? at h
  split at h
  case h_10 =>
    simp only [Option.map_eq_some_iff, Prod.mk.injEq, Prod.exists] at h
    obtain ⟨_, _, found, _, rfl⟩ := h
    have := length_parts? found
    rw [List.length_cons]
    omega
  case h_11 =>
    simp only [Option.map_eq_some_iff, Prod.mk.injEq, Prod.exists] at h
    obtain ⟨_, _, found, _, rfl⟩ := h
    exact length_number? found
  all_goals
    cases h
    simp only [List.length_cons]
    omega

def readFrom? (done : List Lexeme) (cs : List Char) : Option (List Lexeme) :=
  match cs with
  | [] => some done.reverse
  | c :: cs =>
    if isBlank c then readFrom? done cs
    else
      match h : next? (c :: cs) with
      | some (x, rest) =>
        have := length_next? h
        readFrom? (x :: done) rest
      | none => none
termination_by cs.length
decreasing_by all_goals simp only [List.length_cons] at *; omega

def read? (cs : List Char) : Option (List Lexeme) := readFrom? [] cs

end Lexeme

end StreamFraming.Json
