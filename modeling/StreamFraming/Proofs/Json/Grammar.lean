import StreamFraming.Json

/-!
# JSON as it is written

The texts that values have: scalars, and arrays and objects with white space between their tokens.
A string says a text through its escapes; where one of them is half a surrogate pair and the other
half is not next to it, the string is written well but says nothing. Lists are told by what stands
between their commas, so that arrays and objects are lists of one kind (`IsEnclosed`).
-/

namespace StreamFraming.Json

open Lexeme

def IsBlanks (cs : List Char) : Prop := ∀ c ∈ cs, c = ' ' ∨ c = '\t' ∨ c = '\n' ∨ c = '\r'

-- The instances name the one for lists: another one goes through all characters.
instance (cs : List Char) : Decidable (IsBlanks cs) := List.decidableBAll _ cs

/-! ### Numbers -/

def IsDigits (ds : List Char) : Prop := ds ≠ [] ∧ ∀ d ∈ ds, '0' ≤ d ∧ d ≤ '9'

def IsWhole (ds : List Char) : Prop := IsDigits ds ∧ (ds.head? = some '0' → ds.length = 1)

def IsNumeral (n : Nat) (ds : List Char) : Prop := IsWhole ds ∧ Nat.ofDigitChars 10 ds 0 = n

instance (ds : List Char) : Decidable (IsDigits ds) :=
  @instDecidableAnd _ _ inferInstance (List.decidableBAll _ ds)

instance (ds : List Char) : Decidable (IsWhole ds) :=
  inferInstanceAs (Decidable (IsDigits ds ∧ (ds.head? = some '0' → ds.length = 1)))

instance (n : Nat) (ds : List Char) : Decidable (IsNumeral n ds) :=
  inferInstanceAs (Decidable (IsWhole ds ∧ Nat.ofDigitChars 10 ds 0 = n))

inductive IsFraction : List Char → Prop
  | none : IsFraction []
  | digits {ds : List Char} (digits : IsDigits ds) : IsFraction ('.' :: ds)

inductive IsExponent : List Char → Prop
  | none : IsExponent []
  | digits {e : Char} {sign ds : List Char} (letter : e = 'e' ∨ e = 'E')
      (signed : sign = [] ∨ sign = ['+'] ∨ sign = ['-']) (digits : IsDigits ds) :
      IsExponent (e :: (sign ++ ds))

inductive IsNumber : List Char → Prop
  | mk {minus whole fraction exponent : List Char} (signed : minus = [] ∨ minus = ['-'])
      (isWhole : IsWhole whole) (isFraction : IsFraction fraction)
      (isExponent : IsExponent exponent) :
      IsNumber (minus ++ (whole ++ (fraction ++ exponent)))

/-! ### Strings -/

/-- The characters that stand for others behind a backslash. -/
def escapes : List (Char × Char) :=
  [('"', '"'), ('\\', '\\'), ('/', '/'), ('b', '\x08'), ('f', '\x0c'), ('n', '\n'), ('r', '\r'),
    ('t', '\t')]

/-- What may stand between quotes, part by part. -/
inductive IsInside : List Char → List Part → Prop
  | nil : IsInside [] []
  | char {c : Char} {cs : List Char} {ps : List Part} (visible : 0x20 ≤ c.toNat)
      (unquoted : c ≠ '"') (unescaped : c ≠ '\\') (rest : IsInside cs ps) :
      IsInside (c :: cs) (.char c :: ps)
  | escape {e c : Char} {cs : List Char} {ps : List Part} (escape : (e, c) ∈ escapes)
      (rest : IsInside cs ps) : IsInside ('\\' :: e :: cs) (.char c :: ps)
  | unit {h₁ h₂ h₃ h₄ : Char} {n : Nat} {cs : List Char} {ps : List Part}
      (digits : unit? h₁ h₂ h₃ h₄ = some n) (rest : IsInside cs ps) :
      IsInside ('\\' :: 'u' :: h₁ :: h₂ :: h₃ :: h₄ :: cs) (.unit n :: ps)

/-- The first and the last half of a surrogate pair. -/
abbrev IsHigh (n : Nat) : Prop := 0xD800 ≤ n ∧ n < 0xDC00

abbrev IsLow (n : Nat) : Prop := 0xDC00 ≤ n ∧ n < 0xE000

/-- Characters that stand for themselves between quotes. -/
def IsPlain (cs : List Char) : Prop := ∀ c ∈ cs, 0x20 ≤ c.toNat ∧ c ≠ '"' ∧ c ≠ '\\'

instance (cs : List Char) : Decidable (IsPlain cs) := List.decidableBAll _ cs

theorem isInside_plain {cs : List Char} (plain : IsPlain cs) :
    IsInside cs (cs.map .char) := by
  induction cs with
  | nil => exact .nil
  | cons c cs ih =>
    obtain ⟨⟨visible, unquoted, unescaped⟩, plain⟩ := List.forall_mem_cons.mp plain
    exact .char visible unquoted unescaped (ih plain)

/-- The characters that parts make up. -/
inductive Denotes : List Part → List Char → Prop
  | nil : Denotes [] []
  | char {c : Char} {ps : List Part} {cs : List Char} (rest : Denotes ps cs) :
      Denotes (.char c :: ps) (c :: cs)
  | unit {n : Nat} {ps : List Part} {cs : List Char} (whole : ¬ IsHigh n ∧ ¬ IsLow n)
      (rest : Denotes ps cs) : Denotes (.unit n :: ps) (Char.ofNat n :: cs)
  | pair {n m : Nat} {ps : List Part} {cs : List Char} (high : IsHigh n) (low : IsLow m)
      (rest : Denotes ps cs) :
      Denotes (.unit n :: .unit m :: ps)
        (Char.ofNat (0x10000 + (n - 0xD800) * 0x400 + (m - 0xDC00)) :: cs)

theorem denotes_chars (cs : List Char) : Denotes (cs.map .char) cs := by
  induction cs with
  | nil => exact .nil
  | cons c cs ih => exact .char ih

/-- A string, and the text it says, if it says one. -/
inductive IsString : Option String → List Char → Prop
  | text {inside : List Char} {ps : List Part} {text : String} (isInside : IsInside inside ps)
      (denotes : Denotes ps text.toList) : IsString (some text) ('"' :: (inside ++ ['"']))
  | silent {inside : List Char} {ps : List Part} (isInside : IsInside inside ps)
      (denotes : ∀ cs, ¬ Denotes ps cs) : IsString none ('"' :: (inside ++ ['"']))

theorem isString_plain {text : String} (plain : IsPlain text.toList) :
    IsString (some text) ('"' :: (text.toList ++ ['"'])) :=
  .text (isInside_plain plain) (denotes_chars text.toList)

/-! ### Lists -/

section

variable {ι : Type} (IsElement : ι → List Char → Prop)

inductive IsSeparated : List ι → List Char → Prop
  | last {x : ι} {cs : List Char} (element : IsElement x cs) : IsSeparated [x] cs
  | cons {x : ι} {xs : List ι} {cs rest : List Char} (element : IsElement x cs)
      (more : IsSeparated xs rest) : IsSeparated (x :: xs) (cs ++ ',' :: rest)

inductive IsEnclosed (opened closed : Char) : List ι → List Char → Prop
  | empty {blanks : List Char} (isBlanks : IsBlanks blanks) :
      IsEnclosed opened closed [] (opened :: (blanks ++ [closed]))
  | elements {xs : List ι} {cs : List Char} (separated : IsSeparated IsElement xs cs) :
      IsEnclosed opened closed xs (opened :: (cs ++ [closed]))

end

/-- The text of a value with white space around it. -/
inductive IsItem : List Char → List Char → Prop
  | mk {before value after : List Char} (blank : IsBlanks before) (blank' : IsBlanks after) :
      IsItem value (before ++ (value ++ after))

/-- A name, which may say nothing, and the text of a value. -/
inductive IsMember : Option String × List Char → List Char → Prop
  | mk {before name after value item : List Char} {text? : Option String}
      (blank : IsBlanks before) (isString : IsString text? name) (blank' : IsBlanks after)
      (isItem : IsItem value item) :
      IsMember (text?, value) (before ++ (name ++ (after ++ ':' :: item)))

theorem isItem_self (cs : List Char) : IsItem cs cs := by
  simpa using @IsItem.mk [] cs [] (List.forall_mem_nil _) (List.forall_mem_nil _)

theorem isMember_plain {blanks : List Char} (isBlanks : IsBlanks blanks) {name : String}
    (plain : IsPlain name.toList) (value : List Char) :
    IsMember (some name, value) (blanks ++ '"' :: (name.toList ++ '"' :: ':' :: value)) := by
  simpa using
    IsMember.mk isBlanks (isString_plain plain) (List.forall_mem_nil _) (isItem_self value)

abbrev IsArray : List (List Char) → List Char → Prop := IsEnclosed IsItem '[' ']'

abbrev IsObject : List (Option String × List Char) → List Char → Prop :=
  IsEnclosed IsMember '\x7b' '\x7d'

/-! ### Values -/

def boolText : Bool → List Char
  | true => ['t', 'r', 'u', 'e']
  | false => ['f', 'a', 'l', 's', 'e']

inductive IsValue : List Char → Prop
  | null : IsValue ['n', 'u', 'l', 'l']
  | bool (b : Bool) : IsValue (boolText b)
  | number {cs : List Char} (isNumber : IsNumber cs) : IsValue cs
  | text {text? : Option String} {cs : List Char} (isString : IsString text? cs) : IsValue cs
  | array {items : List (List Char)} {cs : List Char} (isArray : IsArray items cs)
      (values : ∀ item ∈ items, IsValue item) : IsValue cs
  | object {members : List (Option String × List Char)} {cs : List Char}
      (isObject : IsObject members cs) (values : ∀ m ∈ members, IsValue m.2) : IsValue cs

end StreamFraming.Json
