import StreamFraming.Proofs.Json.Grammar

/-!
# Reading JSON that is written well

A text that the grammar gives is cut into lexemes whatever follows it (`Lexed`), and its lexemes
make up one value inside any frames (`ReadsAs`). A number alone goes on with what follows, so what
follows must not begin like the rest of one (`Stops`); what follows a value in an array or an object
never does.
-/

namespace StreamFraming.Json

open Lexeme

/-! ### Strings -/

theorem parts?_char {c : Char} (visible : 0x20 ≤ c.toNat) (unquoted : c ≠ '"')
    (unescaped : c ≠ '\\') (done : List Part) (cs : List Char) :
    parts? done (c :: cs) = parts? (.char c :: done) cs := by
  rw [parts?]
  · exact if_neg fun h => h.elim (Nat.not_lt.mpr visible) unescaped
  · exact fun h => unquoted h
  · rintro _ _ _ _ _ h
    exact absurd h unescaped
  · rintro _ _ h
    exact absurd h unescaped

theorem parts?_escape {e c : Char} (escape : (e, c) ∈ escapes) (done : List Part)
    (cs : List Char) : parts? done ('\\' :: e :: cs) = parts? (.char c :: done) cs := by
  simp only [escapes, List.mem_cons, Prod.mk.injEq, List.not_mem_nil, or_false] at escape
  rcases escape with ⟨rfl, rfl⟩ | ⟨rfl, rfl⟩ | ⟨rfl, rfl⟩ | ⟨rfl, rfl⟩ | ⟨rfl, rfl⟩ | ⟨rfl, rfl⟩ |
    ⟨rfl, rfl⟩ | ⟨rfl, rfl⟩ <;> rfl

theorem parts?_unit {h₁ h₂ h₃ h₄ : Char} {n : Nat} (digits : unit? h₁ h₂ h₃ h₄ = some n)
    (done : List Part) (cs : List Char) :
    parts? done ('\\' :: 'u' :: h₁ :: h₂ :: h₃ :: h₄ :: cs) = parts? (.unit n :: done) cs := by
  rw [parts?, digits]

theorem parts?_inside {inside : List Char} {ps : List Part} (isInside : IsInside inside ps)
    (done : List Part) (rest : List Char) :
    parts? done (inside ++ '"' :: rest) = some (done.reverse ++ ps, rest) := by
  induction isInside generalizing done with
  | nil => simp [parts?]
  | char visible unquoted unescaped _ ih =>
    rw [List.cons_append, parts?_char visible unquoted unescaped, ih]
    simp
  | escape escape _ ih =>
    rw [List.cons_append, List.cons_append, parts?_escape escape, ih]
    simp
  | unit digits _ ih =>
    simp only [List.cons_append]
    rw [parts?_unit digits, ih]
    simp

theorem assembleFrom?_unit {n : Nat} (whole : ¬ IsHigh n ∧ ¬ IsLow n) (done : List Char)
    (ps : List Part) :
    assembleFrom? done (.unit n :: ps) = assembleFrom? (Char.ofNat n :: done) ps := by
  obtain ⟨high, low⟩ := whole
  have neither : ¬ (0xD800 ≤ n ∧ n < 0xE000) := by
    rintro ⟨first, last⟩
    exact low ⟨Nat.not_lt.mp fun h => high ⟨first, h⟩, last⟩
  cases ps with
  | nil => simp only [assembleFrom?, if_neg neither]
  | cons p ps =>
    cases p with
    | char c => simp only [assembleFrom?, if_neg neither]
    | unit m => conv => lhs; rw [assembleFrom?, if_neg high, if_neg low]

theorem assembleFrom?_of_denotes {ps : List Part} {cs : List Char} (denotes : Denotes ps cs)
    (done : List Char) : assembleFrom? done ps = some (done.reverse ++ cs) := by
  induction denotes generalizing done with
  | nil => simp [assembleFrom?]
  | char _ ih => simp [assembleFrom?, ih]
  | unit whole _ ih =>
    rw [assembleFrom?_unit whole, ih]
    simp
  | pair high low _ ih =>
    rw [assembleFrom?, if_pos high, if_pos low, ih]
    simp

theorem denotes_of_assembleFrom? {ps : List Part} {done cs : List Char}
    (made : assembleFrom? done ps = some cs) : ∃ more, Denotes ps more := by
  fun_induction assembleFrom? done ps with
  | case1 => exact ⟨_, .nil⟩
  | case2 done c ps ih =>
    obtain ⟨more, denotes⟩ := ih made
    exact ⟨_, .char denotes⟩
  | case3 done n m ps high low ih =>
    obtain ⟨more, denotes⟩ := ih made
    exact ⟨_, .pair high low denotes⟩
  | case4 | case5 | case7 => cases made
  | case6 done n m ps high low ih =>
    obtain ⟨more, denotes⟩ := ih made
    exact ⟨_, .unit ⟨high, low⟩ denotes⟩
  | case8 done n ps _ neither ih =>
    obtain ⟨more, denotes⟩ := ih made
    refine ⟨_, .unit ⟨fun high => neither ⟨high.1, ?_⟩, fun low => neither ⟨?_, low.2⟩⟩ denotes⟩
    · exact Nat.lt_trans high.2 (by decide)
    · exact Nat.le_trans (by decide) low.1

/-- The text that parts make up is what they denote. -/
theorem assemble?_of_denotes {ps : List Part} {text : String} (denotes : Denotes ps text.toList) :
    assemble? ps = some text := by
  rw [assemble?, assembleFrom?_of_denotes denotes]
  simp

theorem assemble?_of_silent {ps : List Part} (silent : ∀ cs, ¬ Denotes ps cs) :
    assemble? ps = none := by
  rw [assemble?, Option.map_eq_none_iff, Option.eq_none_iff_forall_ne_some]
  intro cs made
  obtain ⟨more, denotes⟩ := denotes_of_assembleFrom? made
  exact silent more denotes

/-! ### Numbers -/

/-- What does not begin with a digit. -/
def EndsDigits (cs : List Char) : Prop := ∀ c ∈ cs.head?, isDigit c = false

theorem isDigit_of_mem {ds : List Char} (digits : IsDigits ds) : ∀ d ∈ ds, isDigit d = true :=
  fun d inDigits => decide_eq_true (digits.2 d inDigits)

theorem digits?_append {ds rest : List Char} (digits : IsDigits ds) (ends : EndsDigits rest) :
    digits? (ds ++ rest) = some (ds, rest) := by
  have ended : rest.takeWhile isDigit = [] ∧ rest.dropWhile isDigit = rest := by
    cases rest with
    | nil => exact ⟨rfl, rfl⟩
    | cons c rest =>
      have other := ends c rfl
      exact ⟨by rw [List.takeWhile_cons, other]; rfl, by rw [List.dropWhile_cons, other]; rfl⟩
  rw [digits?, List.takeWhile_append_of_pos (isDigit_of_mem digits),
    List.dropWhile_append_of_pos (isDigit_of_mem digits), ended.1, ended.2, List.append_nil]
  cases ds with
  | nil => exact absurd rfl digits.1
  | cons d ds => rfl

theorem afterFraction?_append {fraction rest : List Char} (isFraction : IsFraction fraction)
    (ends : EndsDigits rest) (noPoint : ∀ c ∈ rest.head?, c ≠ '.') :
    afterFraction? (fraction ++ rest) = some (!fraction.isEmpty, rest) := by
  cases isFraction with
  | none =>
    rw [List.nil_append, afterFraction?]
    · rfl
    · rintro cs rfl
      exact noPoint '.' rfl rfl
  | digits digits =>
    rw [List.cons_append, afterFraction?, digits?_append digits ends]
    rfl

theorem afterSign_digits {ds : List Char} (digits : IsDigits ds) (rest : List Char) :
    afterSign (ds ++ rest) = ds ++ rest := by
  cases ds with
  | nil => exact absurd rfl digits.1
  | cons d ds =>
    have digit := digits.2 d List.mem_cons_self
    rw [List.cons_append, afterSign]
    · rintro cs ⟨rfl, -⟩
      exact absurd digit (by decide)
    · rintro cs ⟨rfl, -⟩
      exact absurd digit (by decide)

theorem afterExponent?_append {exponent rest : List Char} (isExponent : IsExponent exponent)
    (ends : EndsDigits rest) (noLetter : ∀ c ∈ rest.head?, c ≠ 'e' ∧ c ≠ 'E') :
    afterExponent? (exponent ++ rest) = some (!exponent.isEmpty, rest) := by
  cases isExponent with
  | none =>
    rw [List.nil_append, afterExponent?]
    · rfl
    · rintro cs rfl
      exact (noLetter 'e' rfl).1 rfl
    · rintro cs rfl
      exact (noLetter 'E' rfl).2 rfl
  | @digits e sign ds letter signed digits =>
    have unsigned : afterSign (sign ++ (ds ++ rest)) = ds ++ rest := by
      rcases signed with rfl | rfl | rfl
      · exact afterSign_digits digits rest
      · rfl
      · rfl
    rw [List.cons_append, List.append_assoc]
    rcases letter with rfl | rfl <;>
      rw [afterExponent?, unsigned, digits?_append digits ends] <;> rfl

/-- What a number does not go on with. -/
def Stops (cs : List Char) : Prop :=
  ∀ c ∈ cs.head?, isDigit c = false ∧ c ≠ '.' ∧ c ≠ 'e' ∧ c ≠ 'E'

theorem IsExponent.stops {exponent rest : List Char} (isExponent : IsExponent exponent)
    (stops : Stops rest) :
    EndsDigits (exponent ++ rest) ∧ ∀ c ∈ (exponent ++ rest).head?, c ≠ '.' := by
  cases isExponent with
  | none => exact ⟨fun c first => (stops c first).1, fun c first => (stops c first).2.1⟩
  | digits letter => rcases letter with rfl | rfl <;> constructor <;> rintro c ⟨⟩ <;> decide

theorem IsFraction.endsDigits {fraction rest : List Char} (isFraction : IsFraction fraction)
    (ends : EndsDigits rest) : EndsDigits (fraction ++ rest) := by
  cases isFraction with
  | none => exact ends
  | digits => rintro c ⟨⟩; decide

theorem unsigned?_append {whole fraction exponent rest : List Char} (isWhole : IsWhole whole)
    (isFraction : IsFraction fraction) (isExponent : IsExponent exponent) (stops : Stops rest) :
    unsigned? (whole ++ (fraction ++ (exponent ++ rest))) =
      some (if fraction.isEmpty && exponent.isEmpty then natural? whole else none, rest) := by
  obtain ⟨ends, noPoint⟩ := isExponent.stops stops
  have afterFraction := afterFraction?_append isFraction ends noPoint
  have afterExponent := afterExponent?_append isExponent
    (fun c first => (stops c first).1) (fun c first => (stops c first).2.2)
  have needed : ¬ (whole.head? = some '0' ∧ whole.length ≠ 1) :=
    fun ⟨zero, more⟩ => more (isWhole.2 zero)
  simp only [unsigned?, digits?_append isWhole.1 (isFraction.endsDigits ends), Option.bind_eq_bind,
    Option.bind_some, if_neg needed, afterFraction, afterExponent]
  cases fraction.isEmpty <;> cases exponent.isEmpty <;> rfl

/-- How a number begins. -/
theorem IsNumber.begins {cs : List Char} (isNumber : IsNumber cs) :
    ∃ c ds, cs = c :: ds ∧ (c = '-' ∨ isDigit c = true) := by
  obtain ⟨signed, ⟨digits, -⟩, -, -⟩ := isNumber
  rename_i minus whole fraction exponent
  rcases signed with rfl | rfl
  · cases whole with
    | nil => exact absurd rfl digits.1
    | cons d ds => exact ⟨d, _, rfl, .inr (isDigit_of_mem digits d List.mem_cons_self)⟩
  · exact ⟨'-', _, rfl, .inl rfl⟩

theorem number?_digits {whole : List Char} (digits : IsDigits whole) (rest : List Char) :
    number? (whole ++ rest) = unsigned? (whole ++ rest) := by
  cases whole with
  | nil => exact absurd rfl digits.1
  | cons d ds =>
    have digit := digits.2 d List.mem_cons_self
    rw [List.cons_append, number?]
    rintro cs ⟨rfl, -⟩
    exact absurd digit (by decide)

theorem number?_append {cs : List Char} (isNumber : IsNumber cs) :
    ∃ n, ∀ rest, Stops rest → number? (cs ++ rest) = some (n, rest) := by
  obtain @⟨minus, whole, fraction, exponent, signed, isWhole, isFraction, isExponent⟩ := isNumber
  have unsigned {rest : List Char} (stops : Stops rest) :=
    unsigned?_append isWhole isFraction isExponent stops
  rcases signed with rfl | rfl
  · refine ⟨if fraction.isEmpty && exponent.isEmpty then natural? whole else none,
      fun rest stops => ?_⟩
    simp only [List.nil_append, List.append_assoc]
    rw [number?_digits isWhole.1, unsigned stops]
  · refine ⟨none, fun rest stops => ?_⟩
    simp only [List.append_assoc]
    rw [List.singleton_append, number?, unsigned stops]
    rfl

theorem foldlM_pushDigit? {ds : List Char} {n : Nat}
    (small : Nat.ofDigitChars 10 ds n < UInt64.size) :
    ds.foldlM pushDigit? n = some (Nat.ofDigitChars 10 ds n) := by
  induction ds generalizing n with
  | nil => simp
  | cons d ds ih =>
    rw [Nat.ofDigitChars_cons] at small ⊢
    have more : n * 10 + (d.toNat - '0'.toNat) ≤
        Nat.ofDigitChars 10 ds (10 * n + (d.toNat - '0'.toNat)) := by
      rw [Nat.ofDigitChars_eq_ofDigitChars_zero, Nat.mul_comm n]
      exact Nat.le_add_right_of_le (Nat.le_mul_of_pos_left _ (Nat.pow_pos (by decide)))
    rw [List.foldlM_cons, pushDigit?]
    simp only [if_pos (Nat.lt_of_le_of_lt more small)]
    rw [Nat.mul_comm n]
    exact ih small

theorem number?_numeral {n : Nat} {ds rest : List Char} (isNumeral : IsNumeral n ds)
    (small : n < UInt64.size) (stops : Stops rest) :
    number? (ds ++ rest) = some (some n, rest) := by
  obtain ⟨isWhole, value⟩ := isNumeral
  have unsigned := unsigned?_append isWhole .none .none stops
  rw [List.nil_append, List.nil_append] at unsigned
  rw [number?_digits isWhole.1, unsigned, natural?, foldlM_pushDigit? (by rwa [value]), value]
  rfl

/-! ### Lexemes -/

theorem readFrom?_blank {c : Char} (blank : isBlank c = true) (done : List Lexeme)
    (cs : List Char) : readFrom? done (c :: cs) = readFrom? done cs := by
  rw [readFrom?, if_pos blank]

theorem readFrom?_next {c : Char} {cs rest : List Char} {x : Lexeme}
    (solid : isBlank c = false) (next : next? (c :: cs) = some (x, rest)) (done : List Lexeme) :
    readFrom? done (c :: cs) = readFrom? (x :: done) rest := by
  rw [readFrom?, if_neg (by rw [solid]; exact Bool.false_ne_true)]
  split <;> rename_i found <;> rw [next] at found <;> cases found
  rfl

/-- The text is cut into lexemes, whatever follows that does not go on with a number. -/
def Lexed (cs : List Char) (xs : List Lexeme) : Prop :=
  ∀ done rest, Stops rest → readFrom? done (cs ++ rest) = readFrom? (xs.reverse ++ done) rest

/-- A text that does not go on with a number, in front of one that does not. -/
def Closes (cs : List Char) : Prop := ∀ rest, Stops rest → Stops (cs ++ rest)

theorem lexed_nil : Lexed [] [] := fun _ _ _ => rfl

theorem Lexed.append {cs ds : List Char} {xs ys : List Lexeme} (first : Lexed cs xs)
    (next : Lexed ds ys) (closes : Closes ds) : Lexed (cs ++ ds) (xs ++ ys) := by
  intro done rest stops
  rw [List.append_assoc, first done _ (closes rest stops), next _ rest stops,
    List.reverse_append, List.append_assoc]

theorem isBlank_iff {c : Char} :
    isBlank c = true ↔ c = ' ' ∨ c = '\t' ∨ c = '\n' ∨ c = '\r' := by
  simp [isBlank, or_assoc]

theorem Lexed.blanks {blanks cs : List Char} {xs : List Lexeme} (isBlanks : IsBlanks blanks)
    (lexed : Lexed cs xs) : Lexed (blanks ++ cs) xs := by
  induction blanks with
  | nil => exact lexed
  | cons c blanks ih =>
    obtain ⟨blank, rest⟩ := List.forall_mem_cons.mp isBlanks
    intro done more stops
    rw [List.cons_append, List.cons_append, readFrom?_blank (isBlank_iff.mpr blank)]
    exact ih rest done more stops

/-- A character that is a lexeme by itself. -/
def IsMark (c : Char) (x : Lexeme) : Prop :=
  isBlank c = false ∧ ∀ cs, next? (c :: cs) = some (x, cs)

theorem Lexed.mark {c : Char} {x : Lexeme} {cs : List Char} {xs : List Lexeme} (mark : IsMark c x)
    (lexed : Lexed cs xs) : Lexed (c :: cs) (x :: xs) := by
  intro done rest stops
  rw [List.cons_append, readFrom?_next mark.1 (mark.2 _), lexed _ rest stops, List.reverse_cons,
    List.append_assoc, List.singleton_append]

theorem isMark_openArray : IsMark '[' .openArray := ⟨rfl, fun _ => rfl⟩

theorem isMark_closeArray : IsMark ']' .closeArray := ⟨rfl, fun _ => rfl⟩

theorem isMark_openObject : IsMark '\x7b' .openObject := ⟨rfl, fun _ => rfl⟩

theorem isMark_closeObject : IsMark '\x7d' .closeObject := ⟨rfl, fun _ => rfl⟩

theorem isMark_comma : IsMark ',' .comma := ⟨rfl, fun _ => rfl⟩

theorem isMark_colon : IsMark ':' .colon := ⟨rfl, fun _ => rfl⟩

theorem closes_nil : Closes [] := fun _ stops => stops

theorem closes_cons {c : Char} (stops : isDigit c = false ∧ c ≠ '.' ∧ c ≠ 'e' ∧ c ≠ 'E')
    (cs : List Char) : Closes (c :: cs) := by
  rintro rest - x ⟨⟩
  exact stops

theorem Closes.blanks {blanks cs : List Char} (isBlanks : IsBlanks blanks) (closes : Closes cs) :
    Closes (blanks ++ cs) := by
  cases blanks with
  | nil => exact closes
  | cons c blanks =>
    refine closes_cons ?_ _
    rcases isBlanks c List.mem_cons_self with rfl | rfl | rfl | rfl <;> decide

theorem next?_number {c : Char} (begins : c = '-' ∨ isDigit c = true) (cs : List Char) :
    next? (c :: cs) = (number? (c :: cs)).map fun (n, rest) => (.number n, rest) := by
  have other {x : Char} (unlike : ¬ (x = '-' ∨ isDigit x = true)) : c ≠ x :=
    fun same => unlike (same ▸ begins)
  rw [next?]
  -- What is left of each other lexeme is that it begins with a character of its own.
  all_goals
    rintro _ ⟨rfl, -⟩
    exact absurd rfl (other (by decide))

theorem lexed_number {cs : List Char} {n : Option Nat} (isNumber : IsNumber cs)
    (number : ∀ rest, Stops rest → number? (cs ++ rest) = some (n, rest)) :
    Lexed cs [.number n] := by
  intro done rest stops
  obtain ⟨c, ds, rfl, begins⟩ := isNumber.begins
  have solid : isBlank c = false := by
    rw [Bool.eq_false_iff]
    intro blank
    rcases isBlank_iff.mp blank with rfl | rfl | rfl | rfl <;> revert begins <;> decide
  have whole := number rest stops
  rw [List.cons_append] at whole ⊢
  refine readFrom?_next solid ?_ done
  rw [next?_number begins, whole]
  rfl

theorem lexed_inside {inside : List Char} {ps : List Part} (isInside : IsInside inside ps) :
    Lexed ('"' :: (inside ++ ['"'])) [.text (assemble? ps)] := by
  intro done rest stops
  rw [List.cons_append, List.append_assoc, List.singleton_append]
  refine readFrom?_next rfl ?_ done
  rw [next?, parts?_inside isInside]
  rfl

theorem lexed_string {cs : List Char} {text? : Option String} (isString : IsString text? cs) :
    Lexed cs [.text text?] := by
  cases isString with
  | text isInside denotes => exact assemble?_of_denotes denotes ▸ lexed_inside isInside
  | silent isInside denotes => exact assemble?_of_silent denotes ▸ lexed_inside isInside

/-! ### Values -/

/-- Lexemes of one value, inside any frames. -/
def Makes (xs : List Lexeme) (v : Json) : Prop :=
  ∀ stack ys, (Reading.value stack).run? (xs ++ ys) = (Reading.complete stack v).run? ys

/-- The text is read as a value wherever one is awaited. -/
def ReadsAs (cs : List Char) (v : Json) : Prop := ∃ xs, Lexed cs xs ∧ Makes xs v

theorem parse?_of_readsAs {cs : List Char} {v : Json} (reads : ReadsAs cs v) :
    parse? cs = some v := by
  obtain ⟨xs, lexed, makes⟩ := reads
  have lexemes : read? cs = some xs := by
    have all := lexed [] [] nofun
    rw [List.append_nil, List.append_nil] at all
    rw [read?, all, readFrom?, List.reverse_reverse]
  have made := makes [] []
  rw [List.append_nil, Reading.run?] at made
  rw [parse?, lexemes, Option.bind_some, ofLexemes?, made]

/-- The value that a text is read as. -/
def valueOf (cs : List Char) : Json := (parse? cs).getD .null

theorem ReadsAs.valueOf_eq {cs : List Char} {v : Json} (reads : ReadsAs cs v) : valueOf cs = v := by
  rw [valueOf, parse?_of_readsAs reads]
  rfl

theorem ReadsAs.valueOf {cs : List Char} {v : Json} (reads : ReadsAs cs v) :
    ReadsAs cs (valueOf cs) :=
  reads.valueOf_eq.symm ▸ reads

theorem readsAs_scalar {cs : List Char} {x : Lexeme} {v : Json} (lexed : Lexed cs [x])
    (starts : ∀ stack, Reading.start? stack x = some (.complete stack v)) : ReadsAs cs v := by
  refine ⟨[x], lexed, fun stack ys => ?_⟩
  rw [List.singleton_append, Reading.run?, Reading.step?, starts]

theorem readsAs_null : ReadsAs ['n', 'u', 'l', 'l'] .null :=
  readsAs_scalar (fun done _ _ => readFrom?_next rfl rfl done) fun _ => rfl

theorem readsAs_bool (b : Bool) : ReadsAs (boolText b) (.bool b) := by
  cases b <;> exact readsAs_scalar (fun done _ _ => readFrom?_next rfl rfl done) fun _ => rfl

theorem readsAs_number {cs : List Char} (isNumber : IsNumber cs) : ∃ v, ReadsAs cs v := by
  obtain ⟨n, number⟩ := number?_append isNumber
  exact ⟨_, readsAs_scalar (lexed_number isNumber number) fun _ => rfl⟩

theorem readsAs_numeral {n : Nat} {ds : List Char} (isNumeral : IsNumeral n ds)
    (small : n < UInt64.size) : ReadsAs ds (.number (some n)) := by
  have isNumber : IsNumber ds := by
    simpa using IsNumber.mk (.inl rfl) isNumeral.1 .none .none
  exact readsAs_scalar
    (lexed_number isNumber fun rest stops => number?_numeral isNumeral small stops) fun _ => rfl

theorem readsAs_string {cs : List Char} {text? : Option String} (isString : IsString text? cs) :
    ReadsAs cs (.text text?) :=
  readsAs_scalar (lexed_string isString) fun _ => rfl

/-! ### Arrays and objects -/

/-- White space around a value falls away. -/
theorem readsAs_item {value item : List Char} {v : Json} (isItem : IsItem value item)
    (reads : ReadsAs value v) : ReadsAs item v := by
  obtain ⟨blank, blank'⟩ := isItem
  obtain ⟨xs, lexed, makes⟩ := reads
  have around := (lexed.append (lexed_nil.blanks blank') (closes_nil.blanks blank')).blanks blank
  simp only [List.append_nil] at around
  exact ⟨xs, around, makes⟩

theorem lexed_items {vs : List (List Char)} {cs : List Char} (separated : IsSeparated IsItem vs cs)
    (reads : ∀ v ∈ vs, ReadsAs v (valueOf v)) :
    ∃ xs, Lexed cs xs ∧ ∀ items stack ys,
      (Reading.value (.array items :: stack)).run? (xs ++ .closeArray :: ys) =
        (Reading.complete stack (.array (items.reverse ++ vs.map valueOf))).run? ys := by
  -- In the frame the values that were read stand last first, and each comma adds one to them.
  induction separated with
  | last element =>
    obtain ⟨xs, lexed, makes⟩ := readsAs_item element (reads _ List.mem_cons_self)
    refine ⟨xs, lexed, fun items stack ys => ?_⟩
    rw [makes, Reading.run?, Reading.step?]
    simp
  | cons element _ ih =>
    obtain ⟨first, rest⟩ := List.forall_mem_cons.mp reads
    obtain ⟨xs, lexed, makes⟩ := readsAs_item element first
    obtain ⟨ys, later, run⟩ := ih rest
    refine ⟨xs ++ .comma :: ys, lexed.append (later.mark isMark_comma) (closes_cons (by decide) _),
      fun items stack zs => ?_⟩
    rw [List.append_assoc, makes, List.cons_append, Reading.run?, Reading.step?]
    simp only
    rw [run]
    simp

/-- Where no bracket closes an array at once its first value is awaited. -/
theorem run?_arrayOpen {stack : List Frame} {xs : List Lexeme} (nonempty : xs ≠ [])
    (other : xs.head? ≠ some .closeArray) :
    (Reading.arrayOpen stack).run? xs = (Reading.value (.array [] :: stack)).run? xs := by
  cases xs with
  | nil => exact absurd rfl nonempty
  | cons x xs =>
    cases x with
    | closeArray => exact absurd rfl other
    | _ => rfl

theorem readsAs_array {vs : List (List Char)} {cs : List Char} (isArray : IsArray vs cs)
    (reads : ∀ v ∈ vs, ReadsAs v (valueOf v)) :
    ReadsAs cs (.array (vs.map valueOf)) := by
  cases isArray with
  | empty isBlanks =>
    exact ⟨[.openArray, .closeArray], ((lexed_nil.mark isMark_closeArray).blanks isBlanks).mark
      isMark_openArray, fun _ _ => rfl⟩
  | elements separated =>
    obtain ⟨xs, lexed, run⟩ := lexed_items separated reads
    have whole := (lexed.append (lexed_nil.mark isMark_closeArray)
      (closes_cons (by decide) _)).mark isMark_openArray
    refine ⟨_, whole, fun stack ys => ?_⟩
    have items := run [] stack ys
    rw [List.reverse_nil, List.nil_append, ← run?_arrayOpen] at items
    · rw [← items, List.cons_append, List.append_assoc]
      rfl
    · simp
    · -- No value begins with a closing bracket: `run` would read one where a value is awaited.
      intro ended
      have first := run [] stack []
      cases xs with
      | nil => cases first
      | cons x xs =>
        cases ended
        cases first

/-- A member is a name, a colon and a value. -/
theorem lexed_member {name? : Option String} {value member : List Char} {v : Json}
    (isMember : IsMember (name?, value) member) (reads : ReadsAs value v) :
    ∃ xs, Lexed member (.text name? :: .colon :: xs) ∧ Makes xs v := by
  obtain ⟨blank, isString, blank', isItem⟩ := isMember
  obtain ⟨xs, lexed, makes⟩ := readsAs_item isItem reads
  have pair := (lexed_string isString).append ((lexed.mark isMark_colon).blanks blank')
    ((closes_cons (by decide) _).blanks blank')
  exact ⟨xs, pair.blanks blank, makes⟩

theorem lexed_members {ms : List (Option String × List Char)} {cs : List Char}
    (separated : IsSeparated IsMember ms cs) (reads : ∀ m ∈ ms, ReadsAs m.2 (valueOf m.2)) :
    ∃ name? xs, Lexed cs (.text name? :: xs) ∧ ∀ members stack ys,
      (Reading.key stack members).run? (.text name? :: (xs ++ .closeObject :: ys)) =
        (Reading.complete stack
          (.object (members.reverse ++ ms.map fun m => (m.1, valueOf m.2)))).run? ys := by
  induction separated with
  | last element =>
    obtain ⟨xs, lexed, makes⟩ := lexed_member element (reads _ List.mem_cons_self)
    refine ⟨_, _, lexed, fun members stack ys => ?_⟩
    simp only [List.cons_append, Reading.run?, Reading.step?]
    rw [makes, Reading.run?, Reading.step?]
    simp
  | cons element _ ih =>
    obtain ⟨first, rest⟩ := List.forall_mem_cons.mp reads
    obtain ⟨xs, lexed, makes⟩ := lexed_member element first
    obtain ⟨name?, ys, later, run⟩ := ih rest
    refine ⟨_, .colon :: (xs ++ .comma :: .text name? :: ys),
      lexed.append (later.mark isMark_comma) (closes_cons (by decide) _),
      fun members stack zs => ?_⟩
    simp only [List.cons_append, List.append_assoc, Reading.run?, Reading.step?]
    rw [makes, Reading.run?, Reading.step?]
    simp only
    rw [run]
    simp

theorem readsAs_object {ms : List (Option String × List Char)} {cs : List Char}
    (isObject : IsObject ms cs) (reads : ∀ m ∈ ms, ReadsAs m.2 (valueOf m.2)) :
    ReadsAs cs (.object (ms.map fun m => (m.1, valueOf m.2))) := by
  cases isObject with
  | empty isBlanks =>
    exact ⟨[.openObject, .closeObject], ((lexed_nil.mark isMark_closeObject).blanks isBlanks).mark
      isMark_openObject, fun _ _ => rfl⟩
  | elements separated =>
    obtain ⟨name?, xs, lexed, run⟩ := lexed_members separated reads
    have whole := (lexed.append (lexed_nil.mark isMark_closeObject)
      (closes_cons (by decide) _)).mark isMark_openObject
    refine ⟨_, whole, fun stack ys => ?_⟩
    have members := run [] stack ys
    rw [List.reverse_nil, List.nil_append] at members
    rw [← members]
    simp only [List.cons_append, List.append_assoc, List.nil_append, Reading.run?, Reading.step?,
      Reading.start?]

/-- Whatever is written well is read. -/
theorem IsValue.readsAs {cs : List Char} (isValue : IsValue cs) : ReadsAs cs (valueOf cs) := by
  induction isValue with
  | null => exact readsAs_null.valueOf
  | bool b => exact (readsAs_bool b).valueOf
  | number isNumber =>
    obtain ⟨v, reads⟩ := readsAs_number isNumber
    exact reads.valueOf
  | text isString => exact (readsAs_string isString).valueOf
  | array isArray _ reads => exact (readsAs_array isArray reads).valueOf
  | object isObject _ reads => exact (readsAs_object isObject reads).valueOf

end StreamFraming.Json
