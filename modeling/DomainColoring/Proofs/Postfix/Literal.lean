import DomainColoring.Proofs.Decimal.Written
import DomainColoring.Proofs.Postfix.Streaming
import DomainColoring.Proofs.Text.Plain
import DomainColoring.Proofs.Text.Words

/-!
# Literals

A literal is an optional minus, a decimal and a letter for the imaginary unit, of which the decimal or the letter may be missing
(`Literal`). These are the words that are read as numbers, each has a value, and as an expression it is that value everywhere
(`Literal.read_exactly`). No word can be read in two ways, so the order in which they are tried makes no difference.
-/

namespace DomainColoring

open Binary64

/-! ## Decimals -/

namespace Decimal.Written

/-- There is no point before the point. -/
theorem whole_ne_point {d : Written} : ∀ c ∈ d.whole, decide (c ≠ '.') = true := by
  intro c member
  refine decide_eq_true ?_
  rintro rfl
  exact absurd (d.digits _ member) (by decide)

/-- The digits before the first point, and those behind it. -/
theorem split_text (d : Written) :
    d.text.takeWhile (· ≠ '.') = d.whole ∧ (d.text.dropWhile (· ≠ '.')).drop 1 = d.fraction.getD [] := by
  rw [text, List.takeWhile_append_of_pos whole_ne_point, List.dropWhile_append_of_pos whole_ne_point]
  cases d.fraction with
  | none => exact ⟨List.append_nil _, rfl⟩
  | some row => exact ⟨List.append_nil _, rfl⟩

/-- A decimal is read as the number that it is written for. -/
theorem unsignedDecimal?_text {α : Type} [OfScientific α] (d : Written) :
    Token.unsignedDecimal? d.text = some (OfScientific.ofScientific d.significand true d.places : α) := by
  obtain ⟨whole, fraction⟩ := d.split_text
  have filled : d.whole.isEmpty = false := by simpa using d.nonempty
  have digits : d.whole.all Char.isDigit = true := List.all_eq_true.2 d.digits
  have decimals : (d.fraction.getD []).all Char.isDigit = true := by
    cases fraction : d.fraction with
    | none => rfl
    | some row => exact List.all_eq_true.2 (d.decimals row fraction)
  rw [Token.unsignedDecimal?, whole, fraction, filled, digits, decimals]
  rfl

/-- Every row of characters that is read as a number is a decimal in writing. -/
theorem exists_text {α : Type} [OfScientific α] {row : List Char} {value : α} (h : Token.unsignedDecimal? row = some value) :
    ∃ d : Written, d.text = row := by
  unfold Token.unsignedDecimal? at h
  dsimp only at h
  split at h
  · rename_i digits
    simp only [Bool.and_eq_true, Bool.not_eq_true', List.isEmpty_eq_false_iff, List.all_eq_true] at digits
    obtain ⟨⟨nonempty, whole⟩, fraction⟩ := digits
    have parts : row.takeWhile (· ≠ '.') ++ row.dropWhile (· ≠ '.') = row := List.takeWhile_append_dropWhile
    cases behind : row.dropWhile (· ≠ '.') with
    | nil =>
      rw [behind] at parts
      refine ⟨⟨row.takeWhile (· ≠ '.'), none, nonempty, whole, ?_⟩, parts⟩
      rintro _ ⟨⟩
    | cons point rest =>
      have some : row.dropWhile (· ≠ '.') ≠ [] := behind ▸ List.cons_ne_nil _ _
      have stop := List.head_dropWhile_not (· ≠ '.') some
      simp only [behind, List.head_cons, decide_eq_false_iff_not, not_not] at stop
      subst stop
      rw [behind] at fraction parts
      refine ⟨⟨row.takeWhile (· ≠ '.'), rest, nonempty, whole, ?_⟩, parts⟩
      rintro _ ⟨⟩
      exact fraction
  · cases h

end Decimal.Written

/-! ## Literals by their parts -/

/-- The parts of a literal. A decimal or a letter is there, or both. -/
structure Literal where
  negative : Bool
  decimal : Option Decimal.Written
  /-- The letter for the imaginary unit. -/
  unit : Option Char
  letter : ∀ c ∈ unit, c = 'i' ∨ c = 'j'
  filled : decimal.isSome = true ∨ unit.isSome = true

namespace Literal

/-- What is written behind the sign. -/
def body (l : Literal) : List Char :=
  l.decimal.elim [] Decimal.Written.text ++ l.unit.toList

/-- The literal as it is written. -/
def text (l : Literal) : List Char :=
  if l.negative then '-' :: l.body else l.body

/-- The number a literal stands for: the double that its decimal is read as, or one where there is none, on the axis that the letter
says. -/
def value? (l : Literal) : Option (ComplexNumber Float) :=
  (l.decimal.elim (some (Nat.cast 1)) fun d => Decimal.read? d.text).map fun size =>
    let value := if l.negative then -size else size
    if l.unit.isSome then ⟨Nat.cast 0, value⟩ else ⟨value, Nat.cast 0⟩

/-- The characters of literals, but for the minus. -/
def Common (c : Char) : Prop :=
  c.isDigit = true ∨ c = '.' ∨ c = 'i' ∨ c = 'j'

instance (c : Char) : Decidable (Common c) :=
  inferInstanceAs (Decidable (_ ∨ _))

/-- Behind the sign there are only characters of literals. -/
theorem common_of_mem_body {l : Literal} {c : Char} (h : c ∈ l.body) : Common c := by
  rcases List.mem_append.1 h with decimal | unit
  · cases known : l.decimal with
    | none =>
      rw [known] at decimal
      cases decimal
    | some d =>
      rw [known] at decimal
      rcases Decimal.Written.mem_text decimal with digit | point
      · exact .inl digit
      · exact .inr (.inl point)
  · exact .inr (.inr (l.letter c (Option.mem_toList.1 unit)))

/-- There is something behind the sign. -/
theorem body_ne_nil (l : Literal) : l.body ≠ [] := by
  rw [body, ne_eq, List.append_eq_nil_iff]
  rintro ⟨decimal, unit⟩
  rcases l.filled with some | some
  · obtain ⟨d, known⟩ := Option.isSome_iff_exists.1 some
    rw [known] at decimal
    exact d.text_ne_nil decimal
  · obtain ⟨c, known⟩ := Option.isSome_iff_exists.1 some
    rw [known] at unit
    cases unit

/-- Literals are written in visible ASCII. -/
theorem plain_text (l : Literal) : Text.Plain l.text := by
  have common {c : Char} (h : Common c) : 0x20 < c.toNat ∧ c.toNat < 0x7f := by
    rcases h with digit | rfl | rfl | rfl
    · obtain ⟨low, high⟩ : 48 ≤ c.toNat ∧ c.toNat ≤ 57 := by
        simp only [Char.isDigit, Bool.and_eq_true, decide_eq_true_eq] at digit
        exact digit
      omega
    · decide
    · decide
    · decide
  intro c member
  rw [text] at member
  split at member
  · rcases List.mem_cons.1 member with rfl | behind
    · decide
    · exact common (common_of_mem_body behind)
  · exact common (common_of_mem_body member)

/-- No character of literals is a symbol of its own but the minus. -/
theorem isSymbol_eq_false {c : Char} (h : Common c) : Lexeme.isSymbol c = false := by
  unfold Lexeme.isSymbol BinaryOperator.ofSymbol?
  split
  case h_8 => rfl
  all_goals exact absurd h (by decide)

theorem ne_minus {c : Char} (h : Common c) : c ≠ '-' := by
  rintro rfl
  exact absurd h (by decide)

/-- A minus is taken off where there is one. -/
theorem body_of_text (l : Literal) : (l.text.head? == some '-') = l.negative ∧
    (if l.negative then l.text.drop 1 else l.text) = l.body := by
  rw [text]
  cases l.negative with
  | true => exact ⟨rfl, rfl⟩
  | false =>
    refine ⟨?_, rfl⟩
    obtain ⟨c, rest, parts⟩ := List.exists_cons_of_ne_nil l.body_ne_nil
    have minus : c ≠ '-' := ne_minus (common_of_mem_body (l := l) (parts ▸ List.mem_cons_self))
    rw [if_neg Bool.false_ne_true, parts]
    simpa using minus

/-- A letter is taken off where there is one. -/
theorem parts_of_body (l : Literal) : (l.body.getLast? == some 'i' || l.body.getLast? == some 'j') = l.unit.isSome ∧
    (if l.unit.isSome then l.body.dropLast else l.body) = l.decimal.elim [] Decimal.Written.text := by
  rw [body]
  cases unit : l.unit with
  | some c =>
    rw [Option.toList_some, List.getLast?_concat, List.dropLast_concat]
    rcases l.letter c unit with rfl | rfl
    · exact ⟨rfl, rfl⟩
    · exact ⟨rfl, rfl⟩
  | none =>
    rw [Option.toList_none, List.append_nil]
    refine ⟨?_, rfl⟩
    have some : l.decimal.isSome = true := l.filled.resolve_right (by rw [unit]; decide)
    obtain ⟨d, known⟩ := Option.isSome_iff_exists.1 some
    rw [known, Option.elim_some]
    have last := Decimal.Written.mem_text (List.getLast_mem d.text_ne_nil)
    rw [List.getLast?_eq_getLast_of_ne_nil d.text_ne_nil]
    generalize d.text.getLast d.text_ne_nil = c at last
    have letter : c ≠ 'i' ∧ c ≠ 'j' := by
      constructor
      · rintro rfl
        exact absurd last (by decide)
      · rintro rfl
        exact absurd last (by decide)
    simpa using letter

/-- A literal is read as the number it stands for. -/
theorem literal?_text (l : Literal) : Token.literal? l.text = l.value? := by
  obtain ⟨negative, body⟩ := l.body_of_text
  obtain ⟨imaginary, digits⟩ := l.parts_of_body
  rw [Token.literal?]
  dsimp only
  rw [negative, body, imaginary, digits, value?]
  congr 1
  cases known : l.decimal with
  | none =>
    have some : l.unit.isSome = true := l.filled.resolve_left (by rw [known]; decide)
    rw [some]
    rfl
  | some d =>
    have filled : d.text.isEmpty = false := by simpa using d.text_ne_nil
    rw [Option.elim_some, Option.elim_some, Token.coefficient?, filled, if_neg Bool.false_ne_true, Decimal.read?_written,
      Decimal.Written.unsignedDecimal?_text]
    rfl

section Parts

variable {α : Type} [NatCast α] [OfScientific α]

/-- What has a coefficient has a decimal, or nothing before its letter. -/
theorem exists_decimal {digits : List Char} {imaginary : Bool} {size : α}
    (h : Token.coefficient? digits imaginary = some size) :
    ∃ decimal : Option Decimal.Written, decimal.elim [] Decimal.Written.text = digits ∧
      (decimal.isSome = true ∨ imaginary = true) := by
  unfold Token.coefficient? at h
  split at h
  · rename_i empty
    refine ⟨none, (List.isEmpty_iff.1 empty).symm, .inr ?_⟩
    cases imaginary with
    | true => rfl
    | false => cases h
  · obtain ⟨d, same⟩ := Decimal.Written.exists_text h
    exact ⟨d, same, .inl rfl⟩

/-- A word is what is left before its letter, and the letter. -/
theorem exists_unit {body : List Char} {imaginary : Bool}
    (h : (body.getLast? == some 'i' || body.getLast? == some 'j') = imaginary) :
    ∃ unit : Option Char, (∀ c ∈ unit, c = 'i' ∨ c = 'j') ∧ unit.isSome = imaginary ∧
      (if imaginary then body.dropLast else body) ++ unit.toList = body := by
  cases imaginary with
  | false =>
    refine ⟨none, ?_, rfl, List.append_nil body⟩
    rintro _ ⟨⟩
  | true =>
    have letter : ∃ last, body.getLast? = some last ∧ (last = 'i' ∨ last = 'j') := by
      rw [Bool.or_eq_true, beq_iff_eq, beq_iff_eq] at h
      rcases h with h | h
      · exact ⟨_, h, .inl rfl⟩
      · exact ⟨_, h, .inr rfl⟩
    obtain ⟨last, ending, letter⟩ := letter
    refine ⟨some last, ?_, rfl, List.dropLast_append_getLast? last ending⟩
    rintro _ ⟨⟩
    exact letter

/-- What is read as a number is a literal. -/
theorem exists_text [Neg α] {word : List Char} {value : ComplexNumber α} (h : Token.literal? word = some value) :
    ∃ l : Literal, l.text = word := by
  unfold Token.literal? at h
  dsimp only at h
  rw [Option.map_eq_some_iff] at h
  obtain ⟨size, digits, -⟩ := h
  generalize signed : (word.head? == some '-') = negative at digits
  generalize behind : (if negative = true then word.drop 1 else word) = body at digits
  generalize ending : (body.getLast? == some 'i' || body.getLast? == some 'j') = imaginary at digits
  obtain ⟨decimal, row, filled⟩ := exists_decimal digits
  obtain ⟨unit, letter, some, parts⟩ := exists_unit ending
  refine ⟨⟨negative, decimal, unit, letter, some ▸ filled⟩, ?_⟩
  rw [text, Literal.body]
  dsimp only
  rw [row, parts]
  cases negative with
  | false => exact behind.symm
  | true =>
    cases word with
    | nil => cases signed
    | cons first rest =>
      have minus : first = '-' := by simpa using signed
      rw [← behind, minus]
      rfl

end Parts

/-- The words that are read as literals are those that literals are written as. -/
theorem literal?_iff {word : List Char} {value : ComplexNumber Float} :
    Token.literal? word = some value ↔ ∃ l : Literal, l.text = word ∧ l.value? = some value := by
  constructor
  · intro h
    obtain ⟨l, rfl⟩ := exists_text h
    exact ⟨l, rfl, l.literal?_text ▸ h⟩
  · rintro ⟨l, rfl, h⟩
    rw [literal?_text, h]

/-- A literal has a value, and no part of it is no number. -/
theorem exists_value (l : Literal) : ∃ value, l.value? = some value ∧ value.re.isNaN = false ∧ value.im.isNaN = false := by
  obtain ⟨size, known, number⟩ : ∃ size : Float,
      (l.decimal.elim (some (Nat.cast 1)) fun d => Decimal.read? d.text) = some size ∧ size.isNaN = false := by
    cases l.decimal with
    | none => exact ⟨_, rfl, (hasValue_natCast (n := 1) (by decide)).isNaN_eq_false⟩
    | some d => exact ⟨_, Decimal.read?_written d, Decimal.isNaN_ofScientific _ _ _⟩
  have signed : (if l.negative = true then -size else size).isNaN = false := by
    cases l.negative with
    | true => exact (isNaN_neg size).trans number
    | false => exact number
  have zero : (Nat.cast 0 : Float).isNaN = false := (hasValue_natCast (n := 0) (by decide)).isNaN_eq_false
  rw [value?, known, Option.map_some]
  cases l.unit with
  | none => exact ⟨_, rfl, signed, zero⟩
  | some c => exact ⟨_, rfl, zero, signed⟩

end Literal

/-! ## Words that are no literals -/

namespace Token

/-- The meanings of a word, whichever is tried first. -/
inductive Reads (word : List Char) : Token Float → Prop
  | literal {value : ComplexNumber Float} (h : literal? word = some value) : Reads word (.literal value)
  | z (h : word = ['z']) : Reads word .z
  | symbol {op : BinaryOperator} (h : symbol? word = some op) : Reads word (.operator (.binary op))
  | name {op : UnaryOperator} (h : UnaryOperator.ofName? word = some op) : Reads word (.operator (.unary op))

variable {word : List Char}

/-- A symbol is neither a literal nor the variable. -/
theorem others_of_symbol? {op : BinaryOperator} (h : symbol? word = some op) :
    (literal? word : Option (ComplexNumber Float)) = none ∧ word ≠ ['z'] := by
  unfold symbol? at h
  split at h
  · unfold BinaryOperator.ofSymbol? at h
    split at h
    case h_8 => cases h
    all_goals exact ⟨rfl, by decide⟩
  · cases h

theorem name_of_ofName? {op : UnaryOperator} (h : UnaryOperator.ofName? word = some op) : op.name.toList = word := by
  have found := List.find?_some h
  exact beq_iff_eq.1 found

/-- The name of a function is no literal, not the variable and no symbol. -/
theorem others_of_ofName? {op : UnaryOperator} (h : UnaryOperator.ofName? word = some op) :
    (literal? word : Option (ComplexNumber Float)) = none ∧ word ≠ ['z'] ∧ symbol? word = none := by
  rw [← name_of_ofName? h]
  cases op
  all_goals exact ⟨rfl, by decide, rfl⟩

/-- A word has no other meaning than the one that is found first. -/
theorem ofWord_iff_reads {token : Token Float} : ofWord word = .ok token ↔ Reads word token := by
  have unread : (literal? ['z'] : Option (ComplexNumber Float)) = none := rfl
  constructor
  · intro h
    unfold ofWord at h
    split at h
    · rename_i value literal
      cases h
      exact .literal literal
    · split at h
      · rename_i letter
        cases h
        exact .z letter
      · split at h
        · rename_i op symbol
          cases h
          exact .symbol symbol
        · split at h
          · rename_i op name
            cases h
            exact .name name
          · cases h
  · intro h
    cases h with
    | literal literal => rw [ofWord, literal]
    | z letter =>
      subst letter
      rw [ofWord, unread]
      rfl
    | symbol symbol =>
      obtain ⟨literal, letter⟩ := others_of_symbol? symbol
      simp only [ofWord, literal, if_neg letter, symbol]
    | name name =>
      obtain ⟨literal, letter, symbol⟩ := others_of_ofName? name
      simp only [ofWord, literal, if_neg letter, symbol, name]

end Token

namespace Literal

/-! ## Literals as expressions -/

/-- A literal is one lexeme. -/
theorem ofSource_text (l : Literal) : Lexeme.ofSource l.text = [l.text] := by
  obtain ⟨c, rest, parts⟩ := List.exists_cons_of_ne_nil l.body_ne_nil
  have behind : c ∈ l.body := parts ▸ List.mem_cons_self
  have member : c ∈ l.text := by
    rw [text]
    split
    · exact List.mem_cons_of_mem _ behind
    · exact behind
  have filled : l.text.isEmpty = false := List.isEmpty_eq_false_iff.2 (List.ne_nil_of_mem member)
  have words : Text.words l.text = [l.text] := by
    rw [Text.words, List.splitOnP_eq_singleton l.plain_text.visible, List.filter_singleton, filled]
    rfl
  have mixed : ¬(l.text.all Lexeme.isSymbol = true) := by
    intro all
    have symbol := List.all_eq_true.1 all c member
    rw [isSymbol_eq_false (common_of_mem_body behind)] at symbol
    cases symbol
  rw [Lexeme.ofSource, words, List.flatMap_singleton, Lexeme.ofWord, if_neg mixed]

/-- A literal alone is an expression of one token. -/
theorem parse_text (l : Literal) {value : ComplexNumber Float} (h : l.value? = some value) :
    Expression.parse (String.ofList l.text) = .ok ⟨String.ofList l.text, [.literal value], 1⟩ := by
  have word : Token.ofWord l.text = .ok (.literal value) := Token.ofWord_iff_reads.2 (.literal (l.literal?_text.trans h))
  rw [Expression.parse, String.toList_ofList, ofSource_text, Expression.scan, word, Text.trim_of_visible l.plain_text.visible]
  rfl

/-- Literals are the words that are read as numbers. -/
theorem read_exactly :
    (∀ (word : List Char) (value : ComplexNumber Float),
      Token.literal? word = some value ↔ ∃ l : Literal, l.text = word ∧ l.value? = some value) ∧
    (∀ l : Literal, l.text ≠ ['z'] ∧ Token.symbol? l.text = none ∧ UnaryOperator.ofName? l.text = none) ∧
    (∀ (word : List Char) (token : Token Float), Token.ofWord word = .ok token ↔ Token.Reads word token) ∧
    ∀ l : Literal, ∃ value, l.value? = some value ∧ value.re.isNaN = false ∧ value.im.isNaN = false ∧
      (∀ z, evaluate (String.ofList l.text) z = .ok value) ∧
      ∃ e, Expression.parse (String.ofList l.text) = .ok e ∧ ∀ z, e.eval z = .ok value := by
  refine ⟨fun word value => literal?_iff, ?_, fun word token => Token.ofWord_iff_reads, ?_⟩
  · intro l
    obtain ⟨value, known, -⟩ := l.exists_value
    have literal := l.literal?_text.trans known
    refine ⟨?_, ?_, ?_⟩
    · intro letter
      rw [letter] at literal
      cases literal
    · refine Option.eq_none_iff_forall_ne_some.2 fun op symbol => ?_
      rw [(Token.others_of_symbol? symbol).1] at literal
      cases literal
    · refine Option.eq_none_iff_forall_ne_some.2 fun op name => ?_
      rw [(Token.others_of_ofName? name).1] at literal
      cases literal
  · intro l
    obtain ⟨value, known, re, im⟩ := l.exists_value
    have parsed := l.parse_text known
    refine ⟨value, known, re, im, fun z => ?_, _, parsed, fun z => rfl⟩
    rw [(evaluate_of_parse parsed z).1]
    rfl

end Literal

end DomainColoring
