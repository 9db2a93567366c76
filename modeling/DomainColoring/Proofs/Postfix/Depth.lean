import DomainColoring.Postfix.Expression

/-!
# The stack and the count of values

The reader only counts the values that wait; the stack holds them. Token by token the two agree: where the count says that an
operand is missing the stack says so too, and where the count goes on the stack follows it, unless there is a division by zero.
-/

namespace DomainColoring

variable {α : Type}

/-! ## The end of an evaluation -/

/-- A stack with another count of values than one has no result. -/
theorem Stack.result_of_length_ne {stack : Stack α} (h : stack.length ≠ 1) : stack.result = .error (.stackSize stack.length) := by
  match stack with
  | [] => rfl
  | [_] => exact absurd rfl h
  | _ :: _ :: _ => rfl

/-- A stack with one value has it for its result. -/
theorem Stack.exists_result {stack : Stack α} (h : stack.length = 1) : ∃ value, stack.result = .ok value := by
  obtain ⟨value, rfl⟩ := List.length_eq_one_iff.1 h
  exact ⟨value, rfl⟩

/-! ## Operands -/

/-- How many values a token takes. -/
def Token.arity : Token α → Nat
  | .operator op => op.arity
  | _ => 0

/-- The count goes on where it has the operands of a token, and has one value in their place. -/
theorem Token.depthAfter_ok {token : Token α} {depth next : Nat} :
    token.depthAfter depth = .ok next ↔ token.arity ≤ depth ∧ next = depth - token.arity + 1 := by
  cases token with
  | literal value => simp [depthAfter, arity, eq_comm]
  | z => simp [depthAfter, arity, eq_comm]
  | operator op =>
    by_cases few : depth < op.arity
    · simp [depthAfter, arity, few, Nat.not_le.2 few]
    · simp [depthAfter, arity, few, Nat.not_lt.1 few, eq_comm]

/-- A token with its operands on a stack. -/
inductive Token.Served : Token α → Stack α → Prop
  | literal (value : ComplexNumber α) (stack : Stack α) : Served (.literal value) stack
  | z (stack : Stack α) : Served .z stack
  | unary (op : UnaryOperator) (a : ComplexNumber α) (rest : Stack α) : Served (.operator (.unary op)) (a :: rest)
  | binary (op : BinaryOperator) (b a : ComplexNumber α) (rest : Stack α) : Served (.operator (.binary op)) (b :: a :: rest)

/-- A stack that is long enough for a token has its operands. -/
theorem Token.served {token : Token α} {stack : Stack α} (enough : token.arity ≤ stack.length) : token.Served stack := by
  cases token with
  | literal value => exact .literal value stack
  | z => exact .z stack
  | operator op =>
    cases op with
    | unary op =>
      match stack with
      | [] => exact absurd enough (by simp [arity, Operator.arity])
      | a :: rest => exact .unary op a rest
    | binary op =>
      match stack with
      | [] => exact absurd enough (by simp [arity, Operator.arity])
      | [_] => exact absurd enough (by simp [arity, Operator.arity])
      | b :: a :: rest => exact .binary op b a rest

/-! ## Divisions by zero -/

variable [Add α] [Mul α] [Div α] [Neg α] [BEq α] [NatCast α]

/-- Only zero has no inverse. -/
theorem ComplexNumber.inverse?_eq_none {a : ComplexNumber α} : a.inverse? = none ↔ a.isZero = true := by
  unfold inverse?
  split <;> simp_all

theorem ComplexNumber.divide?_eq_none [Sub α] {a b : ComplexNumber α} : a.divide? b = none ↔ b.isZero = true := by
  unfold divide?
  rw [Option.map_eq_none_iff, inverse?_eq_none]

variable [Sub α] [Elementary α]

/-- The value that a token divides by on a stack, for a division or an inverse. -/
def Token.divisor? (stack : Stack α) : Token α → Option (ComplexNumber α)
  | .operator (.binary .divide) => stack.head?
  | .operator (.unary .inverse) => stack.head?
  | _ => none

/-- A token divides by zero on a stack. -/
def Token.DividesByZero (stack : Stack α) (token : Token α) : Prop :=
  ∃ divisor, token.divisor? stack = some divisor ∧ divisor.isZero = true

/-- The only binary operation without a value is a division by zero. -/
theorem BinaryOperator.applyTo?_eq_none {op : BinaryOperator} {a b : ComplexNumber α} {rest : Stack α} :
    op.applyTo? a b = none ↔ Token.DividesByZero (b :: a :: rest) (.operator (.binary op)) := by
  cases op <;> simp [applyTo?, Token.DividesByZero, Token.divisor?, ComplexNumber.divide?_eq_none]

/-- The only function without a value is the inverse of zero. -/
theorem UnaryOperator.applyTo?_eq_none {op : UnaryOperator} {a : ComplexNumber α} {rest : Stack α} :
    op.applyTo? a = none ↔ Token.DividesByZero (a :: rest) (.operator (.unary op)) := by
  cases op <;> simp [applyTo?, Token.DividesByZero, Token.divisor?, ComplexNumber.inverse?_eq_none]

/-! ## One token -/

/-- The value that a token puts on a stack with its operands in their place; nothing for a division by zero. -/
def Token.valueOn? (z : ComplexNumber α) (stack : Stack α) : Token α → Option (ComplexNumber α)
  | .literal value => some value
  | .z => some z
  | .operator (.binary op) =>
    match stack with
    | b :: a :: _ => op.applyTo? a b
    | _ => none
  | .operator (.unary op) =>
    match stack with
    | a :: _ => op.applyTo? a
    | [] => none

section Step

variable {z : ComplexNumber α} {stack : Stack α} {token : Token α}

/-- A token that finds its operands takes them off the stack, and puts its value there. -/
theorem Token.step_eq (enough : token.arity ≤ stack.length) :
    token.step z stack = match token.valueOn? z stack with
      | some value => .ok (value :: stack.drop token.arity)
      | none => .error (.divisionByZero, stack.drop token.arity) := by
  cases served enough with
  | literal value => rfl
  | z => rfl
  | binary op b a rest => rfl
  | unary op a rest => rfl

/-- Among tokens that find their operands only a division by zero has no value. -/
theorem Token.valueOn?_eq_none (enough : token.arity ≤ stack.length) :
    token.valueOn? z stack = none ↔ token.DividesByZero stack := by
  cases served enough with
  | literal value => simp [valueOn?, DividesByZero, divisor?]
  | z => simp [valueOn?, DividesByZero, divisor?]
  | binary op b a rest => exact BinaryOperator.applyTo?_eq_none
  | unary op a rest => exact UnaryOperator.applyTo?_eq_none

/-- Where the count says that an operand is missing, so does the stack. -/
theorem Token.step_of_missing {error : ExpressionError} (h : token.depthAfter stack.length = .error error) :
    token.step z stack = .error (error, []) := by
  cases token with
  | literal value => cases h
  | z => cases h
  | operator op =>
    simp only [depthAfter] at h
    split at h
    · rename_i missing
      cases h
      cases op with
      | binary op =>
        match stack with
        | [] => rfl
        | [_] => rfl
        | _ :: _ :: _ => exact absurd missing (by simp [Operator.arity])
      | unary op =>
        match stack with
        | [] => rfl
        | _ :: _ => exact absurd missing (by simp [Operator.arity])
    · cases h

/-- Where the count goes on, the stack follows it, or there is a division by zero. -/
theorem Token.step_of_depthAfter {next : Nat} (h : token.depthAfter stack.length = .ok next) :
    (token.DividesByZero stack ∧ ∃ rest, token.step z stack = .error (.divisionByZero, rest)) ∨
      ¬token.DividesByZero stack ∧ ∃ stack', token.step z stack = .ok stack' ∧ stack'.length = next := by
  obtain ⟨enough, rfl⟩ := depthAfter_ok.1 h
  rw [step_eq enough, ← valueOn?_eq_none (z := z) enough]
  cases token.valueOn? z stack with
  | none => exact .inl ⟨rfl, _, rfl⟩
  | some value =>
    refine .inr ⟨?_, _, rfl, ?_⟩
    · rintro ⟨⟩
    · rw [List.length_cons, List.length_drop]

end Step

end DomainColoring
