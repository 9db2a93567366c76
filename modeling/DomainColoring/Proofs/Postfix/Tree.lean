import DomainColoring.Binary64
import DomainColoring.Proofs.Postfix.Depth

/-!
# Trees of expressions

An expression is a tree: literals and the variable are its leaves, and an operation stands above the trees of its operands. The
tokens of the expression list that tree with every operation behind its operands. A tree has a value of its own, computed from the
leaves upwards and from left to right, and evaluation on a stack comes to the same value (`evalWith_of_postorder`).
-/

namespace DomainColoring

variable {α : Type}

/-- An expression by its structure. -/
inductive Tree (α : Type) where
  | literal (value : ComplexNumber α)
  /-- The variable. -/
  | z
  | unary (op : UnaryOperator) (operand : Tree α)
  | binary (op : BinaryOperator) (left right : Tree α)
  deriving DecidableEq, Repr

/-- The tokens of a tree, every operation behind its operands. -/
def Tree.postorder : Tree α → List (Token α)
  | literal value => [.literal value]
  | z => [.z]
  | unary op operand => operand.postorder ++ [.operator (.unary op)]
  | binary op left right => left.postorder ++ (right.postorder ++ [.operator (.binary op)])

variable [Add α] [Sub α] [Mul α] [Div α] [Neg α] [BEq α] [NatCast α] [Elementary α]

namespace Tree

/-- The value of a tree at a point. The left operand comes before the right one, both come before the operation, and the first of
them that is a division by zero ends the evaluation. -/
def value (point : ComplexNumber α) : Tree α → Except ExpressionError (ComplexNumber α)
  | literal value => .ok value
  | z => .ok point
  | unary op operand =>
    match operand.value point with
    | .error error => .error error
    | .ok a =>
      match op.applyTo? a with
      | some value => .ok value
      | none => .error .divisionByZero
  | binary op left right =>
    match left.value point with
    | .error error => .error error
    | .ok a =>
      match right.value point with
      | .error error => .error error
      | .ok b =>
        match op.applyTo? a b with
        | some value => .ok value
        | none => .error .divisionByZero

/-- The evaluation of a tree from left to right comes to an operation that divides by zero, and has gone through the tokens
`before` until then. -/
inductive Fails (point : ComplexNumber α) : Tree α → (before : List (Token α)) → Operator → Prop
  | operand (op : UnaryOperator) {operand : Tree α} {before : List (Token α)} {failed : Operator}
      (fails : Fails point operand before failed) : Fails point (.unary op operand) before failed
  | unary {op : UnaryOperator} {operand : Tree α} {a : ComplexNumber α} (ha : operand.value point = .ok a)
      (none : op.applyTo? a = none) : Fails point (.unary op operand) operand.postorder (.unary op)
  | left (op : BinaryOperator) {left : Tree α} (right : Tree α) {before : List (Token α)} {failed : Operator}
      (fails : Fails point left before failed) : Fails point (.binary op left right) before failed
  | right (op : BinaryOperator) {left right : Tree α} {before : List (Token α)} {failed : Operator} {a : ComplexNumber α}
      (ha : left.value point = .ok a) (fails : Fails point right before failed) :
      Fails point (.binary op left right) (left.postorder ++ before) failed
  | binary {op : BinaryOperator} {left right : Tree α} {a b : ComplexNumber α} (ha : left.value point = .ok a)
      (hb : right.value point = .ok b) (none : op.applyTo? a b = none) :
      Fails point (.binary op left right) (left.postorder ++ right.postorder) (.binary op)

variable {point : ComplexNumber α} {t : Tree α}

/-- A function has a value where its operand has one and it has one there. -/
theorem value_unary_ok {op : UnaryOperator} {operand : Tree α} {v : ComplexNumber α} :
    (unary op operand).value point = .ok v ↔ ∃ a, operand.value point = .ok a ∧ op.applyTo? a = some v := by
  rw [value]
  cases operand.value point with
  | error error => simp
  | ok a => cases h : op.applyTo? a <;> simp [h]

/-- An operation has a value where both its operands have one and it has one there. -/
theorem value_binary_ok {op : BinaryOperator} {left right : Tree α} {v : ComplexNumber α} :
    (binary op left right).value point = .ok v ↔
      ∃ a b, left.value point = .ok a ∧ right.value point = .ok b ∧ op.applyTo? a b = some v := by
  rw [value]
  cases left.value point with
  | error error => simp
  | ok a =>
    cases right.value point with
    | error error => simp
    | ok b => cases h : op.applyTo? a b <;> simp [h]

/-- A tree that does not have a value divides by zero somewhere. -/
theorem fails_of_error {error : ExpressionError} (h : t.value point = .error error) :
    error = .divisionByZero ∧ ∃ before failed, t.Fails point before failed := by
  induction t generalizing error with
  | literal value => cases h
  | z => cases h
  | unary op operand ih =>
    rw [value] at h
    cases ha : operand.value point with
    | error error' =>
      obtain ⟨rfl, before, failed, hf⟩ := ih ha
      rw [ha] at h
      cases h
      exact ⟨rfl, before, failed, .operand op hf⟩
    | ok a =>
      cases none : op.applyTo? a with
      | some value => simp [ha, none] at h
      | none =>
        simp only [ha, none] at h
        cases h
        exact ⟨rfl, _, _, .unary ha none⟩
  | binary op left right ihl ihr =>
    rw [value] at h
    cases ha : left.value point with
    | error error' =>
      obtain ⟨rfl, before, failed, hf⟩ := ihl ha
      rw [ha] at h
      cases h
      exact ⟨rfl, before, failed, .left op right hf⟩
    | ok a =>
      cases hb : right.value point with
      | error error' =>
        obtain ⟨rfl, before, failed, hf⟩ := ihr hb
        simp only [ha, hb] at h
        cases h
        exact ⟨rfl, _, _, .right op ha hf⟩
      | ok b =>
        cases none : op.applyTo? a b with
        | some value => simp [ha, hb, none] at h
        | none =>
          simp only [ha, hb, none] at h
          cases h
          exact ⟨rfl, _, _, .binary ha hb none⟩

/-- Where an operation fails there is no value, by a division by zero. -/
theorem Fails.value_eq {before : List (Token α)} {failed : Operator} (h : t.Fails point before failed) :
    t.value point = .error .divisionByZero := by
  induction h with
  | operand op fails ih => rw [value, ih]
  | unary ha none => simp only [value, ha, none]
  | left op right fails ih => rw [value, ih]
  | right op ha fails ih => simp only [value, ha, ih]
  | binary ha hb none => simp only [value, ha, hb, none]

end Tree

/-! ## The tree on the stack -/

section Run

variable {point : ComplexNumber α} {stack : Stack α} {t : Tree α}

theorem Token.run_append (tokens more : List (Token α)) :
    Token.run point (tokens ++ more) stack = Token.run point tokens stack >>= Token.run point more :=
  List.foldlM_append

/-- Going on from a stack is running from it. -/
theorem Token.run_ok_bind (tokens : List (Token α)) :
    (Except.ok stack : Except (ExpressionError × Stack α) (Stack α)) >>= Token.run point tokens = Token.run point tokens stack :=
  rfl

theorem Token.run_singleton (token : Token α) : Token.run point [token] stack = token.step point stack := by
  rw [Token.run, List.foldlM_cons]
  cases token.step point stack <;> rfl

/-- The tokens of a tree leave its value on top of the stack, and what was there before below it. -/
theorem Tree.run_postorder {v : ComplexNumber α} (h : t.value point = .ok v) :
    Token.run point t.postorder stack = .ok (v :: stack) := by
  induction t generalizing stack v with
  | literal value =>
    cases h
    rfl
  | z =>
    cases h
    rfl
  | unary op operand ih =>
    obtain ⟨a, ha, applied⟩ := value_unary_ok.1 h
    rw [postorder, Token.run_append, ih ha, Token.run_ok_bind, Token.run_singleton]
    simp only [Token.step, applied]
  | binary op left right ihl ihr =>
    obtain ⟨a, b, ha, hb, applied⟩ := value_binary_ok.1 h
    rw [postorder, Token.run_append, ihl ha, Token.run_ok_bind, Token.run_append, ihr hb, Token.run_ok_bind,
      Token.run_singleton]
    simp only [Token.step, applied]

/-- What comes before the operation that divides by zero runs through, and then that operation ends the run. -/
theorem Tree.Fails.run {before : List (Token α)} {failed : Operator} (h : t.Fails point before failed) (stack : Stack α) :
    ∃ after reached left, t.postorder = before ++ .operator failed :: after ∧
      Token.run point before stack = .ok reached ∧
      (Token.operator failed).step point reached = .error (.divisionByZero, left) := by
  induction h generalizing stack with
  | operand op fails ih =>
    obtain ⟨after, reached, left, listed, run, step⟩ := ih stack
    exact ⟨after ++ [.operator (.unary op)], reached, left, by simp [postorder, listed], run, step⟩
  | @unary op operand a ha none =>
    exact ⟨[], a :: stack, stack, rfl, run_postorder ha, by simp only [Token.step, none]⟩
  | left op right fails ih =>
    obtain ⟨after, reached, left, listed, run, step⟩ := ih stack
    exact ⟨after ++ (right.postorder ++ [.operator (.binary op)]), reached, left, by simp [postorder, listed], run, step⟩
  | @right op left right before failed a ha fails ih =>
    obtain ⟨after, reached, left, listed, run, step⟩ := ih (a :: stack)
    refine ⟨after ++ [.operator (.binary op)], reached, left, by simp [postorder, listed], ?_, step⟩
    rw [Token.run_append, run_postorder ha]
    exact run
  | @binary op left right a b ha hb none =>
    refine ⟨[], b :: a :: stack, stack, by simp [postorder], ?_, by simp only [Token.step, none]⟩
    rw [Token.run_append, run_postorder ha]
    exact run_postorder hb

end Run

/-- The tokens of a tree have the value of the tree, whatever is on the stack before. The only error there can be is a division by
zero. If there is one the tree has an operation at which it fails: the tokens up to that operation run through, and the evaluation
ends with it, so that nothing behind it is looked at. -/
theorem Expression.evalWith_of_postorder {e : Expression α} {t : Tree α} (listed : e.tokens = t.postorder)
    (point : ComplexNumber α) (scratch : Stack α) :
    (e.evalWith point scratch).1 = t.value point ∧
      (∀ error, t.value point = .error error → error = .divisionByZero ∧ ∃ before failed, t.Fails point before failed) ∧
      ∀ before failed, t.Fails point before failed → t.value point = .error .divisionByZero ∧
        ∃ after reached left, e.tokens = before ++ .operator failed :: after ∧ Token.run point before [] = .ok reached ∧
          (Token.operator failed).step point reached = .error (.divisionByZero, left) ∧
          (e.evalWith point scratch).2 = left := by
  have stopped {before : List (Token α)} {failed : Operator} (h : t.Fails point before failed) :
      ∃ after reached left, e.tokens = before ++ .operator failed :: after ∧ Token.run point before [] = .ok reached ∧
        (Token.operator failed).step point reached = .error (.divisionByZero, left) ∧
        e.evalWith point scratch = (.error .divisionByZero, left) := by
    obtain ⟨after, reached, left, tokens, run, step⟩ := h.run []
    refine ⟨after, reached, left, listed.trans tokens, run, step, ?_⟩
    rw [evalWith, listed, tokens, Stack.cleared, Token.run_append, run, Token.run_ok_bind, Token.run, List.foldlM_cons, step]
    rfl
  refine ⟨?_, fun error => Tree.fails_of_error, ?_⟩
  · cases h : t.value point with
    | ok v =>
      rw [evalWith, listed, Stack.cleared, Tree.run_postorder h]
      rfl
    | error error =>
      obtain ⟨rfl, before, failed, fails⟩ := Tree.fails_of_error h
      obtain ⟨_, _, _, -, -, -, ended⟩ := stopped fails
      rw [ended]
  · intro before failed fails
    obtain ⟨after, reached, left, tokens, run, step, ended⟩ := stopped fails
    exact ⟨fails.value_eq, after, reached, left, tokens, run, step, congrArg Prod.snd ended⟩

/-- In `5 3 -` the three is taken from the five, and `1 z / 2 +` has no value at zero, whatever is on the stack. -/
theorem Expression.evalWith_five_minus_three :
    (evalWith (⟨"5 3 -", [.literal ⟨5, 0⟩, .literal ⟨3, 0⟩, .operator (.binary .subtract)], 2⟩ : Expression Float) ⟨0, 0⟩
        [⟨7, 7⟩]).1 = .ok ⟨2, 0⟩ ∧
      ∃ (e : Expression Float) (t : Tree Float), parse "1 z / 2 +" = .ok e ∧ e.tokens = t.postorder ∧
        (e.evalWith ⟨0, 0⟩ [⟨7, 7⟩]).1 = .error .divisionByZero := by
  constructor
  · have value : (Tree.binary .subtract (.literal ⟨5, 0⟩) (.literal ⟨3, 0⟩)).value (⟨0, 0⟩ : ComplexNumber Float) =
        .ok ⟨2, 0⟩ := rfl
    exact (evalWith_of_postorder rfl _ _).1.trans value
  · obtain ⟨e, t, parsed, listed, value⟩ : ∃ (e : Expression Float) (t : Tree Float),
        parse "1 z / 2 +" = .ok e ∧ e.tokens = t.postorder ∧ t.value ⟨0, 0⟩ = .error .divisionByZero :=
      ⟨_, .binary .add (.binary .divide (.literal _) .z) (.literal _), rfl, rfl, rfl⟩
    exact ⟨e, t, parsed, listed, (evalWith_of_postorder listed _ _).1.trans value⟩

end DomainColoring
