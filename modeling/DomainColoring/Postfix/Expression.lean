import DomainColoring.Postfix.Token

/-!
# Expressions

A postfix expression in one variable, checked when it is read: each operation finds its operands, and one value is left at the
end. What can still go wrong at a point is a division by zero. Evaluation runs the tokens on a stack.
-/

namespace DomainColoring

/-- The values waiting for an operation, the latest first. -/
abbrev Stack (α : Type) := List (ComplexNumber α)

/-- The stack without its values. -/
def Stack.cleared {α : Type} (_ : Stack α) : Stack α := []

/-- A postfix expression: its text without the blanks around it, its tokens in order, and the most values that wait at one time
while it is evaluated. -/
structure Expression (α : Type) where
  source : String
  tokens : List (Token α)
  maxDepth : Nat
  deriving DecidableEq, Repr

section Evaluation

variable {α : Type} [Add α] [Sub α] [Mul α] [Div α] [Neg α] [BEq α] [NatCast α] [Elementary α]

/-- What one token does to the stack at the point `z`. An error comes with what is left of the stack. -/
def Token.step (z : ComplexNumber α) (stack : Stack α) :
    Token α → Except (ExpressionError × Stack α) (Stack α)
  | .literal value => .ok (value :: stack)
  | .z => .ok (z :: stack)
  | .operator (.binary op) =>
    match stack with
    | b :: a :: rest =>
      match op.applyTo? a b with
      | some value => .ok (value :: rest)
      | none => .error (.divisionByZero, rest)
    | _ => .error (.missingOperand (.binary op), [])
  | .operator (.unary op) =>
    match stack with
    | a :: rest =>
      match op.applyTo? a with
      | some value => .ok (value :: rest)
      | none => .error (.divisionByZero, rest)
    | [] => .error (.missingOperand (.unary op), [])

/-- What a row of tokens does to the stack at the point `z`. -/
def Token.run (z : ComplexNumber α) (tokens : List (Token α)) (stack : Stack α) :
    Except (ExpressionError × Stack α) (Stack α) :=
  tokens.foldlM (Token.step z) stack

/-- The value that a stack holds at the end, if it is the only one. -/
def Stack.result : Stack α → Except ExpressionError (ComplexNumber α)
  | [value] => .ok value
  | stack => .error (.stackSize stack.length)

/-- The value at the point `z`, and what is on the stack afterwards. The stack is cleared first and may be used again. -/
def Expression.evalWith (e : Expression α) (z : ComplexNumber α) (scratch : Stack α) :
    Except ExpressionError (ComplexNumber α) × Stack α :=
  match Token.run z e.tokens scratch.cleared with
  | .ok stack => (stack.result, stack)
  | .error (error, stack) => (.error error, stack)

/-- The value at the point `z`. -/
def Expression.eval (e : Expression α) (z : ComplexNumber α) : Except ExpressionError (ComplexNumber α) :=
  (e.evalWith z []).1

variable [OfScientific α]

/-- What the next lexeme does to the stack. -/
def Lexeme.step (z : ComplexNumber α) (stack : Stack α) (lexeme : List Char) : Except ExpressionError (Stack α) := do
  let token ← Token.ofWord lexeme
  (token.step z stack).mapError Prod.fst

/-- The value of a source text at the point `z`, in one pass from left to right: of several errors the first is reported. -/
def evaluate (source : String) (z : ComplexNumber α) : Except ExpressionError (ComplexNumber α) := do
  let stack ← (Lexeme.ofSource source.toList).foldlM (Lexeme.step z) []
  stack.result

end Evaluation

namespace Expression

section Reading

variable {α : Type} [Neg α] [NatCast α] [OfScientific α]

/-- Tokens read from lexemes, the count of values after them, and the greatest count on the way. -/
structure Scan (α : Type) where
  tokens : List (Token α)
  depth : Nat
  maxDepth : Nat

/-- Reads the lexemes from left to right, with `depth` values before the first and `maxDepth` the greatest count so far. -/
def scan (depth maxDepth : Nat) : List (List Char) → Except ExpressionError (Scan α)
  | [] => .ok ⟨[], depth, maxDepth⟩
  | lexeme :: lexemes => do
    let token ← Token.ofWord lexeme
    let next ← token.depthAfter depth
    let rest ← scan next (max maxDepth next) lexemes
    return { rest with tokens := token :: rest.tokens }

/-- The expression that a text is. -/
def parse (source : String) : Except ExpressionError (Expression α) := do
  let found ← scan 0 0 (Lexeme.ofSource source.toList)
  if found.depth = 1 then
    return ⟨String.ofList (Text.trim source.toList), found.tokens, found.maxDepth⟩
  else throw (.stackSize found.depth)

end Reading

/-- The expression `z`. -/
def identity {α : Type} : Expression α :=
  ⟨"z", [.z], 1⟩

end Expression

end DomainColoring
