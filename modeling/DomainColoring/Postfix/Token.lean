import DomainColoring.Postfix.Operator
import DomainColoring.Text
import DomainColoring.Decimal

/-!
# Tokens

A source text is cut into words, and each word has a meaning of its own or none. What can be wrong with an expression, also later on,
is named here.
-/

namespace DomainColoring

/-! ## What can be wrong with an expression -/

/-- Why an expression has no value. -/
inductive ExpressionError where
  /-- A word that is neither a number, the variable nor an operation. -/
  | invalidToken (word : String)
  /-- An operation with fewer values before it than it takes. -/
  | missingOperand (op : Operator)
  /-- A count of values at the end that is not one. -/
  | stackSize (count : Nat)
  /-- A division by zero, or the inverse of zero. -/
  | divisionByZero
  deriving DecidableEq, Repr

/-- The error in words. -/
def ExpressionError.message : ExpressionError → String
  | invalidToken word => "invalid token: " ++ Text.quote word
  | missingOperand op => "malformed expression: `" ++ op.text ++ "` is missing an operand"
  | stackSize 0 => "malformed expression: expression produces no value"
  | stackSize count => "malformed expression: " ++ toString count ++ " values left on the stack, expected 1"
  | divisionByZero => "division by zero"

/-!
## Lexemes

An expression is a row of words between blanks. A word made of operation symbols alone is as many words as it has symbols.
-/

namespace Lexeme

/-- Whether a character stands for an operation. -/
def isSymbol (c : Char) : Bool :=
  (BinaryOperator.ofSymbol? c).isSome

/-- The lexemes of one word. -/
def ofWord (word : List Char) : List (List Char) :=
  if word.all isSymbol then word.map ([·]) else [word]

/-- The lexemes of a source text, in order. -/
def ofSource (source : List Char) : List (List Char) :=
  (Text.words source).flatMap ofWord

end Lexeme

/-!
## Words by their meaning

The meaning of one word of an expression. A literal is an optional minus, digits with an optional point and further digits, and an
optional `i` or `j`; the letter may also stand alone for the imaginary unit. No word can be read in two of the ways below.
-/

/-- A word of an expression by its meaning. -/
inductive Token (α : Type) where
  | literal (value : ComplexNumber α)
  /-- The variable. -/
  | z
  | operator (op : Operator)
  deriving DecidableEq, Repr

namespace Token

variable {α : Type} [Neg α] [NatCast α] [OfScientific α]

/-- The number written as digits with an optional point and further digits behind it. -/
def unsignedDecimal? (text : List Char) : Option α :=
  let whole := text.takeWhile (· ≠ '.')
  let fraction := (text.dropWhile (· ≠ '.')).drop 1
  if !whole.isEmpty && whole.all Char.isDigit && fraction.all Char.isDigit then
    some (OfScientific.ofScientific (Decimal.digitsValue (whole ++ fraction)) true fraction.length)
  else none

/-- The size of a literal from its digits, which only an imaginary literal may lack. -/
def coefficient? (digits : List Char) (imaginary : Bool) : Option α :=
  if digits.isEmpty then
    if imaginary then some (Nat.cast 1) else none
  else unsignedDecimal? digits

/-- The number that a word is, if it is a literal. -/
def literal? (word : List Char) : Option (ComplexNumber α) :=
  let negative := word.head? == some '-'
  let body := if negative then word.drop 1 else word
  let imaginary := body.getLast? == some 'i' || body.getLast? == some 'j'
  let digits := if imaginary then body.dropLast else body
  (coefficient? digits imaginary).map fun size =>
    let value := if negative then -size else size
    if imaginary then ⟨Nat.cast 0, value⟩ else .ofReal value

/-- The operation that a word of one symbol stands for. -/
def symbol? : List Char → Option BinaryOperator
  | [c] => BinaryOperator.ofSymbol? c
  | _ => none

/-- The meaning of a word. -/
def ofWord (word : List Char) : Except ExpressionError (Token α) :=
  match literal? word with
  | some value => .ok (.literal value)
  | none =>
    if word = ['z'] then .ok .z
    else match symbol? word with
      | some op => .ok (.operator (.binary op))
      | none => match UnaryOperator.ofName? word with
        | some op => .ok (.operator (.unary op))
        | none => .error (.invalidToken (String.ofList word))

/-- How many values wait after a token if `depth` wait before it: an operation takes its operands and leaves one value. -/
def depthAfter (depth : Nat) : Token α → Except ExpressionError Nat
  | operator op => if depth < op.arity then .error (.missingOperand op) else .ok (depth - op.arity + 1)
  | _ => .ok (depth + 1)

end Token

end DomainColoring
