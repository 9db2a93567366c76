import DomainColoring.ComplexNumber

/-!
# Operators

The operations of an expression: five between two values, written as symbols, and ten functions of one value, written as words.
-/

namespace DomainColoring

/-- An operation on two values. -/
inductive BinaryOperator where
  | add
  | subtract
  | multiply
  | divide
  | power
  deriving DecidableEq, Repr

/-- A function of one value. -/
inductive UnaryOperator where
  | conj
  | inverse
  | exp
  | log
  | sin
  | cos
  | modulus
  | argument
  | realPart
  | imaginaryPart
  deriving DecidableEq, Repr

/-- An operation on one value or two. -/
inductive Operator where
  | binary (op : BinaryOperator)
  | unary (op : UnaryOperator)
  deriving DecidableEq, Repr

namespace BinaryOperator

/-- The operation that a symbol stands for; multiplication and division have two symbols each. -/
def ofSymbol? : Char → Option BinaryOperator
  | '+' => some .add
  | '-' => some .subtract
  | '*' => some .multiply
  | '×' => some .multiply
  | '/' => some .divide
  | '÷' => some .divide
  | '^' => some .power
  | _ => none

/-- The symbol that an operation is shown by. -/
def symbol : BinaryOperator → Char
  | add => '+'
  | subtract => '-'
  | multiply => '*'
  | divide => '/'
  | power => '^'

variable {α : Type} [Add α] [Sub α] [Mul α] [Div α] [Neg α] [BEq α] [NatCast α] [Elementary α]

/-- The value of the operation between `a`, on its left, and `b`; nothing for a division by zero. -/
def applyTo? (op : BinaryOperator) (a b : ComplexNumber α) : Option (ComplexNumber α) :=
  match op with
  | add => some (a + b)
  | subtract => some (a - b)
  | multiply => some (a * b)
  | divide => a.divide? b
  | power => some (a.pow b)

end BinaryOperator

namespace UnaryOperator

/-- All functions. -/
def all : List UnaryOperator :=
  [conj, inverse, exp, log, sin, cos, modulus, argument, realPart, imaginaryPart]

/-- The word for a function. -/
def name : UnaryOperator → String
  | conj => "conj"
  | inverse => "inv"
  | exp => "exp"
  | log => "ln"
  | sin => "sin"
  | cos => "cos"
  | modulus => "abs"
  | argument => "arg"
  | realPart => "re"
  | imaginaryPart => "im"

/-- The function that a word stands for. -/
def ofName? (word : List Char) : Option UnaryOperator :=
  all.find? (·.name.toList == word)

variable {α : Type} [Add α] [Sub α] [Mul α] [Div α] [Neg α] [BEq α] [NatCast α] [Elementary α]

/-- The value of the function at `a`; nothing for the inverse of zero. -/
def applyTo? (op : UnaryOperator) (a : ComplexNumber α) : Option (ComplexNumber α) :=
  match op with
  | conj => some a.conj
  | inverse => a.inverse?
  | exp => some a.exp
  | log => some a.log
  | sin => some a.sin
  | cos => some a.cos
  | modulus => some (.ofReal a.norm)
  | argument => some (.ofReal a.arg)
  | realPart => some (.ofReal a.re)
  | imaginaryPart => some (.ofReal a.im)

end UnaryOperator

/-- How many values an operation takes. -/
def Operator.arity : Operator → Nat
  | binary _ => 2
  | unary _ => 1

/-- The symbol or word that an operation is shown by. -/
def Operator.text : Operator → String
  | binary op => op.symbol.toString
  | unary op => op.name

end DomainColoring
