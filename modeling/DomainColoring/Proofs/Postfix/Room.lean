import DomainColoring.Binary64
import DomainColoring.Proofs.Postfix.Streaming
import DomainColoring.Proofs.Postfix.Substitution

/-!
# Room on the stack

The reader counts values that it does not have. Evaluation has them on a stack, and after each token there are as many as were
counted, at every point of the plane, until all tokens are done or something is divided by zero. So the greatest count is the
room that the stack needs: an evaluation never asks for more, and one that comes to a value has used it all
(`Expression.stack_as_counted`).
-/

namespace DomainColoring

variable {α : Type}

/-! ## The count -/

namespace Expression

section Counting

variable [Neg α] [NatCast α] [OfScientific α] {depth maxDepth : Nat} {lexemes : List (List Char)} {found : Scan α}

/-- A scan goes through the first part of its lexemes, and through the rest from there. -/
theorem scan_append {before after : List (List Char)} (read : scan depth maxDepth (before ++ after) = .ok found) :
    ∃ first rest : Scan α, scan depth maxDepth before = .ok first ∧ scan first.depth first.maxDepth after = .ok rest ∧
      found = { rest with tokens := first.tokens ++ rest.tokens } := by
  induction before generalizing depth maxDepth found with
  | nil => exact ⟨⟨[], depth, maxDepth⟩, found, rfl, read, rfl⟩
  | cons lexeme before ih =>
    obtain ⟨token, next, found, word, count, more, rfl⟩ := scan_cons_ok.1 read
    obtain ⟨first, rest, read', more', rfl⟩ := ih more
    exact ⟨{ first with tokens := token :: first.tokens }, rest, scan_cons_ok.2 ⟨token, next, first, word, count, read', rfl⟩,
      more', rfl⟩

/-- Each lexeme is read as one token. -/
theorem length_of_scan (read : scan depth maxDepth lexemes = .ok found) : found.tokens.length = lexemes.length := by
  induction lexemes generalizing depth maxDepth found with
  | nil =>
    cases read
    rfl
  | cons lexeme lexemes ih =>
    obtain ⟨token, next, rest, -, -, more, rfl⟩ := scan_cons_ok.1 read
    exact congrArg (· + 1) (ih more)

/-- The greatest count grows from token to token, and no count is above it. -/
theorem maxDepth_of_scan (read : scan depth maxDepth lexemes = .ok found) :
    maxDepth ≤ found.maxDepth ∧ (depth ≤ maxDepth → found.depth ≤ found.maxDepth) := by
  induction lexemes generalizing depth maxDepth found with
  | nil =>
    cases read
    exact ⟨Nat.le_refl _, id⟩
  | cons lexeme lexemes ih =>
    obtain ⟨token, next, rest, -, -, more, rfl⟩ := scan_cons_ok.1 read
    obtain ⟨grows, above⟩ := ih more
    exact ⟨(Nat.le_max_left _ _).trans grows, fun _ => above (Nat.le_max_right _ _)⟩

/-- If the greatest count grows at all, there is a place where it is the count. -/
theorem exists_greatest (read : scan depth maxDepth lexemes = .ok found) (grows : maxDepth < found.maxDepth) :
    ∃ before after part, lexemes = before ++ after ∧ (scan depth maxDepth before : Except _ (Scan α)) = .ok part ∧
      part.depth = found.maxDepth := by
  induction lexemes generalizing depth maxDepth found with
  | nil =>
    cases read
    exact absurd grows (Nat.lt_irrefl _)
  | cons lexeme lexemes ih =>
    obtain ⟨token, next, rest, word, count, more, rfl⟩ := scan_cons_ok.1 read
    by_cases later : max maxDepth next < rest.maxDepth
    · obtain ⟨before, after, part, rfl, read', greatest⟩ := ih more later
      exact ⟨lexeme :: before, after, { part with tokens := token :: part.tokens }, rfl,
        scan_cons_ok.2 ⟨token, next, part, word, count, read', rfl⟩, greatest⟩
    · have here : next = rest.maxDepth := by
        have := (maxDepth_of_scan more).1
        simp only at grows
        omega
      exact ⟨[lexeme], lexemes, ⟨[token], next, max maxDepth next⟩, rfl,
        scan_cons_ok.2 ⟨token, next, _, word, count, rfl, rfl⟩, here⟩

/-- An expression has what a scan of its lexemes finds. -/
theorem scan_eq_of_parse {source : String} {e : Expression α} (h : parse source = .ok e) :
    scan 0 0 (Lexeme.ofSource source.toList) = .ok ⟨e.tokens, 1, e.maxDepth⟩ := by
  obtain ⟨t, spelled, listed, depth⟩ := exists_tree h
  have read := scan_postorder t spelled [] 0 0
  rw [List.append_nil] at read
  rw [read, listed, depth]
  simp [scan, Except.map]

variable (α) in
/-- The count of values when so many lexemes of a source have been read, if they can be read. -/
def countAfter? (source : String) (lexemes : Nat) : Option Nat :=
  (scan 0 0 ((Lexeme.ofSource source.toList).take lexemes) : Except _ (Scan α)).toOption.map Scan.depth

/-- What has been read of an expression on the way. -/
theorem exists_scan_take {source : String} {e : Expression α} (h : parse source = .ok e) (k : Nat) :
    ∃ part : Scan α, scan 0 0 ((Lexeme.ofSource source.toList).take k) = .ok part ∧ part.tokens = e.tokens.take k ∧
      countAfter? α source k = some part.depth ∧ part.depth ≤ e.maxDepth := by
  have read := scan_eq_of_parse h
  rw [← List.take_append_drop k (Lexeme.ofSource source.toList)] at read
  obtain ⟨part, rest, read, read', found⟩ := scan_append read
  obtain ⟨tokens, -, greatest⟩ := Scan.mk.inj found
  refine ⟨part, read, ?_, by simp [countAfter?, read, Except.toOption], ?_⟩
  · have length := length_of_scan read
    have length' := length_of_scan read'
    rw [List.length_take] at length
    rw [List.length_drop] at length'
    have none : rest.tokens.take (k - part.tokens.length) = [] := by
      rw [List.take_eq_nil_iff, ← List.length_eq_zero_iff]
      omega
    rw [tokens, List.take_append, none, List.append_nil, List.take_of_length_le (by omega)]
  · rw [greatest]
    exact ((maxDepth_of_scan read).2 (Nat.le_refl _)).trans (maxDepth_of_scan read').1

/-- Where a token comes, its operands are counted, and one value in their place is counted after it. -/
theorem countAfter?_succ {source : String} {e : Expression α} (h : parse source = .ok e) {k : Nat} {token : Token α}
    (here : e.tokens[k]? = some token) :
    ∃ count, countAfter? α source k = some count ∧ token.arity ≤ count ∧
      countAfter? α source (k + 1) = some (count - token.arity + 1) := by
  obtain ⟨part, read, tokens, count, -⟩ := exists_scan_take h k
  obtain ⟨next, read', tokens', count', -⟩ := exists_scan_take h (k + 1)
  obtain ⟨lexeme, word⟩ : ∃ lexeme, (Lexeme.ofSource source.toList)[k]? = some lexeme := by
    obtain ⟨inside, -⟩ := List.getElem?_eq_some_iff.1 here
    rw [length_of_scan (scan_eq_of_parse h)] at inside
    exact ⟨_, List.getElem?_eq_getElem inside⟩
  rw [List.take_add_one, word] at read'
  obtain ⟨part', last, again, more, rfl⟩ := scan_append read'
  cases read.symm.trans again
  obtain ⟨token', depth, _, -, counted, ended, rfl⟩ := scan_cons_ok.1 more
  cases ended
  rw [List.take_add_one, here, ← tokens] at tokens'
  obtain rfl : token' = token := by simpa using tokens'
  obtain ⟨enough, rfl⟩ := Token.depthAfter_ok.1 counted
  exact ⟨part.depth, count, enough, count'⟩

/-- The count comes to the depth of the expression. -/
theorem exists_countAfter?_maxDepth {source : String} {e : Expression α} (h : parse source = .ok e) :
    ∃ k ≤ e.tokens.length, countAfter? α source k = some e.maxDepth := by
  have read := scan_eq_of_parse h
  have positive : 0 < e.maxDepth := (maxDepth_of_scan read).2 (Nat.le_refl 0)
  obtain ⟨before, after, part, split, read', greatest⟩ := exists_greatest read positive
  refine ⟨before.length, ?_, ?_⟩
  · rw [length_of_scan read, split, List.length_append]
    exact Nat.le_add_right _ _
  · rw [countAfter?, split, List.take_left, read']
    exact congrArg some greatest

/-- How the values of an expression are counted, from none before its first token to one after its last. -/
structure CountedExactly (source : String) (e : Expression α) : Prop where
  first : countAfter? α source 0 = some 0
  /-- A token finds its operands counted, so that its arity can be taken from the count. -/
  token : ∀ k token, e.tokens[k]? = some token → ∃ count, countAfter? α source k = some count ∧ token.arity ≤ count ∧
    countAfter? α source (k + 1) = some (count - token.arity + 1)
  last : countAfter? α source e.tokens.length = some 1
  /-- The depth of the expression is the greatest count. -/
  bound : ∀ k count, countAfter? α source k = some count → count ≤ e.maxDepth
  greatest : ∃ k ≤ e.tokens.length, countAfter? α source k = some e.maxDepth

/-- The values of any source that is accepted are counted so. -/
theorem countedExactly {source : String} {e : Expression α} (h : parse source = .ok e) : CountedExactly source e where
  first := rfl
  token := fun _ _ => countAfter?_succ h
  last := by
    have read := scan_eq_of_parse h
    rw [countAfter?, length_of_scan read, List.take_length, read]
    rfl
  bound := by
    intro k count counted
    obtain ⟨part, -, -, counted', bound⟩ := exists_scan_take h k
    cases counted.symm.trans counted'
    exact bound
  greatest := exists_countAfter?_maxDepth h

end Counting

end Expression

/-! ## The stack -/

section Evaluation

variable [Add α] [Sub α] [Mul α] [Div α] [Neg α] [BEq α] [NatCast α] [Elementary α] {z : ComplexNumber α} {stack : Stack α}

/-- A run that ends early has gone through some tokens, and ends with the next. -/
theorem Token.run_error {tokens : List (Token α)} {error : ExpressionError} {left : Stack α}
    (h : Token.run z tokens stack = .error (error, left)) :
    ∃ before token after reached, tokens = before ++ token :: after ∧ Token.run z before stack = .ok reached ∧
      token.step z reached = .error (error, left) := by
  induction tokens generalizing stack with
  | nil => cases h
  | cons token tokens ih =>
    rw [Token.run, List.foldlM_cons] at h
    cases step : token.step z stack with
    | error ended =>
      rw [step] at h
      cases h
      exact ⟨[], token, tokens, stack, rfl, rfl, step⟩
    | ok next =>
      rw [step] at h
      obtain ⟨before, token', after, reached, rfl, run, step'⟩ := ih h
      refine ⟨token :: before, token', after, reached, rfl, ?_, step'⟩
      rw [Token.run, List.foldlM_cons, step]
      exact run

/-- A token that finds its operands fails only if it divides by zero, after it has taken them off the stack. -/
theorem Token.step_error {token : Token α} {error : ExpressionError} {left : Stack α} (enough : token.arity ≤ stack.length)
    (h : token.step z stack = .error (error, left)) :
    error = .divisionByZero ∧ token.DividesByZero stack ∧ left = stack.drop token.arity := by
  rw [step_eq enough] at h
  cases value : token.valueOn? z stack with
  | some v =>
    rw [value] at h
    cases h
  | none =>
    rw [value] at h
    cases h
    exact ⟨rfl, (valueOn?_eq_none enough).1 value, rfl⟩

namespace Expression

variable {e : Expression α} {scratch : Stack α}

/-- The stack when so many tokens are done of an evaluation that is given the stack `scratch`; an error with what is left of the
stack, if there has been one. -/
def stackAfter (e : Expression α) (z : ComplexNumber α) (scratch : Stack α) (tokens : Nat) :
    Except (ExpressionError × Stack α) (Stack α) :=
  Token.run z (e.tokens.take tokens) scratch.cleared

/-- An evaluation that has ended early has no value. -/
theorem evalWith_of_stackAfter_error {k : Nat} {error : ExpressionError} {left : Stack α}
    (h : e.stackAfter z scratch k = .error (error, left)) : e.evalWith z scratch = (.error error, left) := by
  have run : Token.run z e.tokens scratch.cleared = .error (error, left) := by
    rw [← List.take_append_drop k e.tokens, Token.run_append, ← stackAfter, h]
    rfl
  rw [evalWith, run]

section Accepted

variable [OfScientific α] {source : String} (h : parse source = .ok e)
include h

/-- After each token there are as many values on the stack as were counted, unless there has been a division by zero. -/
theorem stackAfter_cases (z : ComplexNumber α) (scratch : Stack α) (k : Nat) :
    (∃ left, e.stackAfter z scratch k = .error (.divisionByZero, left)) ∨
      ∃ stack, e.stackAfter z scratch k = .ok stack ∧ countAfter? α source k = some stack.length := by
  obtain ⟨part, read, tokens, count, -⟩ := exists_scan_take h k
  rw [stackAfter, ← tokens]
  rcases run_of_scan (z := z) List.length_nil read with ⟨-, -, left, run⟩ | ⟨-, stack, -, run, length⟩
  · exact .inl ⟨left, run⟩
  · exact .inr ⟨stack, run, by rw [count, length]⟩

/-- There are as many values on the stack as were counted. -/
theorem length_stackAfter {k : Nat} {stack : Stack α} (run : e.stackAfter z scratch k = .ok stack) :
    countAfter? α source k = some stack.length := by
  rcases stackAfter_cases h z scratch k with ⟨left, stopped⟩ | ⟨stack', run', length⟩
  · cases run.symm.trans stopped
  · cases run.symm.trans run'
    exact length

/-- The operands of a token are on the stack when it comes. -/
theorem arity_le_length {k : Nat} {token : Token α} {stack : Stack α} (here : e.tokens[k]? = some token)
    (run : e.stackAfter z scratch k = .ok stack) : token.arity ≤ stack.length := by
  obtain ⟨count, counted, enough, -⟩ := countAfter?_succ h here
  cases counted.symm.trans (length_stackAfter h run)
  exact enough

/-- An evaluation that has ended early came to a token that divided by zero, and this had taken its operands off the stack. -/
theorem stackAfter_error {k : Nat} {error : ExpressionError} {left : Stack α}
    (stopped : e.stackAfter z scratch k = .error (error, left)) :
    error = .divisionByZero ∧ ∃ j < k, ∃ token stack, e.tokens[j]? = some token ∧ e.stackAfter z scratch j = .ok stack ∧
      token.DividesByZero stack ∧ left = stack.drop token.arity := by
  obtain ⟨before, token, after, stack, split, run, step⟩ := Token.run_error stopped
  have listed : e.tokens = before ++ token :: (after ++ e.tokens.drop k) := by
    rw [← List.cons_append, ← List.append_assoc, ← split, List.take_append_drop]
  have here : e.tokens[before.length]? = some token := by
    rw [listed, List.getElem?_append_right (Nat.le_refl _), Nat.sub_self, List.getElem?_cons_zero]
  have reached : e.stackAfter z scratch before.length = .ok stack := by
    rw [stackAfter, listed, List.take_left]
    exact run
  have sooner : before.length < k := by
    have length := congrArg List.length split
    rw [List.length_take, List.length_append, List.length_cons] at length
    omega
  obtain ⟨rfl, zero, rfl⟩ := Token.step_error (arity_le_length h here reached) step
  exact ⟨rfl, before.length, sooner, token, stack, here, reached, zero, rfl⟩

end Accepted

/-- What is on the stack of an evaluation, token by token, against what was counted. -/
structure StackAsCounted [OfScientific α] (source : String) (e : Expression α) (z : ComplexNumber α) (scratch : Stack α) :
    Prop where
  /-- The evaluation has come to its end when all tokens are done. -/
  whole : e.evalWith z scratch = match e.stackAfter z scratch e.tokens.length with
    | .ok stack => (stack.result, stack)
    | .error (error, left) => (.error error, left)
  /-- After each token there are as many values as were counted. -/
  length : ∀ k stack, e.stackAfter z scratch k = .ok stack → countAfter? α source k = some stack.length
  /-- A token finds its operands on the stack. -/
  operands : ∀ k token stack, e.tokens[k]? = some token → e.stackAfter z scratch k = .ok stack → token.arity ≤ stack.length
  /-- Only a division by zero ends an evaluation before its last token. It has taken its operands off the stack. -/
  stopped : ∀ k error left, e.stackAfter z scratch k = .error (error, left) → error = .divisionByZero ∧
    ∃ j < k, ∃ token stack, e.tokens[j]? = some token ∧ e.stackAfter z scratch j = .ok stack ∧
      token.DividesByZero stack ∧ left = stack.drop token.arity
  /-- There are never more values than the depth of the expression says, also where the evaluation has ended early. -/
  bound : ∀ k stack, (e.stackAfter z scratch k = .ok stack ∨ ∃ error, e.stackAfter z scratch k = .error (error, stack)) →
    stack.length ≤ e.maxDepth
  /-- An evaluation that comes to a value has as many at one time. -/
  greatest : ∀ value, (e.evalWith z scratch).1 = .ok value →
    ∃ k ≤ e.tokens.length, ∃ stack, e.stackAfter z scratch k = .ok stack ∧ stack.length = e.maxDepth

/-- The stack of every evaluation is as it was counted. -/
theorem stackAsCounted [OfScientific α] {source : String} (h : parse source = .ok e) (z : ComplexNumber α) (scratch : Stack α) :
    StackAsCounted source e z scratch where
  whole := by
    rw [stackAfter, List.take_length]
    rfl
  length := fun _ _ => length_stackAfter h
  operands := fun _ _ _ => arity_le_length h
  stopped := fun _ _ _ => stackAfter_error h
  bound := by
    have bound := (countedExactly h).bound
    rintro k stack (run | ⟨error, stopped⟩)
    · exact bound k _ (length_stackAfter h run)
    · obtain ⟨-, j, -, token, reached, -, run, -, rfl⟩ := stackAfter_error h stopped
      rw [List.length_drop]
      exact (Nat.sub_le _ _).trans (bound j _ (length_stackAfter h run))
  greatest := by
    intro value result
    obtain ⟨k, inside, counted⟩ := exists_countAfter?_maxDepth h
    rcases stackAfter_cases h z scratch k with ⟨left, stopped⟩ | ⟨stack, run, length⟩
    · rw [evalWith_of_stackAfter_error stopped] at result
      cases result
    · exact ⟨k, inside, stack, run, Option.some.inj (length.symm.trans counted)⟩

end Expression

end Evaluation

/-! ## A stack with limited room -/

/-- Why an evaluation ends on a stack with limited room. -/
inductive Halt where
  /-- A value is to be taken off the stack, and there is none. -/
  | empty
  /-- A value is to be put on the stack, and there is no room for it. -/
  | full
  /-- There is no value. -/
  | failed (error : ExpressionError)
  deriving DecidableEq, Repr

namespace Stack

/-- Takes the latest value off a stack. -/
def pop : Stack α → Except Halt (ComplexNumber α × Stack α)
  | value :: stack => .ok (value, stack)
  | [] => .error .empty

/-- Puts a value on a stack that has room for so many. -/
def push (stack : Stack α) (room : Nat) (value : ComplexNumber α) : Except Halt (Stack α) :=
  if stack.length < room then .ok (value :: stack) else .error .full

variable {stack : Stack α} {room : Nat}

theorem push_of_lt (h : stack.length < room) (value : ComplexNumber α) : stack.push room value = .ok (value :: stack) :=
  if_pos h

theorem push_of_le (h : room ≤ stack.length) (value : ComplexNumber α) : stack.push room value = .error .full :=
  if_neg (Nat.not_lt.2 h)

end Stack

section Room

variable [Add α] [Sub α] [Mul α] [Div α] [Neg α] [BEq α] [NatCast α] [Elementary α] {z : ComplexNumber α} {stack : Stack α}
  {room : Nat}

/-- What one token does to a stack with limited room, one value at a time: it takes its operands off the stack and puts its value
on it. -/
def Token.stepWithin (room : Nat) (z : ComplexNumber α) (stack : Stack α) : Token α → Except Halt (Stack α)
  | .literal value => stack.push room value
  | .z => stack.push room z
  | .operator (.binary op) => do
    let (b, stack) ← stack.pop
    let (a, stack) ← stack.pop
    match op.applyTo? a b with
    | some value => stack.push room value
    | none => .error (.failed .divisionByZero)
  | .operator (.unary op) => do
    let (a, stack) ← stack.pop
    match op.applyTo? a with
    | some value => stack.push room value
    | none => .error (.failed .divisionByZero)

/-- What a row of tokens does to a stack with limited room. -/
def Token.runWithin (room : Nat) (z : ComplexNumber α) (tokens : List (Token α)) (stack : Stack α) : Except Halt (Stack α) :=
  tokens.foldlM (Token.stepWithin room z) stack

/-- The value at the point `z`, on an empty stack with limited room. -/
def Expression.evalWithin (e : Expression α) (room : Nat) (z : ComplexNumber α) : Except Halt (ComplexNumber α) := do
  let stack ← Token.runWithin room z e.tokens []
  stack.result.mapError .failed

/-- A token that finds its operands takes them off the stack one by one, and needs room for its value. -/
theorem Token.stepWithin_eq {token : Token α} (enough : token.arity ≤ stack.length) :
    token.stepWithin room z stack = match token.valueOn? z stack with
      | some value => Stack.push (stack.drop token.arity) room value
      | none => .error (.failed .divisionByZero) := by
  cases served enough with
  | literal value => rfl
  | z => rfl
  | binary op b a rest => rfl
  | unary op a rest => rfl

namespace Expression

variable [OfScientific α] {depth maxDepth : Nat} {lexemes : List (List Char)} {found : Scan α}

/-- With room for the greatest count, tokens that have been read do what they do without a limit. -/
theorem runWithin_of_le (read : scan depth maxDepth lexemes = .ok found) (size : stack.length = depth)
    (fits : found.maxDepth ≤ room) :
    Token.runWithin room z found.tokens stack = (Token.run z found.tokens stack).mapError fun stopped => .failed stopped.1 := by
  -- The induction is on the lexemes, from a stack as long as the count says.
  induction lexemes generalizing depth maxDepth found stack with
  | nil =>
    cases read
    rfl
  | cons lexeme lexemes ih =>
    obtain ⟨token, next, rest, -, count, more, rfl⟩ := scan_cons_ok.1 read
    obtain ⟨enough, rfl⟩ := Token.depthAfter_ok.1 count
    subst size
    rw [Token.runWithin, Token.run, List.foldlM_cons, List.foldlM_cons, Token.step_eq enough, Token.stepWithin_eq enough]
    cases token.valueOn? z stack with
    | none => rfl
    | some value =>
      have lower : (stack.drop token.arity).length + 1 ≤ room := by
        rw [List.length_drop]
        exact (Nat.le_max_right _ _).trans ((maxDepth_of_scan more).1.trans fits)
      simp only [Stack.push_of_lt lower]
      exact ih more (by simp) fits

/-- With less room, tokens that would run through do not: at the greatest count at the latest the stack is full. -/
theorem runWithin_of_lt {reached : Stack α} (read : scan depth maxDepth lexemes = .ok found) (size : stack.length = depth)
    (before : maxDepth ≤ room) (less : room < found.maxDepth) (run : Token.run z found.tokens stack = .ok reached) :
    Token.runWithin room z found.tokens stack = .error .full := by
  induction lexemes generalizing depth maxDepth found stack with
  | nil =>
    cases read
    exact absurd less (Nat.not_lt.2 before)
  | cons lexeme lexemes ih =>
    obtain ⟨token, next, rest, -, count, more, rfl⟩ := scan_cons_ok.1 read
    obtain ⟨enough, rfl⟩ := Token.depthAfter_ok.1 count
    subst size
    rw [Token.run, List.foldlM_cons, Token.step_eq enough] at run
    rw [Token.runWithin, List.foldlM_cons, Token.stepWithin_eq enough]
    cases applied : token.valueOn? z stack with
    | none =>
      rw [applied] at run
      cases run
    | some value =>
      rw [applied] at run
      -- Either there is room for this value, and the greatest count is still to come, or the stack is full here.
      by_cases lower : (stack.drop token.arity).length < room
      · simp only [Stack.push_of_lt lower]
        rw [List.length_drop] at lower
        exact ih more (by simp) (Nat.max_le.2 ⟨before, lower⟩) less run
      · simp only [Stack.push_of_le (Nat.not_lt.1 lower)]
        rfl

variable {source : String} {e : Expression α} (h : parse source = .ok e)
include h

/-- The depth of an expression is room enough: no value is missing, none finds the stack full, and the result is the same. -/
theorem evalWithin_of_le (fits : e.maxDepth ≤ room) (z : ComplexNumber α) (scratch : Stack α) :
    e.evalWithin room z = (e.evalWith z scratch).1.mapError .failed := by
  rw [evalWithin, runWithin_of_le (scan_eq_of_parse h) List.length_nil fits, evalWith, Stack.cleared]
  cases Token.run z e.tokens [] <;> rfl

/-- Less room is not enough for any point with a value. -/
theorem evalWithin_of_lt (less : room < e.maxDepth) {scratch : Stack α} {value : ComplexNumber α}
    (result : (e.evalWith z scratch).1 = .ok value) : e.evalWithin room z = .error .full := by
  rw [evalWith, Stack.cleared] at result
  cases run : Token.run z e.tokens [] with
  | error stopped =>
    rw [run] at result
    cases result
  | ok reached =>
    rw [evalWithin, runWithin_of_lt (scan_eq_of_parse h) List.length_nil (Nat.zero_le _) less run]
    rfl

omit h

/-- Let a source be read as an expression. Each token then finds its operands counted, and the depth of the expression is the
greatest count. It is the depth of the tree that the tokens list: one for a leaf, that of the operand for a function, and for an
operation between two that of the left one or one more than that of the right one, whichever is greater.

At every point, and whatever the stack holds before, an evaluation has after each token as many values on the stack as were
counted. The operands of each token are there when it comes, and only a division by zero ends the evaluation early. There are
never more values than the depth says, and as many at one time if the evaluation comes to a value. So a stack with that much room
is enough for the same results, and one with less is full before it comes to any value. -/
theorem stack_as_counted (h : parse source = .ok e) :
    CountedExactly source e ∧
    (∃ t : Tree α, e.tokens = t.postorder ∧ (∀ t' : Tree α, e.tokens = t'.postorder → t' = t) ∧ e.maxDepth = t.depth) ∧
    ∀ (z : ComplexNumber α) (scratch : Stack α), StackAsCounted source e z scratch ∧
      (∀ room, e.maxDepth ≤ room → e.evalWithin room z = (e.evalWith z scratch).1.mapError .failed) ∧
      ∀ room value, room < e.maxDepth → (e.evalWith z scratch).1 = .ok value → e.evalWithin room z = .error .full := by
  obtain ⟨t, -, listed, depth⟩ := exists_tree h
  refine ⟨countedExactly h, ⟨t, listed, ?_, depth⟩, fun z scratch => ⟨stackAsCounted h z scratch, ?_, ?_⟩⟩
  · intro t' listed'
    exact Tree.postorder_injective (listed'.symm.trans listed)
  · intro room fits
    exact evalWithin_of_le h fits z scratch
  · intro room value less result
    exact evalWithin_of_lt h less result

/-- In `z 1 + z 1 - *` three values wait before the subtraction. In `1 z / 2 +` there are two at most, also at zero, where the
division ends the evaluation. -/
theorem three_values_wait :
    (∃ e : Expression Float, parse "z 1 + z 1 - *" = .ok e ∧ e.evalWithin 2 ⟨2, 0⟩ = .error .full ∧
      e.evalWithin 3 ⟨2, 0⟩ = .ok ⟨3, 0⟩ ∧
      ∃ k ≤ e.tokens.length, ∃ stack, e.stackAfter ⟨2, 0⟩ [⟨7, 7⟩] k = .ok stack ∧ stack.length = 3) ∧
    ∃ e : Expression Float, parse "1 z / 2 +" = .ok e ∧ e.evalWithin 2 ⟨0, 0⟩ = .error (.failed .divisionByZero) := by
  constructor
  · obtain ⟨e, parsed, three, value⟩ : ∃ e : Expression Float, parse "z 1 + z 1 - *" = .ok e ∧ e.maxDepth = 3 ∧
        (e.evalWith ⟨2, 0⟩ [⟨7, 7⟩]).1 = .ok ⟨3, 0⟩ := ⟨_, rfl, rfl, rfl⟩
    obtain ⟨-, -, evaluated⟩ := stack_as_counted parsed
    obtain ⟨counted, same, full⟩ := evaluated ⟨2, 0⟩ [⟨7, 7⟩]
    have greatest := counted.greatest _ value
    rw [three] at same full greatest
    refine ⟨e, parsed, full 2 _ (by decide) value, ?_, greatest⟩
    rw [same 3 (Nat.le_refl 3), value]
    rfl
  · obtain ⟨e, parsed, two, pole⟩ : ∃ e : Expression Float, parse "1 z / 2 +" = .ok e ∧ e.maxDepth = 2 ∧
        (e.evalWith ⟨0, 0⟩ []).1 = .error .divisionByZero := ⟨_, rfl, rfl, rfl⟩
    refine ⟨e, parsed, ?_⟩
    rw [((stack_as_counted parsed).2.2 ⟨0, 0⟩ []).2.1 2 (Nat.le_of_eq two), pole]
    rfl

end Expression

end Room

end DomainColoring
