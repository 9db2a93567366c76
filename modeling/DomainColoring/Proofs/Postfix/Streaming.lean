import DomainColoring.Binary64
import DomainColoring.Proofs.Postfix.Depth
import DomainColoring.Proofs.Postfix.Reading

/-!
# Evaluation in one pass

A text is evaluated either from its tokens, once it has been read as a whole, or lexeme by lexeme. The two agree
(`evaluate_agrees`): a text that is no expression has no value either, and the error is the same unless a division by zero comes
before the place where reading stops.
-/

namespace DomainColoring

open Expression

variable {α : Type} [Add α] [Sub α] [Mul α] [Div α] [Neg α] [BEq α] [NatCast α] [Elementary α] [OfScientific α]

/-- One of the lexemes is a division or an inverse, and the value that it finds to divide by is zero. -/
def Lexeme.DividesByZero (z : ComplexNumber α) (stack : Stack α) (lexemes : List (List Char)) : Prop :=
  ∃ before lexeme after token reached, lexemes = before ++ lexeme :: after ∧ Token.ofWord lexeme = .ok token ∧
    before.foldlM (Lexeme.step z) stack = .ok reached ∧ token.DividesByZero reached

section Run

variable {z : ComplexNumber α} {stack : Stack α} {token : Token α} {lexeme : List Char} {lexemes : List (List Char)}

/-- A lexeme that is read as a token does what the token does. -/
theorem Lexeme.step_of_ofWord (word : Token.ofWord lexeme = .ok token) :
    Lexeme.step z stack lexeme = (token.step z stack).mapError Prod.fst := by
  rw [Lexeme.step, word]
  rfl

/-- Lexemes divide by zero if the first of them does. -/
theorem Lexeme.DividesByZero.head (word : Token.ofWord lexeme = .ok token) (h : token.DividesByZero stack) :
    Lexeme.DividesByZero z stack (lexeme :: lexemes) :=
  ⟨[], lexeme, lexemes, token, stack, rfl, word, rfl, h⟩

/-- After a lexeme that does not divide by zero, only those behind it can. -/
theorem Lexeme.dividesByZero_cons {reached : Stack α} (word : Token.ofWord lexeme = .ok token)
    (step : Lexeme.step z stack lexeme = .ok reached) (h : ¬token.DividesByZero stack) :
    Lexeme.DividesByZero z stack (lexeme :: lexemes) ↔ Lexeme.DividesByZero z reached lexemes := by
  constructor
  · rintro ⟨before, lexeme', after, token', reached', split, word', run, zero⟩
    cases before with
    | nil =>
      cases split
      cases run
      cases word.symm.trans word'
      exact absurd zero h
    | cons first before =>
      cases split
      rw [List.foldlM_cons, step] at run
      exact ⟨before, lexeme', after, token', reached', rfl, word', run, zero⟩
  · rintro ⟨before, lexeme', after, token', reached', rfl, word', run, zero⟩
    refine ⟨lexeme :: before, lexeme', after, token', reached', rfl, word', ?_, zero⟩
    rw [List.foldlM_cons, step]
    exact run

/-- What has been read runs through, with as many values on the stack as were counted, unless there is a division by zero. -/
theorem run_of_scan {depth maxDepth : Nat} {found : Scan α} (size : stack.length = depth)
    (read : scan depth maxDepth lexemes = .ok found) :
    (Lexeme.DividesByZero z stack lexemes ∧ lexemes.foldlM (Lexeme.step z) stack = .error .divisionByZero ∧
        ∃ rest, Token.run z found.tokens stack = .error (.divisionByZero, rest)) ∨
      ¬Lexeme.DividesByZero z stack lexemes ∧ ∃ reached, lexemes.foldlM (Lexeme.step z) stack = .ok reached ∧
        Token.run z found.tokens stack = .ok reached ∧ reached.length = found.depth := by
  -- The induction is on the lexemes, from a stack as long as the count says.
  induction lexemes generalizing depth maxDepth found stack with
  | nil =>
    cases read
    refine .inr ⟨?_, stack, rfl, rfl, size⟩
    rintro ⟨before, lexeme', after, token', reached', split, -⟩
    cases before <;> cases split
  | cons lexeme lexemes ih =>
    obtain ⟨token, next, rest, word, count, more, rfl⟩ := scan_cons_ok.1 read
    have run : (lexeme :: lexemes).foldlM (Lexeme.step z) stack =
        (token.step z stack).mapError Prod.fst >>= lexemes.foldlM (Lexeme.step z) := by
      rw [List.foldlM_cons, Lexeme.step_of_ofWord word]
    rcases Token.step_of_depthAfter (z := z) (size ▸ count) with ⟨zero, left, step⟩ | ⟨nonzero, reached, step, length⟩
    · refine .inl ⟨.head word zero, by rw [run, step]; rfl, left, ?_⟩
      rw [Token.run, List.foldlM_cons, step]
      rfl
    · have step' : Lexeme.step z stack lexeme = .ok reached := by rw [Lexeme.step_of_ofWord word, step]; rfl
      have run' : Token.run z (token :: rest.tokens) stack = Token.run z rest.tokens reached := by
        rw [Token.run, List.foldlM_cons, step]
        rfl
      rw [run, step, run', Lexeme.dividesByZero_cons word step' nonzero]
      exact ih length more

/-- What has been read divides by zero exactly if it does not run through. -/
theorem Lexeme.dividesByZero_iff {depth maxDepth : Nat} {found : Scan α} (size : stack.length = depth)
    (read : scan depth maxDepth lexemes = .ok found) :
    Lexeme.DividesByZero z stack lexemes ↔ lexemes.foldlM (Lexeme.step z) stack = .error .divisionByZero := by
  rcases run_of_scan (z := z) size read with ⟨zero, run, -⟩ | ⟨nonzero, reached, run, -⟩
  · exact iff_of_true zero run
  · refine iff_of_false nonzero ?_
    rw [run]
    exact nofun

/-- A lexeme that is not accepted ends the run with the error for which it is not accepted. -/
theorem Lexeme.step_of_unacceptable {error : ExpressionError} (h : Unacceptable α stack.length lexeme error) :
    Lexeme.step z stack lexeme = .error error := by
  rcases h with word | ⟨token, word, missing⟩
  · rw [Lexeme.step, word]
    rfl
  · rw [Lexeme.step_of_ofWord word, Token.step_of_missing missing]
    rfl

end Run

/-- Where reading stops, evaluation in one pass stops with the same error, unless it has stopped before at a division by zero. -/
theorem evaluate_of_stops {source : String} {z : ComplexNumber α} {error : ExpressionError} {before : List (List Char)}
    (h : Stops α (Lexeme.ofSource source.toList) error before) :
    (Lexeme.DividesByZero z [] before → evaluate source z = .error .divisionByZero) ∧
      (¬Lexeme.DividesByZero z [] before → evaluate source z = .error error) := by
  unfold evaluate
  cases h with
  | lexeme before lexeme after found split read unacceptable =>
    rw [split, List.foldlM_append]
    rcases run_of_scan (z := z) List.length_nil read with ⟨zero, run, -⟩ | ⟨nonzero, reached, run, -, length⟩
    · rw [run]
      exact ⟨fun _ => rfl, fun nonzero => absurd zero nonzero⟩
    · rw [run]
      refine ⟨fun zero => absurd zero nonzero, ?_⟩
      intro _
      rw [← length] at unacceptable
      simp only [bind, Except.bind, List.foldlM_cons, Lexeme.step_of_unacceptable unacceptable]
  | count found read count size =>
    rcases run_of_scan (z := z) List.length_nil read with ⟨zero, run, -⟩ | ⟨nonzero, reached, run, -, length⟩
    · rw [run]
      exact ⟨fun _ => rfl, fun nonzero => absurd zero nonzero⟩
    · rw [run]
      refine ⟨fun zero => absurd zero nonzero, ?_⟩
      intro _
      rw [size, ← length]
      exact Stack.result_of_length_ne (length ▸ count)

/-- Evaluating the tokens of an expression is evaluating its text in one pass. -/
theorem evaluate_of_parse {source : String} {e : Expression α} (h : parse source = .ok e) (z : ComplexNumber α) :
    evaluate source z = e.eval z ∧ ∀ error, e.eval z = .error error → error = .divisionByZero := by
  obtain ⟨found, read, one, tokens⟩ := scan_of_parse h
  unfold evaluate Expression.eval Expression.evalWith
  rw [tokens]
  rcases run_of_scan (z := z) List.length_nil read with ⟨-, run, left, run'⟩ | ⟨-, reached, run, run', length⟩
  · rw [run, Stack.cleared, run']
    refine ⟨rfl, ?_⟩
    rintro error ⟨⟩
    rfl
  · rw [run, Stack.cleared, run']
    obtain ⟨value, result⟩ := Stack.exists_result (length.trans one)
    refine ⟨rfl, ?_⟩
    intro error failed
    cases result.symm.trans failed

/-- A text that is an expression comes to the same end in both ways, and the only error there can be is a division by zero. A text
that is no expression ends in an error in both ways: in one pass it is a division by zero if there is one among the lexemes before
the place where reading stops, and otherwise the error with which it stops. -/
theorem evaluate_agrees (source : String) (z : ComplexNumber α) :
    (∀ e, parse source = .ok e →
      evaluate source z = e.eval z ∧ ∀ error, evaluate source z = .error error → error = .divisionByZero) ∧
    ∀ error, (parse source : Except _ (Expression α)) = .error error →
      (∃ before, Stops α (Lexeme.ofSource source.toList) error before) ∧
        ∀ before, Stops α (Lexeme.ofSource source.toList) error before →
          (Lexeme.DividesByZero z [] before → evaluate source z = .error .divisionByZero) ∧
            (¬Lexeme.DividesByZero z [] before → evaluate source z = .error error) := by
  constructor
  · intro e h
    obtain ⟨same, only⟩ := evaluate_of_parse h z
    exact ⟨same, same ▸ only⟩
  · intro error h
    exact ⟨stops_of_parse_error h, fun before => evaluate_of_stops⟩

/-- In one pass the division by zero in `1 0 / foo` comes before the word at which reading stops; where nothing is divided by zero
that word is reported. -/
theorem evaluate_one_over_z :
    evaluate "1 z /" (⟨0, 0⟩ : ComplexNumber Float) = .error .divisionByZero ∧
      evaluate "1 0 / foo" (⟨1, 0⟩ : ComplexNumber Float) = .error .divisionByZero ∧
      evaluate "1 z / foo" (⟨1, 0⟩ : ComplexNumber Float) = .error (.invalidToken "foo") := by
  refine ⟨?_, ?_, ?_⟩
  · obtain ⟨e, parsed, value⟩ :
        ∃ e : Expression Float, parse "1 z /" = .ok e ∧ e.eval ⟨0, 0⟩ = .error .divisionByZero := ⟨_, rfl, rfl⟩
    exact ((evaluate_agrees "1 z /" ⟨0, 0⟩).1 e parsed).1.trans value
  · have stops : Stops Float (Lexeme.ofSource "1 0 / foo".toList) (.invalidToken "foo") [['1'], ['0'], ['/']] :=
      .lexeme _ ['f', 'o', 'o'] [] _ rfl rfl (.inl rfl)
    refine (((evaluate_agrees "1 0 / foo" ⟨1, 0⟩).2 _ rfl).2 _ stops).1 ?_
    exact ⟨[['1'], ['0']], ['/'], [], _, _, rfl, rfl, rfl, _, rfl, rfl⟩
  · have stops : Stops Float (Lexeme.ofSource "1 z / foo".toList) (.invalidToken "foo") [['1'], ['z'], ['/']] :=
      .lexeme _ ['f', 'o', 'o'] [] _ rfl rfl (.inl rfl)
    refine (((evaluate_agrees "1 z / foo" ⟨1, 0⟩).2 _ rfl).2 _ stops).2 ?_
    obtain ⟨found, read⟩ : ∃ found : Scan Float, scan 0 0 [['1'], ['z'], ['/']] = .ok found := ⟨_, rfl⟩
    rw [Lexeme.dividesByZero_iff List.length_nil read]
    exact nofun

end DomainColoring
