import DomainColoring.Postfix.Expression

/-!
# Where reading stops

A scan goes through the lexemes one by one. What it makes of a row of lexemes is what it makes of the first of them, and of the
rest from there; so when a text is no expression there are lexemes that were read, and one after them, or their count, that was
not accepted (`Expression.stops_of_parse_error`).
-/

namespace DomainColoring.Expression

variable {α : Type} [Neg α] [NatCast α] [OfScientific α]

/-- A scan goes on if the first lexeme is a word that finds its operands. -/
theorem scan_cons_ok {depth maxDepth : Nat} {lexeme : List Char} {lexemes : List (List Char)} {found : Scan α} :
    scan depth maxDepth (lexeme :: lexemes) = .ok found ↔
      ∃ token next rest, Token.ofWord lexeme = .ok token ∧ token.depthAfter depth = .ok next ∧
        scan next (max maxDepth next) lexemes = .ok rest ∧ found = { rest with tokens := token :: rest.tokens } := by
  rw [scan]
  cases word : (Token.ofWord lexeme : Except _ (Token α)) with
  | error error => simp [bind, Except.bind]
  | ok token =>
    cases count : token.depthAfter depth with
    | error error => simp [bind, Except.bind, count]
    | ok next =>
      cases more : (scan next (max maxDepth next) lexemes : Except _ (Scan α)) with
      | error error => simp [bind, Except.bind, count, more]
      | ok rest => simp [bind, Except.bind, pure, Except.pure, count, more, eq_comm]

/-- A scan fails at the first lexeme, because it is no word or misses an operand, or after it. -/
theorem scan_cons_error {depth maxDepth : Nat} {lexeme : List Char} {lexemes : List (List Char)} {error : ExpressionError} :
    (scan depth maxDepth (lexeme :: lexemes) : Except _ (Scan α)) = .error error ↔
      (Token.ofWord lexeme : Except _ (Token α)) = .error error ∨
        ∃ token : Token α, Token.ofWord lexeme = .ok token ∧
          (token.depthAfter depth = .error error ∨
            ∃ next, token.depthAfter depth = .ok next ∧
              (scan next (max maxDepth next) lexemes : Except _ (Scan α)) = .error error) := by
  rw [scan]
  cases word : (Token.ofWord lexeme : Except _ (Token α)) with
  | error error => simp [bind, Except.bind]
  | ok token =>
    cases count : token.depthAfter depth with
    | error error => simp [bind, Except.bind, count]
    | ok next =>
      cases more : (scan next (max maxDepth next) lexemes : Except _ (Scan α)) with
      | error error => simp [bind, Except.bind, count, more]
      | ok rest => simp [bind, Except.bind, pure, Except.pure, count, more]

variable (α) in
/-- A lexeme is not accepted after so many values: it is no word, or it misses an operand. -/
def Unacceptable (depth : Nat) (lexeme : List Char) (error : ExpressionError) : Prop :=
  (Token.ofWord lexeme : Except _ (Token α)) = .error error ∨
    ∃ token : Token α, Token.ofWord lexeme = .ok token ∧ token.depthAfter depth = .error error

variable (α) in
/-- Reading stops with an error after the lexemes `before`. -/
inductive Stops (lexemes : List (List Char)) (error : ExpressionError) : List (List Char) → Prop
  /-- They have been read, and the lexeme after them is not accepted. -/
  | lexeme (before : List (List Char)) (lexeme : List Char) (after : List (List Char)) (found : Scan α)
      (split : lexemes = before ++ lexeme :: after) (read : scan 0 0 before = .ok found)
      (unacceptable : Unacceptable α found.depth lexeme error) : Stops lexemes error before
  /-- They are all, and do not leave one value. -/
  | count (found : Scan α) (read : scan 0 0 lexemes = .ok found) (count : found.depth ≠ 1)
      (size : error = .stackSize found.depth) : Stops lexemes error lexemes

/-- A scan that fails has read some lexemes and does not accept the next. -/
theorem exists_unacceptable_of_scan_error {depth maxDepth : Nat} {lexemes : List (List Char)} {error : ExpressionError}
    (h : (scan depth maxDepth lexemes : Except _ (Scan α)) = .error error) :
    ∃ before lexeme after found, lexemes = before ++ lexeme :: after ∧
      (scan depth maxDepth before : Except _ (Scan α)) = .ok found ∧ Unacceptable α found.depth lexeme error := by
  induction lexemes generalizing depth maxDepth with
  | nil => cases h
  | cons lexeme lexemes ih =>
    rcases scan_cons_error.1 h with h | ⟨token, word, h | ⟨next, count, h⟩⟩
    · exact ⟨[], lexeme, lexemes, ⟨[], depth, maxDepth⟩, rfl, rfl, .inl h⟩
    · exact ⟨[], lexeme, lexemes, ⟨[], depth, maxDepth⟩, rfl, rfl, .inr ⟨token, word, h⟩⟩
    · obtain ⟨before, lexeme', after, rest, rfl, read, unacceptable⟩ := ih h
      exact ⟨lexeme :: before, lexeme', after, { rest with tokens := token :: rest.tokens }, rfl,
        scan_cons_ok.2 ⟨token, next, rest, word, count, read, rfl⟩, unacceptable⟩

/-- An expression has the tokens of its lexemes, which leave one value. -/
theorem scan_of_parse {source : String} {e : Expression α} (h : parse source = .ok e) :
    ∃ found : Scan α, scan 0 0 (Lexeme.ofSource source.toList) = .ok found ∧ found.depth = 1 ∧ e.tokens = found.tokens := by
  unfold parse at h
  cases read : (scan 0 0 (Lexeme.ofSource source.toList) : Except _ (Scan α)) with
  | error error =>
    rw [read] at h
    cases h
  | ok found =>
    simp only [read, bind, Except.bind] at h
    split at h
    · rename_i one
      cases h
      exact ⟨found, rfl, one, rfl⟩
    · cases h

/-- When a text is no expression there is a place where reading stops. -/
theorem stops_of_parse_error {source : String} {error : ExpressionError}
    (h : (parse source : Except _ (Expression α)) = .error error) :
    ∃ before, Stops α (Lexeme.ofSource source.toList) error before := by
  unfold parse at h
  cases read : (scan 0 0 (Lexeme.ofSource source.toList) : Except _ (Scan α)) with
  | error error' =>
    rw [read] at h
    cases h
    obtain ⟨before, lexeme, after, found, split, read, unacceptable⟩ := exists_unacceptable_of_scan_error read
    exact ⟨before, .lexeme before lexeme after found split read unacceptable⟩
  | ok found =>
    simp only [read, bind, Except.bind] at h
    split at h
    · cases h
    · rename_i count
      cases h
      exact ⟨_, .count found read count rfl⟩

end DomainColoring.Expression
