import Mathlib.Logic.ExistsUnique
import DomainColoring.Proofs.Postfix.Reading
import DomainColoring.Proofs.Postfix.Tree
import DomainColoring.Proofs.Text.Words

/-!
# Which texts are expressions

The reader counts values; the language it reads is one of trees. A text is an expression exactly if its lexemes are words for the
tokens of a tree, which is then the only one (`Expression.parse_accepts_postorder`). Every text up to the first lexeme that cannot
be read lists some trees one after the other, and the count of values is the number of these trees; so the first such lexeme, or
the number of trees at the end, decides what is reported.
-/

namespace DomainColoring

variable {α : Type}

/-- The count stops at an operation with too few values before it. -/
theorem Token.depthAfter_error {token : Token α} {depth : Nat} {error : ExpressionError} :
    token.depthAfter depth = .error error ↔ ∃ op, token = .operator op ∧ depth < op.arity ∧ error = .missingOperand op := by
  cases token with
  | literal value => simp [Token.depthAfter]
  | z => simp [Token.depthAfter]
  | operator op =>
    by_cases few : depth < op.arity
    · simp [Token.depthAfter, few, eq_comm]
    · simp [Token.depthAfter, few]

namespace Tree

/-! ## Trees from tokens -/

/-- What a token makes of the trees that have been read, the latest first: an operation takes its operands from them. -/
def grow? (trees : List (Tree α)) : Token α → Option (List (Tree α))
  | .literal value => some (.literal value :: trees)
  | .z => some (.z :: trees)
  | .operator (.unary op) =>
    match trees with
    | operand :: rest => some (.unary op operand :: rest)
    | [] => none
  | .operator (.binary op) =>
    match trees with
    | right :: left :: rest => some (.binary op left right :: rest)
    | _ => none

/-- A token grows trees exactly if the count of them goes on, and the count is that of the grown trees. -/
theorem depthAfter_eq_ok {trees : List (Tree α)} {token : Token α} {next : Nat} :
    token.depthAfter trees.length = .ok next ↔ ∃ grown, grow? trees token = some grown ∧ grown.length = next := by
  cases token with
  | literal value => simp [Token.depthAfter, grow?]
  | z => simp [Token.depthAfter, grow?]
  | operator op =>
    cases op with
    | unary op => cases trees <;> simp [Token.depthAfter, grow?, Operator.arity]
    | binary op =>
      rcases trees with _ | ⟨_, _ | ⟨_, rest⟩⟩
      · simp [Token.depthAfter, grow?, Operator.arity]
      · simp [Token.depthAfter, grow?, Operator.arity]
      · have enough : ¬rest.length + 1 + 1 < 2 := by omega
        simp [Token.depthAfter, grow?, Operator.arity, enough]

/-- The trees that a token leaves list what the trees before it list, and the token. -/
theorem flatMap_of_grow? {trees grown : List (Tree α)} {token : Token α} (h : grow? trees token = some grown) :
    grown.reverse.flatMap postorder = trees.reverse.flatMap postorder ++ [token] := by
  unfold grow? at h
  split at h
  · cases h
    simp [postorder]
  · cases h
    simp [postorder]
  · split at h
    · cases h
      simp [postorder]
    · cases h
  · split at h
    · cases h
      simp [postorder]
    · cases h

/-- Tokens that make trees of others are listed behind them. -/
theorem flatMap_of_foldlM_grow? {tokens : List (Token α)} {trees grown : List (Tree α)}
    (h : tokens.foldlM grow? trees = some grown) :
    grown.reverse.flatMap postorder = trees.reverse.flatMap postorder ++ tokens := by
  induction tokens generalizing trees with
  | nil =>
    cases h
    simp
  | cons token tokens ih =>
    rw [List.foldlM_cons] at h
    obtain ⟨first, grow, more⟩ := Option.bind_eq_some_iff.1 h
    rw [ih more, flatMap_of_grow? grow, List.append_assoc]
    rfl

/-- The tokens of a tree grow that tree. -/
theorem foldlM_grow?_postorder (t : Tree α) (trees : List (Tree α)) :
    t.postorder.foldlM grow? trees = some (t :: trees) := by
  induction t generalizing trees with
  | literal value => rfl
  | z => rfl
  | unary op operand ih => simp [postorder, ih, grow?]
  | binary op left right ihl ihr => simp [postorder, ihl, ihr, grow?]

/-- The listing of a forest makes its trees, one after the other. -/
theorem foldlM_grow?_flatMap (forest trees : List (Tree α)) :
    (forest.flatMap postorder).foldlM grow? trees = some (forest.reverse ++ trees) := by
  induction forest generalizing trees with
  | nil => rfl
  | cons t forest ih => simp [foldlM_grow?_postorder, ih]

/-- No tokens list two rows of trees. -/
theorem flatMap_postorder_injective {forest forest' : List (Tree α)}
    (h : forest.flatMap postorder = forest'.flatMap postorder) : forest = forest' := by
  have grown := foldlM_grow?_flatMap forest []
  rw [h, foldlM_grow?_flatMap] at grown
  simpa using grown.symm

/-- No tokens list two trees. -/
theorem postorder_injective {t t' : Tree α} (h : t.postorder = t'.postorder) : t = t' := by
  have same : [t].flatMap postorder = [t'].flatMap postorder := by simpa using h
  simpa using flatMap_postorder_injective same

end Tree

/-! ## What a scan reads -/

/-- Lexemes that are words for tokens. -/
def Lexeme.Spell [Neg α] [NatCast α] [OfScientific α] (lexemes : List (List Char)) (tokens : List (Token α)) : Prop :=
  lexemes.map Token.ofWord = tokens.map .ok

namespace Expression

variable [Neg α] [NatCast α] [OfScientific α] {lexemes : List (List Char)}

/-- A scan that goes through has read words, and they leave as many trees as it has counted. -/
theorem spell_of_scan (trees : List (Tree α)) {maxDepth : Nat} {found : Scan α}
    (read : scan trees.length maxDepth lexemes = .ok found) :
    Lexeme.Spell lexemes found.tokens ∧ ∃ grown, found.tokens.foldlM Tree.grow? trees = some grown ∧
      grown.length = found.depth := by
  induction lexemes generalizing trees maxDepth found with
  | nil =>
    cases read
    exact ⟨rfl, trees, rfl, rfl⟩
  | cons lexeme lexemes ih =>
    obtain ⟨token, next, rest, word, count, more, rfl⟩ := scan_cons_ok.1 read
    obtain ⟨grown, grow, rfl⟩ := Tree.depthAfter_eq_ok.1 count
    obtain ⟨spelled, grown', grow', length⟩ := ih grown more
    refine ⟨?_, grown', by simp [grow, grow'], length⟩
    rw [Lexeme.Spell, List.map_cons, word, spelled]
    rfl

/-- Words whose tokens grow trees are gone through. -/
theorem exists_scan {trees grown : List (Tree α)} {tokens : List (Token α)} (spelled : Lexeme.Spell lexemes tokens)
    (grow : tokens.foldlM Tree.grow? trees = some grown) (maxDepth : Nat) :
    ∃ found, scan trees.length maxDepth lexemes = .ok found ∧ found.tokens = tokens ∧ found.depth = grown.length := by
  induction lexemes generalizing trees tokens maxDepth with
  | nil =>
    cases tokens with
    | nil =>
      cases grow
      exact ⟨_, rfl, rfl, rfl⟩
    | cons token tokens => cases spelled
  | cons lexeme lexemes ih =>
    cases tokens with
    | nil => cases spelled
    | cons token tokens =>
      simp only [Lexeme.Spell, List.map_cons, List.cons.injEq] at spelled
      rw [List.foldlM_cons] at grow
      obtain ⟨first, grow, grow'⟩ := Option.bind_eq_some_iff.1 grow
      have count := Tree.depthAfter_eq_ok.2 ⟨first, grow, rfl⟩
      obtain ⟨rest, read, tokens', depth⟩ := ih spelled.2 grow' (max maxDepth first.length)
      exact ⟨_, scan_cons_ok.2 ⟨token, _, rest, spelled.1, count, read, rfl⟩, by rw [tokens'], depth⟩

/-- A scan goes through exactly if the lexemes are words whose tokens list trees. It finds these tokens, and counts the trees. -/
theorem scan_iff_forest {tokens : List (Token α)} {count : Nat} :
    (∃ found : Scan α, scan 0 0 lexemes = .ok found ∧ found.tokens = tokens ∧ found.depth = count) ↔
      Lexeme.Spell lexemes tokens ∧ ∃ forest : List (Tree α), tokens = forest.flatMap Tree.postorder ∧ forest.length = count := by
  constructor
  · rintro ⟨found, read, rfl, rfl⟩
    obtain ⟨spelled, grown, grow, length⟩ := spell_of_scan [] read
    have listed := Tree.flatMap_of_foldlM_grow? grow
    exact ⟨spelled, grown.reverse, by simpa using listed.symm, by rw [List.length_reverse, length]⟩
  · rintro ⟨spelled, forest, rfl, rfl⟩
    obtain ⟨found, read, tokens, depth⟩ := exists_scan spelled (Tree.foldlM_grow?_flatMap forest []) 0
    exact ⟨found, read, tokens, by simpa using depth⟩

end Expression

/-! ## The first lexeme at fault -/

section Faults

variable [Neg α] [NatCast α] [OfScientific α]

variable (α) in
/-- A lexeme that cannot be read after others: it is no word, or it is an operation, and the trees that the others list are fewer
than its operands. -/
inductive Lexeme.AtFault (before : List (List Char)) (lexeme : List Char) : ExpressionError → Prop
  | unknown (unknown : ∀ token : Token α, Token.ofWord lexeme ≠ .ok token) :
      AtFault before lexeme (.invalidToken (String.ofList lexeme))
  | missing (op : Operator) (forest : List (Tree α)) (word : (Token.ofWord lexeme : Except _ (Token α)) = .ok (.operator op))
      (listed : Lexeme.Spell before (forest.flatMap Tree.postorder)) (few : forest.length < op.arity) :
      AtFault before lexeme (.missingOperand op)

variable (α) in
/-- No lexeme is at fault. -/
def Lexeme.Faultless (lexemes : List (List Char)) : Prop :=
  ∀ before lexeme after error, lexemes = before ++ lexeme :: after → ¬AtFault α before lexeme error

variable (α) in
/-- The error of the first lexeme that is at fault. -/
def Lexeme.FirstFault (lexemes : List (List Char)) (error : ExpressionError) : Prop :=
  ∃ before lexeme after, lexemes = before ++ lexeme :: after ∧ AtFault α before lexeme error ∧ Faultless α before

/-- A word that has no meaning is an invalid token. -/
theorem Token.ofWord_error {lexeme : List Char} {error : ExpressionError}
    (h : (Token.ofWord lexeme : Except _ (Token α)) = .error error) : error = .invalidToken (String.ofList lexeme) := by
  unfold Token.ofWord at h
  split at h
  · cases h
  · split at h
    · cases h
    · split at h
      · cases h
      · split at h
        · cases h
        · cases h
          rfl

namespace Expression

variable {lexemes before after : List (List Char)} {lexeme : List Char} {error : ExpressionError}

/-- The lexeme that a scan does not accept is at fault: what the scan has counted are the trees before it. -/
theorem unacceptable_iff_atFault {found : Scan α} (read : scan 0 0 before = .ok found) :
    Unacceptable α found.depth lexeme error ↔ Lexeme.AtFault α before lexeme error := by
  obtain ⟨spelled, forest, listed, length⟩ := scan_iff_forest.1 ⟨found, read, rfl, rfl⟩
  constructor
  · rintro (unknown | ⟨token, word, missing⟩)
    · rw [Token.ofWord_error unknown]
      refine .unknown fun token known => ?_
      rw [unknown] at known
      cases known
    · obtain ⟨op, rfl, few, rfl⟩ := Token.depthAfter_error.1 missing
      exact .missing op forest word (listed ▸ spelled) (length ▸ few)
  · rintro (unknown | ⟨op, forest', word, listed', few⟩)
    · cases h : (Token.ofWord lexeme : Except _ (Token α)) with
      | error error' =>
        rw [← Token.ofWord_error h]
        exact .inl h
      | ok token => exact absurd h (unknown token)
    · obtain ⟨found', read', -, depth⟩ := scan_iff_forest.2 ⟨listed', forest', rfl, rfl⟩
      obtain rfl := Except.ok.inj (read.symm.trans read')
      exact .inr ⟨_, word, Token.depthAfter_error.2 ⟨op, rfl, depth ▸ few, rfl⟩⟩

/-- A scan ends at a lexeme that is not accepted, whatever comes after it. -/
theorem scan_of_unacceptable {depth maxDepth : Nat} {found : Scan α} (read : scan depth maxDepth before = .ok found)
    (unacceptable : Unacceptable α found.depth lexeme error) (after : List (List Char)) :
    (scan depth maxDepth (before ++ lexeme :: after) : Except _ (Scan α)) = .error error := by
  induction before generalizing depth maxDepth found with
  | nil =>
    cases read
    rcases unacceptable with unknown | ⟨token, word, missing⟩
    · exact scan_cons_error.2 (.inl unknown)
    · exact scan_cons_error.2 (.inr ⟨token, word, .inl missing⟩)
  | cons first before ih =>
    obtain ⟨token, next, rest, word, count, more, rfl⟩ := scan_cons_ok.1 read
    exact scan_cons_error.2 (.inr ⟨token, word, .inr ⟨next, count, ih more unacceptable⟩⟩)

/-- A scan that has ended is not changed by what comes after. -/
theorem scan_error_append {depth maxDepth : Nat} (failed : (scan depth maxDepth before : Except _ (Scan α)) = .error error)
    (after : List (List Char)) : (scan depth maxDepth (before ++ after) : Except _ (Scan α)) = .error error := by
  obtain ⟨earlier, lexeme, later, found, rfl, read, unacceptable⟩ := exists_unacceptable_of_scan_error failed
  rw [List.append_assoc, List.cons_append]
  exact scan_of_unacceptable read unacceptable _

/-- Lexemes of which none is at fault are those that list trees. -/
theorem faultless_iff :
    Lexeme.Faultless α lexemes ↔ ∃ forest : List (Tree α), Lexeme.Spell lexemes (forest.flatMap Tree.postorder) := by
  constructor
  · intro faultless
    cases read : (scan 0 0 lexemes : Except _ (Scan α)) with
    | error error =>
      obtain ⟨before, lexeme, after, found, split, read', unacceptable⟩ := exists_unacceptable_of_scan_error read
      exact absurd ((unacceptable_iff_atFault read').1 unacceptable) (faultless _ _ _ _ split)
    | ok found =>
      obtain ⟨spelled, forest, listed, -⟩ := scan_iff_forest.1 ⟨found, read, rfl, rfl⟩
      exact ⟨forest, listed ▸ spelled⟩
  · rintro ⟨forest, spelled⟩ before lexeme after error rfl fault
    obtain ⟨found, read, -⟩ := scan_iff_forest.2 ⟨spelled, forest, rfl, rfl⟩
    cases read' : (scan 0 0 before : Except _ (Scan α)) with
    | error error' => cases read.symm.trans (scan_error_append read' (lexeme :: after))
    | ok found' =>
      have failed := scan_of_unacceptable read' ((unacceptable_iff_atFault read').2 fault) after
      cases read.symm.trans failed

/-- A scan ends with the error of the first lexeme that is at fault. -/
theorem scan_error_iff : (scan 0 0 lexemes : Except _ (Scan α)) = .error error ↔ Lexeme.FirstFault α lexemes error := by
  constructor
  · intro failed
    obtain ⟨before, lexeme, after, found, split, read, unacceptable⟩ := exists_unacceptable_of_scan_error failed
    obtain ⟨spelled, forest, listed, -⟩ := scan_iff_forest.1 ⟨found, read, rfl, rfl⟩
    exact ⟨before, lexeme, after, split, (unacceptable_iff_atFault read).1 unacceptable,
      faultless_iff.2 ⟨forest, listed ▸ spelled⟩⟩
  · rintro ⟨before, lexeme, after, rfl, fault, faultless⟩
    obtain ⟨forest, spelled⟩ := faultless_iff.1 faultless
    obtain ⟨found, read, -⟩ := scan_iff_forest.2 ⟨spelled, forest, rfl, rfl⟩
    exact scan_of_unacceptable read ((unacceptable_iff_atFault read).2 fault) after

/-- A text is an expression if its lexemes list one tree. -/
theorem parse_iff_tree {source : String} {tokens : List (Token α)} :
    (∃ e, parse source = .ok e ∧ e.tokens = tokens) ↔
      Lexeme.Spell (Lexeme.ofSource source.toList) tokens ∧ ∃ t : Tree α, tokens = t.postorder := by
  constructor
  · rintro ⟨e, parsed, rfl⟩
    obtain ⟨found, read, one, tokens⟩ := scan_of_parse parsed
    obtain ⟨spelled, forest, listed, length⟩ := scan_iff_forest.1 ⟨found, read, rfl, rfl⟩
    obtain ⟨t, rfl⟩ := List.length_eq_one_iff.1 (length.trans one)
    rw [tokens]
    exact ⟨spelled, t, by simpa using listed⟩
  · rintro ⟨spelled, t, rfl⟩
    obtain ⟨found, read, tokens, one⟩ := scan_iff_forest.2 ⟨spelled, [t], by simp, rfl⟩
    refine ⟨⟨String.ofList (Text.trim source.toList), found.tokens, found.maxDepth⟩, ?_, tokens⟩
    simp [parse, read, one, bind, Except.bind, pure, Except.pure]

/-- A text that is no expression has a lexeme at fault, or does not list one tree. -/
theorem parse_error_iff {source : String} :
    (parse source : Except _ (Expression α)) = .error error ↔
      Lexeme.FirstFault α (Lexeme.ofSource source.toList) error ∨
        Lexeme.Faultless α (Lexeme.ofSource source.toList) ∧ ∃ forest : List (Tree α),
          Lexeme.Spell (Lexeme.ofSource source.toList) (forest.flatMap Tree.postorder) ∧ forest.length ≠ 1 ∧
            error = .stackSize forest.length := by
  rw [← scan_error_iff]
  constructor
  · intro failed
    obtain ⟨before, stops⟩ := stops_of_parse_error failed
    cases stops with
    | lexeme before lexeme after found split read unacceptable =>
      rw [split]
      exact .inl (scan_of_unacceptable read unacceptable after)
    | count found read count size =>
      obtain ⟨spelled, forest, listed, length⟩ := scan_iff_forest.1 ⟨found, read, rfl, rfl⟩
      rw [listed] at spelled
      exact .inr ⟨faultless_iff.2 ⟨forest, spelled⟩, forest, spelled, length ▸ count, length ▸ size⟩
  · rintro (failed | ⟨-, forest, spelled, count, rfl⟩)
    · simp [parse, failed, bind, Except.bind]
    · obtain ⟨found, read, -, depth⟩ := scan_iff_forest.2 ⟨spelled, forest, rfl, rfl⟩
      rw [← depth] at count ⊢
      simp [parse, read, count, bind, Except.bind, throw, throwThe, MonadExceptOf.throw]

/-- The lexemes of a text that goes on behind a blank are those of both its parts. -/
theorem ofSource_append_blank (source more : List Char) {blank : Char} (h : Text.isBlank blank = true) :
    Lexeme.ofSource (source ++ blank :: more) = Lexeme.ofSource source ++ Lexeme.ofSource more := by
  simp only [Lexeme.ofSource, Text.words_append_blank source more h, List.flatMap_append]

/-- A text is an expression if and only if its lexemes are words for the tokens of a tree. These are then the tokens of the
expression, and they list no other tree. A text that is none is refused for the first lexeme that is no word or has fewer values
before it than it takes, and only if there is no such lexeme for the number of values at the end. So what comes after such a
lexeme makes no difference, be it behind a blank or not. -/
theorem parse_accepts_postorder (source : String) :
    ((∃ e : Expression α, parse source = .ok e) ↔
      ∃ t : Tree α, Lexeme.Spell (Lexeme.ofSource source.toList) t.postorder) ∧
    (∀ e : Expression α, parse source = .ok e →
      Lexeme.Spell (Lexeme.ofSource source.toList) e.tokens ∧ ∃! t : Tree α, e.tokens = t.postorder) ∧
    (∀ error, (parse source : Except _ (Expression α)) = .error error ↔
      Lexeme.FirstFault α (Lexeme.ofSource source.toList) error ∨
        Lexeme.Faultless α (Lexeme.ofSource source.toList) ∧ ∃ forest : List (Tree α),
          Lexeme.Spell (Lexeme.ofSource source.toList) (forest.flatMap Tree.postorder) ∧ forest.length ≠ 1 ∧
            error = .stackSize forest.length) ∧
    ∀ error, (parse source : Except _ (Expression α)) = .error error → (∀ count, error ≠ .stackSize count) →
      (∀ extended : String, Lexeme.ofSource source.toList <+: Lexeme.ofSource extended.toList →
        (parse extended : Except _ (Expression α)) = .error error) ∧
      ∀ (blank : Char) (more : List Char), Text.isBlank blank = true →
        (parse (String.ofList (source.toList ++ blank :: more)) : Except _ (Expression α)) = .error error := by
  refine ⟨?_, ?_, fun error => parse_error_iff, ?_⟩
  · constructor
    · rintro ⟨e, parsed⟩
      obtain ⟨spelled, t, listed⟩ := parse_iff_tree.1 ⟨e, parsed, rfl⟩
      exact ⟨t, listed ▸ spelled⟩
    · rintro ⟨t, spelled⟩
      obtain ⟨e, parsed, -⟩ := parse_iff_tree.2 ⟨spelled, t, rfl⟩
      exact ⟨e, parsed⟩
  · intro e parsed
    obtain ⟨spelled, t, listed⟩ := parse_iff_tree.1 ⟨e, parsed, rfl⟩
    exact ⟨spelled, t, listed, fun t' listed' => Tree.postorder_injective (listed'.symm.trans listed)⟩
  · intro error failed early
    have kept (extended : String) (more : Lexeme.ofSource source.toList <+: Lexeme.ofSource extended.toList) :
        (parse extended : Except _ (Expression α)) = .error error := by
      rcases parse_error_iff.1 failed with fault | ⟨-, forest, -, -, size⟩
      · obtain ⟨after, split⟩ := more
        have ended := scan_error_append (scan_error_iff.2 fault) after
        rw [split] at ended
        exact parse_error_iff.2 (.inl (scan_error_iff.1 ended))
      · exact absurd size (early _)
    refine ⟨kept, fun blank more h => kept _ ?_⟩
    rw [String.toList_ofList, ofSource_append_blank _ _ h]
    exact List.prefix_append _ _

/-- In `z +` an operand is missing, and so it is in `z + foo`, while `z 1 +` is the sum and nothing else. -/
theorem parse_z_plus :
    (parse "z +" : Except _ (Expression Float)) = .error (.missingOperand (.binary .add)) ∧
      (parse "z + foo" : Except _ (Expression Float)) = .error (.missingOperand (.binary .add)) ∧
      ∃ e : Expression Float, parse "z 1 +" = .ok e ∧ ∃! t : Tree Float, e.tokens = t.postorder := by
  have failed : (parse "z +" : Except _ (Expression Float)) = .error (.missingOperand (.binary .add)) := rfl
  refine ⟨failed, ?_, ?_⟩
  · exact ((parse_accepts_postorder "z +").2.2.2 _ failed (by rintro _ ⟨⟩)).2 ' ' ['f', 'o', 'o'] rfl
  · obtain ⟨e, parsed⟩ : ∃ e : Expression Float, parse "z 1 +" = .ok e := ⟨_, rfl⟩
    exact ⟨e, parsed, ((parse_accepts_postorder "z 1 +").2.1 e parsed).2⟩

end Expression

end Faults

end DomainColoring
