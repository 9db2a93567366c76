import DomainColoring.Binary64
import DomainColoring.Proofs.Postfix.Grammar
import DomainColoring.Proofs.Text.Spacing

/-!
# Putting one expression into another

Where the variable of an expression is replaced by a second expression the result is their composition
(`Expression.substitution_composes`). The replacement is made in the text, word by word; the tokens, the tree and the depth of the
stack follow it, and on the stack the values of the second expression lie above those that wait in the first.
-/

namespace DomainColoring

/-! ## In a text -/

namespace Text

/-- A text in which each word `z` of another is replaced by a third text, with any blanks in addition to those around the word. All
else is as it was. -/
inductive Substitution (inner : List Char) : (outer result : List Char) → Prop
  | nil : Substitution inner [] []
  | blank {outer result : List Char} {c : Char} (blank : isBlank c = true) (rest : Substitution inner outer result) :
      Substitution inner (c :: outer) (c :: result)
  | word {word outer result : List Char} (isWord : IsWord word) (other : word ≠ ['z']) (opens : Opens outer)
      (rest : Substitution inner outer result) : Substitution inner (word ++ outer) (word ++ result)
  | z {front back outer result : List Char} (before : Blank front) (behind : Blank back) (opens : Opens outer)
      (rest : Substitution inner outer result) :
      Substitution inner (['z'] ++ outer) (front ++ (inner ++ (back ++ result)))

namespace Substitution

variable {inner outer result : List Char}

/-- In every text the replacement can be made. -/
theorem exists_result (inner outer : List Char) : ∃ result, Substitution inner outer result := by
  obtain ⟨pieces, spaced⟩ : ∃ pieces, Spaced pieces outer := ⟨_, words_eq_iff.1 rfl⟩
  induction spaced with
  | nil => exact ⟨[], .nil⟩
  | @blank _ _ c blank rest ih =>
    obtain ⟨result, replaced⟩ := ih
    exact ⟨c :: result, .blank blank replaced⟩
  | @word _ word _ isWord opens rest ih =>
    obtain ⟨result, replaced⟩ := ih
    have none : Blank [] := List.forall_mem_nil _
    by_cases letter : word = ['z']
    · rw [letter]
      exact ⟨_, .z none none opens replaced⟩
    · exact ⟨_, .word isWord letter opens replaced⟩

/-- Nothing or a blank comes first in the result if it does in the outer text. -/
theorem opens (h : Substitution inner outer result) (opens : Opens outer) : Opens result := by
  cases h with
  | nil => exact opens_nil
  | blank blank rest => exact opens_cons blank
  | word isWord other _ rest =>
    obtain ⟨c, word, rfl⟩ := List.exists_cons_of_ne_nil isWord.nonempty
    have blank : isBlank c = true := opens c rfl
    rw [isWord.visible c List.mem_cons_self] at blank
    cases blank
  | z before behind _ rest => cases opens 'z' rfl

/-- The words of the text that is put in stand in the place of the word `z`. -/
theorem words (h : Substitution inner outer result) :
    words result = (words outer).flatMap fun word => if word = ['z'] then words inner else [word] := by
  induction h with
  | nil => rfl
  | blank blank rest ih => rw [words_cons blank, words_cons blank, ih]
  | word isWord other opens rest ih =>
    rw [words_append_of_opens _ (rest.opens opens), words_append_of_opens _ opens, isWord.words, ih, List.flatMap_append,
      List.flatMap_singleton, if_neg other]
  | @z _ back _ result before behind opens rest ih =>
    have letter : Text.words ['z'] = [['z']] := IsWord.words ⟨List.cons_ne_nil _ _, List.forall_mem_singleton.2 rfl⟩
    have apart : Opens (back ++ result) := behind.opens_append (rest.opens opens)
    rw [before.words_append, words_append_of_opens inner apart, behind.words_append, words_append_of_opens _ opens, letter, ih,
      List.flatMap_append, List.flatMap_singleton, if_pos rfl]

end Substitution

end Text

/-- The lexemes of the text that is put in stand in the place of the lexeme `z`. -/
theorem Lexeme.ofSource_of_substitution {inner outer result : List Char} (h : Text.Substitution inner outer result) :
    ofSource result = (ofSource outer).flatMap fun lexeme => if lexeme = ['z'] then ofSource inner else [lexeme] := by
  have parts (text : List Char) : ofSource text = (Text.words text).flatMap ofWord := rfl
  rw [parts result, parts outer, h.words, List.flatMap_assoc, List.flatMap_assoc]
  refine List.flatMap_congr fun word _ => ?_
  by_cases letter : word = ['z']
  · rw [if_pos letter, letter]
    exact (List.append_nil _).symm
  · rw [if_neg letter, List.flatMap_singleton]
    -- A word that is not `z` has no lexeme `z`, as that is no symbol.
    have others : ∀ lexeme ∈ ofWord word, (if lexeme = ['z'] then ofSource inner else [lexeme]) = [lexeme] := by
      intro lexeme member
      refine if_neg ?_
      rintro rfl
      rw [ofWord] at member
      split at member
      · rename_i run
        obtain ⟨c, here, same⟩ := List.mem_map.1 member
        rw [List.cons.inj same |>.1] at here
        exact absurd (List.all_eq_true.1 run 'z' here) (by decide)
      · exact letter (List.mem_singleton.1 member).symm
    rw [List.flatMap_congr others]
    exact (List.flatMap_singleton' _).symm

/-! ## In a row of tokens -/

variable {α : Type}

/-- What stands for a token where the variable is replaced by other tokens. -/
def Token.substitute (inner : List (Token α)) : Token α → List (Token α)
  | .z => inner
  | token => [token]

section Spelling

variable [Neg α] [NatCast α] [OfScientific α] {lexemes : List (List Char)}

/-- The variable has one word. -/
theorem Token.ofWord_eq_z {lexeme : List Char} :
    (Token.ofWord lexeme : Except _ (Token α)) = .ok .z ↔ lexeme = ['z'] := by
  constructor
  · intro h
    unfold Token.ofWord at h
    split at h
    · cases h
    · split at h
      · assumption
      · split at h
        · cases h
        · split at h <;> cases h
  · rintro rfl
    rfl

theorem Lexeme.spell_singleton {token : Token α} (h : Spell lexemes [token]) :
    ∃ lexeme, lexemes = [lexeme] ∧ Token.ofWord lexeme = .ok token :=
  List.map_eq_singleton_iff.1 h

theorem Lexeme.spell_append {tokens more : List (Token α)} (h : Spell lexemes (tokens ++ more)) :
    ∃ first last, lexemes = first ++ last ∧ Spell first tokens ∧ Spell last more := by
  rw [Spell, List.map_append] at h
  exact List.map_eq_append_iff.1 h

/-- Where lexemes are words for tokens, and others for the tokens put in, they remain so when these are put in. -/
theorem Lexeme.Spell.substitute {others : List (List Char)} {tokens inner : List (Token α)} (h : Spell lexemes tokens) (put : Spell others inner) :
    Spell (lexemes.flatMap fun lexeme => if lexeme = ['z'] then others else [lexeme]) (tokens.flatMap (Token.substitute inner)) := by
  induction lexemes generalizing tokens with
  | nil =>
    cases tokens with
    | nil => rfl
    | cons token tokens => cases h
  | cons lexeme lexemes ih =>
    cases tokens with
    | nil => cases h
    | cons token tokens =>
      obtain ⟨first, rest⟩ := List.cons.inj h
      have here : Spell (if lexeme = ['z'] then others else [lexeme]) (token.substitute inner) := by
        by_cases letter : lexeme = ['z']
        · rw [Token.ofWord_eq_z.2 letter] at first
          cases first
          rwa [if_pos letter]
        · have other : token.substitute inner = [token] := by
            cases token with
            | z => exact absurd (Token.ofWord_eq_z.1 first) letter
            | _ => rfl
          rw [if_neg letter, other]
          exact congrArg (List.cons · []) first
      rw [List.flatMap_cons, List.flatMap_cons, Spell, List.map_append, List.map_append, here, ih rest]

end Spelling

/-! ## In a tree -/

namespace Tree

/-- A tree with another one in the place of the variable. -/
def substitute : Tree α → (inner : Tree α) → Tree α
  | literal value, _ => literal value
  | z, inner => inner
  | unary op operand, inner => unary op (operand.substitute inner)
  | binary op left right, inner => binary op (left.substitute inner) (right.substitute inner)

variable {inner t : Tree α}

/-- The listing of a tree with another for its variable has the listing of that one for each variable. -/
theorem postorder_substitute (t inner : Tree α) :
    (t.substitute inner).postorder = t.postorder.flatMap (Token.substitute inner.postorder) := by
  induction t with
  | literal value => rfl
  | z => exact (List.append_nil _).symm
  | unary op operand ih =>
    rw [substitute, postorder, ih, postorder, List.flatMap_append]
    rfl
  | binary op left right ihl ihr =>
    rw [substitute, postorder, ihl, ihr, postorder, List.flatMap_append, List.flatMap_append]
    rfl

/-- Nothing is replaced in a tree without the variable. -/
theorem substitute_of_not_mem (absent : .z ∉ t.postorder) : t.substitute inner = t := by
  induction t with
  | literal value => rfl
  | z => exact absurd List.mem_cons_self absent
  | unary op operand ih =>
    rw [postorder, List.mem_append, not_or] at absent
    rw [substitute, ih absent.1]
  | binary op left right ihl ihr =>
    rw [postorder, List.mem_append, List.mem_append, not_or, not_or] at absent
    rw [substitute, ihl absent.1, ihr absent.2.1]

/-- The most values that wait at one time while a tree is evaluated. -/
def depth : Tree α → Nat
  | literal _ => 1
  | z => 1
  | unary _ operand => operand.depth
  | binary _ left right => max left.depth (right.depth + 1)

/-- Every tree needs room for one value. -/
theorem depth_pos (t : Tree α) : 0 < t.depth := by
  induction t with
  | literal value => exact Nat.one_pos
  | z => exact Nat.one_pos
  | unary op operand ih => exact ih
  | binary op left right ihl ihr => exact Nat.lt_of_lt_of_le ihl (Nat.le_max_left _ _)

/-- One value waits when what is put in begins, and none of its own afterwards. -/
theorem depth_substitute_lt (t inner : Tree α) : (t.substitute inner).depth < t.depth + inner.depth := by
  have positive := inner.depth_pos
  induction t with
  | literal value => exact Nat.lt_add_of_pos_right positive
  | z => exact Nat.lt_add_of_pos_left Nat.one_pos
  | unary op operand ih => exact ih
  | binary op left right ihl ihr =>
    simp only [substitute, depth]
    omega

section Value

variable [Add α] [Sub α] [Mul α] [Div α] [Neg α] [BEq α] [NatCast α] [Elementary α] {point : ComplexNumber α}

/-- A tree is evaluated at the value of what is put in. -/
theorem value_substitute {w : ComplexNumber α} (h : inner.value point = .ok w) (t : Tree α) :
    (t.substitute inner).value point = t.value w := by
  induction t with
  | literal value => rfl
  | z => exact h
  | unary op operand ih => rw [substitute, value, value, ih]
  | binary op left right ihl ihr => rw [substitute, value, value, ihl, ihr]

/-- Where what is put in has no value there is none. -/
theorem value_substitute_of_error {error : ExpressionError} (h : inner.value point = .error error) (occurs : .z ∈ t.postorder) :
    (t.substitute inner).value point = .error .divisionByZero := by
  induction t with
  | literal value => cases List.mem_singleton.1 occurs
  | z => rw [substitute, h, (fails_of_error h).1]
  | unary op operand ih =>
    rw [postorder, List.mem_append] at occurs
    rcases occurs with occurs | last
    · rw [substitute, value, ih occurs]
    · cases List.mem_singleton.1 last
  | binary op left right ihl ihr =>
    rw [postorder, List.mem_append, List.mem_append] at occurs
    rw [substitute, value]
    cases first : (left.substitute inner).value point with
    | error error' => rw [(fails_of_error first).1]
    | ok a =>
      rcases occurs with occurs | occurs | last
      · rw [ihl occurs] at first
        cases first
      · simp only [ihr occurs]
      · cases List.mem_singleton.1 last

/-- A tree without a value ends the run with a division by zero, whatever is on the stack before. -/
theorem run_postorder_of_error {error : ExpressionError} (h : t.value point = .error error) (stack : Stack α) :
    ∃ left, Token.run point t.postorder stack = .error (.divisionByZero, left) := by
  obtain ⟨-, before, failed, fails⟩ := fails_of_error h
  obtain ⟨after, reached, left, listed, run, step⟩ := fails.run stack
  refine ⟨left, ?_⟩
  rw [listed, Token.run_append, run, Token.run_ok_bind, Token.run, List.foldlM_cons, step]
  rfl

end Value

end Tree

namespace Expression

/-- An expression that lists a tree has its value. -/
theorem eval_of_postorder [Add α] [Sub α] [Mul α] [Div α] [Neg α] [BEq α] [NatCast α] [Elementary α] {e : Expression α}
    {t : Tree α} (listed : e.tokens = t.postorder) (point : ComplexNumber α) : e.eval point = t.value point := by
  rw [eval, evalWith, listed, Stack.cleared]
  cases h : t.value point with
  | ok v =>
    rw [Tree.run_postorder h]
    rfl
  | error error =>
    obtain ⟨left, run⟩ := Tree.run_postorder_of_error h []
    rw [run, (Tree.fails_of_error h).1]

/-! ## What is read -/

section Reading

variable [Neg α] [NatCast α] [OfScientific α]

/-- A lexeme that can be read is read first, and the others are after it. -/
theorem scan_cons {depth maxDepth next : Nat} {lexeme : List Char} {token : Token α} (word : Token.ofWord lexeme = .ok token)
    (count : token.depthAfter depth = .ok next) (lexemes : List (List Char)) :
    scan depth maxDepth (lexeme :: lexemes) =
      (scan next (max maxDepth next) lexemes).map fun rest => { rest with tokens := token :: rest.tokens } := by
  rw [scan, word]
  simp only [bind, Except.bind, count]
  cases (scan next (max maxDepth next) lexemes : Except _ (Scan α)) <;> rfl

/-- A tree counts as one more value, and on the way there are as many more as its depth. -/
theorem scan_postorder (t : Tree α) {lexemes : List (List Char)} (spelled : Lexeme.Spell lexemes t.postorder)
    (more : List (List Char)) (depth maxDepth : Nat) :
    scan depth maxDepth (lexemes ++ more) =
      (scan (depth + 1) (max maxDepth (depth + t.depth)) more).map fun rest =>
        { rest with tokens := t.postorder ++ rest.tokens } := by
  induction t generalizing lexemes more depth maxDepth with
  | literal value =>
    obtain ⟨lexeme, rfl, word⟩ := Lexeme.spell_singleton spelled
    exact scan_cons word rfl more
  | z =>
    obtain ⟨lexeme, rfl, word⟩ := Lexeme.spell_singleton spelled
    exact scan_cons word rfl more
  | unary op operand ih =>
    obtain ⟨first, last, rfl, inside, applied⟩ := Lexeme.spell_append spelled
    obtain ⟨lexeme, rfl, word⟩ := Lexeme.spell_singleton applied
    have positive := operand.depth_pos
    have count : (Token.operator (.unary op) : Token α).depthAfter (depth + 1) = .ok (depth + 1) := by
      simp [Token.depthAfter, Operator.arity]
    have highest : max (max maxDepth (depth + operand.depth)) (depth + 1) = max maxDepth (depth + operand.depth) := by omega
    rw [List.append_assoc, ih inside, List.singleton_append, scan_cons word count, highest]
    cases read : (scan (depth + 1) (max maxDepth (depth + operand.depth)) more : Except _ (Scan α)) <;>
      simp [Except.map, Tree.depth, Tree.postorder, read]
  | binary op left right ihl ihr =>
    obtain ⟨first, others, rfl, inside, applied⟩ := Lexeme.spell_append spelled
    obtain ⟨second, last, rfl, inside', applied⟩ := Lexeme.spell_append applied
    obtain ⟨lexeme, rfl, word⟩ := Lexeme.spell_singleton applied
    have positive := left.depth_pos
    have count : (Token.operator (.binary op) : Token α).depthAfter (depth + 1 + 1) = .ok (depth + 1) := by
      simp [Token.depthAfter, Operator.arity]
    have highest : max (max (max maxDepth (depth + left.depth)) (depth + 1 + right.depth)) (depth + 1) =
        max maxDepth (depth + max left.depth (right.depth + 1)) := by omega
    rw [List.append_assoc, ihl inside, List.append_assoc, ihr inside', List.singleton_append, scan_cons word count, highest]
    cases read : (scan (depth + 1) (max maxDepth (depth + max left.depth (right.depth + 1))) more : Except _ (Scan α)) <;>
      simp [Except.map, Tree.depth, Tree.postorder, read]

/-- A text that is a tree is read as this tree. -/
theorem parse_of_spell {source : String} {t : Tree α} (spelled : Lexeme.Spell (Lexeme.ofSource source.toList) t.postorder) :
    parse source = .ok ⟨String.ofList (Text.trim source.toList), t.postorder, t.depth⟩ := by
  have read := scan_postorder t spelled [] 0 0
  rw [List.append_nil] at read
  rw [parse, read]
  simp [scan, Except.map, bind, Except.bind, pure, Except.pure]

/-- What has been read is a tree, and this says all about it. -/
theorem exists_tree {source : String} {e : Expression α} (h : parse source = .ok e) :
    ∃ t : Tree α, Lexeme.Spell (Lexeme.ofSource source.toList) t.postorder ∧ e.tokens = t.postorder ∧ e.maxDepth = t.depth := by
  obtain ⟨spelled, t, listed⟩ := parse_iff_tree.1 ⟨e, h, rfl⟩
  rw [listed] at spelled
  have read := parse_of_spell spelled
  rw [h] at read
  cases read
  exact ⟨t, spelled, rfl, rfl⟩

end Reading

/-- Let one expression be put into another: in the text of the outer one, which may be any text that is read as it, each lexeme `z`
is replaced by the text of the inner one, set off by blanks. That can be done, and the result is read as an expression. It needs
less depth on the stack than both together. Where the inner expression has a value, the result has that of the outer expression
there; where it has none, the result divides by zero, as long as the variable occurs in the outer expression. Without the variable
nothing changes. -/
theorem substitution_composes [Add α] [Sub α] [Mul α] [Div α] [Neg α] [BEq α] [NatCast α] [Elementary α] [OfScientific α]
    {outer inner : String} {f g : Expression α} (hf : parse outer = .ok f) (hg : parse inner = .ok g) :
    (∃ result : String, Text.Substitution inner.toList outer.toList result.toList) ∧
    ∀ result : String, Text.Substitution inner.toList outer.toList result.toList →
      ∃ h : Expression α, parse result = .ok h ∧ h.maxDepth ≤ f.maxDepth + g.maxDepth - 1 ∧
        ∀ point : ComplexNumber α,
          (∀ w, g.eval point = .ok w → h.eval point = f.eval w) ∧
          (∀ error, g.eval point = .error error → .z ∈ f.tokens → h.eval point = .error .divisionByZero) ∧
          (.z ∉ f.tokens → h.eval point = f.eval point) := by
  obtain ⟨t, spelled, listed, depth⟩ := exists_tree hf
  obtain ⟨u, spelled', listed', depth'⟩ := exists_tree hg
  constructor
  · obtain ⟨result, replaced⟩ := Text.Substitution.exists_result inner.toList outer.toList
    exact ⟨String.ofList result, by rwa [String.toList_ofList]⟩
  · intro result replaced
    have spells : Lexeme.Spell (Lexeme.ofSource result.toList) (t.substitute u).postorder := by
      rw [Lexeme.ofSource_of_substitution replaced, Tree.postorder_substitute]
      exact spelled.substitute spelled'
    refine ⟨_, parse_of_spell spells, ?_, fun point => ?_⟩
    · have less := t.depth_substitute_lt u
      rw [depth, depth']
      exact Nat.le_sub_one_of_lt less
    · rw [listed, eval_of_postorder listed', eval_of_postorder rfl, eval_of_postorder listed]
      refine ⟨?_, fun error => Tree.value_substitute_of_error, ?_⟩
      · intro w value
        rw [eval_of_postorder listed, Tree.value_substitute value]
      · intro absent
        rw [Tree.substitute_of_not_mem absent]

/-- With `1 z /` put into `z z *` for the variable, there is one value more on the stack, and no value at zero. -/
theorem substitution_into_square :
    ∃ h : Expression Float, parse "1 z / \t1 z /  *" = .ok h ∧ h.maxDepth ≤ 3 ∧ h.eval ⟨2, 0⟩ = .ok ⟨0.25, 0⟩ ∧
      h.eval ⟨0, 0⟩ = .error .divisionByZero := by
  obtain ⟨f, hf, two, occurs, square⟩ : ∃ f : Expression Float, parse "z z *" = .ok f ∧ f.maxDepth = 2 ∧ .z ∈ f.tokens ∧
      f.eval ⟨0.5, 0⟩ = .ok ⟨0.25, 0⟩ := ⟨_, rfl, rfl, List.mem_cons_self, rfl⟩
  obtain ⟨g, hg, two', half, pole⟩ : ∃ g : Expression Float, parse "1 z /" = .ok g ∧ g.maxDepth = 2 ∧
      g.eval ⟨2, 0⟩ = .ok ⟨0.5, 0⟩ ∧ g.eval ⟨0, 0⟩ = .error .divisionByZero := ⟨_, rfl, rfl, rfl, rfl⟩
  have replaced : Text.Substitution "1 z /".toList (['z'] ++ ' ' :: (['z'] ++ ' ' :: (['*'] ++ [])))
      ([] ++ ("1 z /".toList ++ ([] ++ ' ' :: (['\t'] ++ ("1 z /".toList ++ ([' '] ++ ' ' :: (['*'] ++ []))))))) :=
    .z (by decide) (by decide) (Text.opens_cons rfl) (.blank rfl (.z (by decide) (by decide) (Text.opens_cons rfl)
      (.blank rfl (.word (by decide) (by decide) Text.opens_nil .nil))))
  obtain ⟨h, parsed, less, composed⟩ := (substitution_composes hf hg).2 "1 z / \t1 z /  *" replaced
  rw [two, two'] at less
  exact ⟨h, parsed, less, ((composed ⟨2, 0⟩).1 _ half).trans square, (composed ⟨0, 0⟩).2.1 _ pole occurs⟩

end Expression

end DomainColoring
