import DomainColoring.Proofs.Postfix.Grammar
import DomainColoring.Proofs.Postfix.Literal

/-!
# The characters of an expression

Words that can be read are written in characters up to `U+00FF`, the two other symbols for multiplication and division among them.
Between the words of an expression there may stand every blank that there is, so a character beyond `U+00FF` in it is a blank
(`Expression.isBlank_of_wide`).
-/

namespace DomainColoring

variable {α : Type} [Neg α] [NatCast α] [OfScientific α]

/-! ## Words -/

namespace Token

/-- A word in characters up to `U+00FF`. -/
def Narrow (word : List Char) : Prop :=
  ∀ c ∈ word, c.toNat < 256

instance (word : List Char) : Decidable (Narrow word) :=
  List.decidableBAll _ word

/-- Literals are written in narrow characters. -/
theorem narrow_of_literal? {word : List Char} {value : ComplexNumber α} (h : literal? word = some value) : Narrow word := by
  obtain ⟨l, rfl⟩ := Literal.exists_text h
  intro c member
  exact (l.plain_text c member).2.trans (by decide)

/-- Operation symbols are narrow characters. -/
theorem narrow_of_symbol? {word : List Char} {op : BinaryOperator} (h : symbol? word = some op) : Narrow word := by
  unfold symbol? at h
  split at h
  · unfold BinaryOperator.ofSymbol? at h
    split at h
    case h_8 => cases h
    all_goals decide
  · cases h

theorem narrow_of_ofName? {word : List Char} {op : UnaryOperator} (h : UnaryOperator.ofName? word = some op) : Narrow word := by
  rw [← name_of_ofName? h]
  cases op <;> decide

/-- Every word that has a meaning is written in narrow characters. -/
theorem narrow_of_ofWord {word : List Char} {token : Token α} (h : ofWord word = .ok token) : Narrow word := by
  unfold ofWord at h
  split at h
  · rename_i literal
    exact narrow_of_literal? literal
  · split at h
    · rename_i letter
      rw [letter]
      decide
    · split at h
      · rename_i symbol
        exact narrow_of_symbol? symbol
      · split at h
        · rename_i name
          exact narrow_of_ofName? name
        · cases h

end Token

/-! ## Texts -/

namespace Expression

/-- An expression keeps its source without the blanks at its ends. -/
theorem source_of_parse {source : String} {e : Expression α} (h : parse source = .ok e) :
    e.source = String.ofList (Text.trim source.toList) := by
  unfold parse at h
  cases read : (scan 0 0 (Lexeme.ofSource source.toList) : Except _ (Scan α)) with
  | error error =>
    rw [read] at h
    cases h
  | ok found =>
    simp only [read, bind, Except.bind] at h
    split at h
    · cases h
      rfl
    · cases h

/-- Reading an expression again from its own text gives the same expression. -/
theorem parse_source {source : String} {e : Expression α} (h : parse source = .ok e) : parse e.source = .ok e := by
  have kept := source_of_parse h
  have text : e.source.toList = Text.trim source.toList := by rw [kept, String.toList_ofList]
  have same : (parse e.source : Except _ (Expression α)) = parse source := by
    rw [parse, parse, text, Lexeme.ofSource_trim, Text.trim_trim]
  rw [same, h]

/-- Every lexeme of an accepted source is written in narrow characters. -/
theorem narrow_of_mem_ofSource {source : String} {e : Expression α} (h : parse source = .ok e) {lexeme : List Char}
    (member : lexeme ∈ Lexeme.ofSource source.toList) : Token.Narrow lexeme := by
  have spelled := (parse_iff_tree.1 ⟨e, h, rfl⟩).1
  have word := List.mem_map_of_mem (f := (Token.ofWord · : List Char → Except _ (Token α))) member
  rw [spelled, List.mem_map] at word
  obtain ⟨token, -, word⟩ := word
  exact Token.narrow_of_ofWord word.symm

/-- A character beyond `U+00FF` in an expression is a blank. -/
theorem isBlank_of_wide {source : String} {e : Expression α} (h : parse source = .ok e) {c : Char} (member : c ∈ e.source.toList)
    (wide : 256 ≤ c.toNat) : Text.isBlank c = true := by
  by_contra visible
  rw [Bool.not_eq_true] at visible
  obtain ⟨lexeme, read, here⟩ := Lexeme.exists_mem_ofSource.2 ⟨member, visible⟩
  have narrow := narrow_of_mem_ofSource (parse_source h) read c here
  omega

end Expression

end DomainColoring
