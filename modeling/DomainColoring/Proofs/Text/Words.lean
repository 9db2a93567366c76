import Mathlib.Data.List.DropRight
import DomainColoring.Postfix.Token

/-!
# Words between blanks

The words of a text are its characters without the blanks (`flatten_words`), and those of a text that goes on behind a blank are the
words of both its parts (`words_append_blank`). So the blanks at its ends, which are what trimming takes away, make no difference to
the words or the lexemes of a text (`Lexeme.ofSource_trim`).
-/

namespace DomainColoring

namespace Text

/-! ## Characters of words -/

/-- Between blanks there are all characters but these. -/
theorem flatten_splitOnP (text : List Char) : (text.splitOnP isBlank).flatten = text.filter (!isBlank ·) := by
  induction text with
  | nil => rfl
  | cons c text ih =>
    rw [List.splitOnP_cons_eq_if_modifyHead]
    by_cases blank : isBlank c = true
    · simp [blank, ih]
    · obtain ⟨first, others, split⟩ := List.exists_cons_of_ne_nil (List.splitOnP_ne_nil isBlank text)
      rw [split, List.flatten_cons] at ih
      simp [blank, split, ih]

/-- The words of a text are the text without its blanks. -/
theorem flatten_words (text : List Char) : (words text).flatten = text.filter (!isBlank ·) := by
  rw [words, List.flatten_filter_not_isEmpty, flatten_splitOnP]

/-! ## Trimming -/

/-- A blank divides a text into words before and after it. -/
theorem words_append_blank (text more : List Char) {blank : Char} (h : isBlank blank = true) :
    words (text ++ blank :: more) = words text ++ words more := by
  rw [words, List.splitOnP_append_cons text more h, List.filter_append]
  rfl

/-- Dropping blanks in front drops no word. -/
theorem words_dropWhile (text : List Char) : words (text.dropWhile isBlank) = words text := by
  induction text with
  | nil => rfl
  | cons c text ih =>
    by_cases blank : isBlank c = true
    · rw [List.dropWhile_cons_of_pos blank, ih]
      exact (words_append_blank [] text blank).symm
    · rw [List.dropWhile_cons_of_neg blank]

/-- Dropping blanks at the end drops no word. -/
theorem words_rdropWhile (text : List Char) : words (text.rdropWhile isBlank) = words text := by
  induction text using List.reverseRecOn with
  | nil => rfl
  | append_singleton text c ih =>
    by_cases blank : isBlank c = true
    · rw [List.rdropWhile_concat_pos isBlank text c blank, ih, words_append_blank text [] blank]
      exact (List.append_nil _).symm
    · rw [List.rdropWhile_concat_neg isBlank text c blank]

theorem words_trim (text : List Char) : words (trim text) = words text :=
  (words_rdropWhile _).trans (words_dropWhile text)

/-- A text that begins with no blank and ends with none is not trimmed. -/
theorem trim_eq_self {text : List Char} (first : text.dropWhile isBlank = text) (last : text.rdropWhile isBlank = text) :
    trim text = text := by
  rw [trim, first]
  exact last

/-- A text that has been trimmed is not trimmed again. -/
theorem trim_trim (text : List Char) : trim (trim text) = trim text := by
  have front : trim text <+: text.dropWhile isBlank := List.rdropWhile_prefix isBlank _
  refine trim_eq_self ?_ (List.rdropWhile_idempotent isBlank _)
  cases kept : trim text with
  | nil => rfl
  | cons c rest =>
    -- What is kept begins with what comes first behind the blanks in front.
    rw [kept] at front
    have some : text.dropWhile isBlank ≠ [] := by
      intro none
      rw [none, List.prefix_nil] at front
      cases front
    have visible : isBlank c = false := by
      have first := List.head_dropWhile_not isBlank some
      rwa [← List.IsPrefix.head front (List.cons_ne_nil c rest)] at first
    rw [List.dropWhile_cons_of_neg]
    rw [visible]
    exact Bool.false_ne_true

/-- A text without blanks is not trimmed. -/
theorem trim_of_visible {text : List Char} (visible : ∀ c ∈ text, isBlank c = false) : trim text = text := by
  refine trim_eq_self (List.dropWhile_eq_self_iff.2 fun some => ?_) (List.rdropWhile_eq_self_iff.2 fun some => ?_)
  · rw [visible _ (List.getElem_mem some)]
    exact Bool.false_ne_true
  · rw [visible _ (List.getLast_mem some)]
    exact Bool.false_ne_true

end Text

/-! ## Lexemes -/

namespace Lexeme

/-- The lexemes of a word are the word. -/
theorem flatten_ofWord (word : List Char) : (ofWord word).flatten = word := by
  rw [ofWord]
  split
  · rw [← List.flatMap_def, List.flatMap_singleton']
  · exact List.flatten_singleton

/-- The lexemes of a text are the text without its blanks. -/
theorem flatten_ofSource (source : List Char) : (ofSource source).flatten = source.filter (!Text.isBlank ·) := by
  rw [ofSource, ← Text.flatten_words]
  induction Text.words source with
  | nil => rfl
  | cons word others ih => rw [List.flatMap_cons, List.flatten_append, flatten_ofWord, ih, List.flatten_cons]

/-- A character stands in a lexeme exactly if it is no blank. -/
theorem exists_mem_ofSource {source : List Char} {c : Char} :
    (∃ lexeme ∈ ofSource source, c ∈ lexeme) ↔ c ∈ source ∧ Text.isBlank c = false := by
  rw [← List.mem_flatten, flatten_ofSource, List.mem_filter, Bool.not_eq_true']

/-- The blanks around a text make no difference to its lexemes. -/
theorem ofSource_trim (source : List Char) : ofSource (Text.trim source) = ofSource source := by
  rw [ofSource, Text.words_trim, ofSource]

end Lexeme

end DomainColoring
