import DomainColoring.Proofs.Text.Words

/-!
# Texts by their words

The words of a text are what is left of it between blanks: a text has the words `pieces` exactly if it is written by putting them one
after the other with blanks between (`words_eq_iff`). In the same way the trimmed text is what is left between the blanks at both
ends (`trim_eq_iff`). So two texts have the same words, or the same trimmed text, however many and whichever blanks there are.
-/

namespace DomainColoring.Text

/-- A row of blanks, perhaps an empty one. -/
def Blank (text : List Char) : Prop :=
  ∀ c ∈ text, isBlank c = true

instance (text : List Char) : Decidable (Blank text) :=
  List.decidableBAll _ text

/-- A row of characters of which none is a blank, and not an empty one. -/
structure IsWord (word : List Char) : Prop where
  nonempty : word ≠ []
  visible : ∀ c ∈ word, isBlank c = false

/-- A word has characters, and none of them is a blank. -/
theorem isWord_iff_all {word : List Char} : IsWord word ↔ word ≠ [] ∧ word.all (!isBlank ·) = true := by
  simp only [List.all_eq_true, Bool.not_eq_true']
  exact ⟨fun h => ⟨h.nonempty, h.visible⟩, fun h => ⟨h.1, h.2⟩⟩

instance (word : List Char) : Decidable (IsWord word) :=
  decidable_of_iff' _ isWord_iff_all

/-- Nothing comes, or a blank comes first. -/
def Opens (text : List Char) : Prop :=
  ∀ c ∈ text.head?, isBlank c = true

/-- A text in which some words stand one after the other, with blanks between any two of them and perhaps at the ends. -/
inductive Spaced : (pieces : List (List Char)) → (text : List Char) → Prop
  | nil : Spaced [] []
  | blank {pieces : List (List Char)} {text : List Char} {c : Char} (blank : isBlank c = true) (rest : Spaced pieces text) :
      Spaced pieces (c :: text)
  | word {pieces : List (List Char)} {word text : List Char} (isWord : IsWord word) (opens : Opens text)
      (rest : Spaced pieces text) : Spaced (word :: pieces) (word ++ text)

theorem opens_nil : Opens [] := by
  rintro c ⟨⟩

theorem opens_cons {c : Char} {text : List Char} (blank : isBlank c = true) : Opens (c :: text) := by
  rintro _ ⟨⟩
  exact blank

/-- Blanks in front change nothing about what comes first being a blank. -/
theorem Blank.opens_append {gap text : List Char} (blank : Blank gap) (opens : Opens text) : Opens (gap ++ text) := by
  cases gap with
  | nil => exact opens
  | cons c gap => exact opens_cons (blank c List.mem_cons_self)

/-! ## Words -/

theorem words_cons {c : Char} (blank : isBlank c = true) (text : List Char) : words (c :: text) = words text :=
  words_append_blank [] text blank

/-- Blanks in front add no words. -/
theorem Blank.words_append {gap : List Char} (blank : Blank gap) (text : List Char) : words (gap ++ text) = words text := by
  induction gap with
  | nil => rfl
  | cons c gap ih =>
    obtain ⟨first, others⟩ := List.forall_mem_cons.1 blank
    exact (words_cons first (gap ++ text)).trans (ih others)

/-- A word alone is its only word. -/
theorem IsWord.words {word : List Char} (h : IsWord word) : words word = [word] := by
  rw [Text.words, List.splitOnP_eq_singleton h.visible, List.filter_singleton, List.isEmpty_eq_false_iff.2 h.nonempty]
  rfl

/-- Where a text opens a new word begins, if any. -/
theorem words_append_of_opens (text : List Char) {more : List Char} (opens : Opens more) :
    words (text ++ more) = words text ++ words more := by
  cases more with
  | nil => rw [List.append_nil]; exact (List.append_nil _).symm
  | cons c more =>
    have blank : isBlank c = true := opens c rfl
    rw [words_append_blank text more blank, words_cons blank]

/-- The words that stand in a text are its words. -/
theorem Spaced.words {pieces : List (List Char)} {text : List Char} (h : Spaced pieces text) : words text = pieces := by
  induction h with
  | nil => rfl
  | blank blank rest ih => exact (words_cons blank _).trans ih
  | word isWord opens rest ih => rw [words_append_of_opens _ opens, isWord.words, ih, List.singleton_append]

/-- A character in front of a text belongs to its first word, or is a word of its own. -/
theorem Spaced.exists_cons {pieces : List (List Char)} {text : List Char} (h : Spaced pieces text) (c : Char) :
    ∃ pieces', Spaced pieces' (c :: text) := by
  by_cases blank : isBlank c = true
  · exact ⟨pieces, .blank blank h⟩
  · rw [Bool.not_eq_true] at blank
    have alone : IsWord [c] := ⟨List.cons_ne_nil c [], List.forall_mem_singleton.2 blank⟩
    cases h with
    | nil => exact ⟨[[c]], .word alone opens_nil .nil⟩
    | blank next rest => exact ⟨[c] :: pieces, .word alone (opens_cons next) (.blank next rest)⟩
    | @word others first text isWord opens rest =>
      have longer : IsWord (c :: first) := ⟨List.cons_ne_nil c first, List.forall_mem_cons.2 ⟨blank, isWord.visible⟩⟩
      exact ⟨(c :: first) :: others, .word longer opens rest⟩

/-- A text has some words exactly if it is these words with blanks between. -/
theorem words_eq_iff {text : List Char} {pieces : List (List Char)} : words text = pieces ↔ Spaced pieces text := by
  constructor
  · rintro rfl
    obtain ⟨pieces, spaced⟩ : ∃ pieces, Spaced pieces text := by
      induction text with
      | nil => exact ⟨[], .nil⟩
      | cons c text ih =>
        obtain ⟨pieces, spaced⟩ := ih
        exact spaced.exists_cons c
    rwa [spaced.words]
  · exact Spaced.words

/-- Those that stand in a text are words. -/
theorem Spaced.isWord {pieces : List (List Char)} {text : List Char} (h : Spaced pieces text) : ∀ word ∈ pieces, IsWord word := by
  induction h with
  | nil => exact List.forall_mem_nil _
  | blank blank rest ih => exact ih
  | word isWord opens rest ih => exact List.forall_mem_cons.2 ⟨isWord, ih⟩

/-- The words of a text are words. -/
theorem isWord_of_mem_words {text word : List Char} (h : word ∈ words text) : IsWord word :=
  (words_eq_iff.1 rfl).isWord word h

/-- What stands between blanks, or between a blank and an end, is a word of the text if it is a word at all. -/
theorem words_between {left word right : List Char} (before : Opens left.reverse) (isWord : IsWord word) (after : Opens right) :
    words (left ++ (word ++ right)) = words left ++ word :: words right := by
  have later : words (word ++ right) = word :: words right := by
    rw [words_append_of_opens word after, isWord.words, List.singleton_append]
  rcases List.eq_nil_or_concat left with rfl | ⟨left, c, rfl⟩
  · exact later
  · rw [List.concat_eq_append] at before ⊢
    have blank : isBlank c = true := before c (by simp)
    have first : words (left ++ [c]) = words left :=
      (words_append_blank left [] blank).trans (List.append_nil _)
    rw [List.append_assoc, List.singleton_append, words_append_blank left _ blank, first, later]

/-! ## Trimming -/

/-- A text with no blank at its ends. -/
structure Trimmed (text : List Char) : Prop where
  head : ∀ c ∈ text.head?, isBlank c = false
  last : ∀ c ∈ text.getLast?, isBlank c = false

/-- What is left of a text without the blanks at its ends. -/
def Trims (text kept : List Char) : Prop :=
  ∃ front back, text = front ++ (kept ++ back) ∧ Blank front ∧ Blank back ∧ Trimmed kept

/-- Blanks in front are dropped up to the first character that is none. -/
theorem dropWhile_blank {front text : List Char} (blank : Blank front) (head : ∀ c ∈ text.head?, isBlank c = false) :
    (front ++ text).dropWhile isBlank = text := by
  rw [List.dropWhile_append_of_pos blank]
  cases text with
  | nil => rfl
  | cons c text =>
    rw [List.dropWhile_cons_of_neg]
    rw [head c rfl]
    exact Bool.false_ne_true

/-- The trimmed text is what is left between blanks at both ends. -/
theorem trim_eq_iff {text kept : List Char} : trim text = kept ↔ Trims text kept := by
  constructor
  · rintro rfl
    refine ⟨text.takeWhile isBlank, (text.dropWhile isBlank).rtakeWhile isBlank, ?_, ?_, ?_, ?_, ?_⟩
    · have back : trim text ++ (text.dropWhile isBlank).rtakeWhile isBlank = text.dropWhile isBlank :=
        List.rdropWhile_append_rtakeWhile
      rw [back, List.takeWhile_append_dropWhile]
    · exact fun c => List.mem_takeWhile_imp
    · exact fun c => List.mem_rtakeWhile_imp
    · intro c first
      obtain ⟨rest, kept⟩ := List.head?_eq_some_iff.1 first
      obtain ⟨more, dropped⟩ : trim text <+: text.dropWhile isBlank := List.rdropWhile_prefix isBlank _
      have stop := List.head?_dropWhile_not isBlank text
      rw [← dropped, kept] at stop
      simpa using stop
    · intro c last
      have stop := List.head?_dropWhile_not isBlank (text.dropWhile isBlank).reverse
      rw [trim, List.getLast?_reverse] at last
      rw [last] at stop
      simpa using stop
  · rintro ⟨front, back, rfl, front_blank, back_blank, head, last⟩
    cases kept with
    | nil =>
      have none : (front ++ back).dropWhile isBlank = [] :=
        List.dropWhile_eq_nil_iff.2 fun c member => (List.mem_append.1 member).elim (front_blank c) (back_blank c)
      rw [trim, List.nil_append, none]
      rfl
    | cons c kept =>
      have kept_head : ∀ d ∈ (c :: kept ++ back).head?, isBlank d = false := head
      rw [trim, dropWhile_blank front_blank kept_head, List.reverse_append, dropWhile_blank]
      · exact List.reverse_reverse _
      · exact fun d member => back_blank d (List.mem_reverse.1 member)
      · rwa [List.head?_reverse]

end DomainColoring.Text
