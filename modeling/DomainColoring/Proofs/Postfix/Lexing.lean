import Mathlib.Data.List.Forall2
import DomainColoring.Binary64
import DomainColoring.Postfix.Expression
import DomainColoring.Proofs.Text.Spacing

/-!
# Lexemes of a text

Lexemes are cut out of the words of a text, and a word is cut between two characters exactly if it is made of symbols alone. Nothing
but blanks is lost, and lexemes written with blanks between are the same lexemes again. So a text can be spaced anew without any
difference to what is read (`Expression.lexed_exactly`).
-/

namespace DomainColoring

namespace Lexeme

/-! ## Symbols -/

/-- The characters that stand for operations. The second ones for multiplication and division are not ASCII. -/
def symbols : List Char :=
  ['+', '-', '*', '×', '/', '÷', '^']

/-- The symbols are those listed. -/
theorem isSymbol_iff {c : Char} : isSymbol c = true ↔ c ∈ symbols := by
  unfold isSymbol BinaryOperator.ofSymbol?
  split
  case h_8 => simp_all [symbols]
  all_goals decide

/-- A run of symbols has nothing but these in it. -/
theorem all_isSymbol_iff {word : List Char} : word.all isSymbol = true ↔ ∀ c ∈ word, c ∈ symbols := by
  simp only [List.all_eq_true, isSymbol_iff]

/-! ## One lexeme after the other -/

/-- How many bytes a text takes in UTF-8. -/
def byteSize (text : List Char) : Nat :=
  (String.ofList text).utf8ByteSize

/-- A text is divided behind so many bytes of it, which is possible only where no character is cut. -/
structure DividedAt (bytes : Nat) (text head tail : List Char) : Prop where
  whole : head ++ tail = text
  bytes : byteSize head = bytes

/-- Whether a word is taken apart: there is a second character in it, and all are symbols. -/
def isRun (word : List Char) : Bool :=
  word[1]?.isSome && word.all isSymbol

/-- Lexemes are taken off the front of a word until nothing is left. Of a run of symbols that is one character each time, and of
another word it is all there is; the bytes of what is taken off say where the word is divided. -/
inductive TakenOff (run : Bool) : (word : List Char) → (lexemes : List (List Char)) → Prop
  | nil : TakenOff run [] []
  | cons {first : Char} {rest head tail : List Char} {lexemes : List (List Char)}
      (divided : DividedAt (if run then first.utf8Size else byteSize (first :: rest)) (first :: rest) head tail)
      (further : TakenOff run tail lexemes) : TakenOff run (first :: rest) (head :: lexemes)

theorem byteSize_append (text more : List Char) : byteSize (text ++ more) = byteSize text + byteSize more := by
  rw [byteSize, String.ofList_append, String.utf8ByteSize_append]
  rfl

theorem byteSize_singleton (c : Char) : byteSize [c] = c.utf8Size := by
  rw [byteSize, ← String.singleton_eq_ofList, String.utf8ByteSize_singleton]

/-- A text without bytes is empty. -/
theorem eq_nil_of_byteSize {text : List Char} (h : byteSize text = 0) : text = [] := by
  cases text with
  | nil => rfl
  | cons c text =>
    have size := byteSize_append [c] text
    rw [byteSize_singleton] at size
    have positive := c.utf8Size_pos
    exact absurd (size.symm.trans h) (by omega)

/-- There is one place at most behind so many bytes. -/
theorem DividedAt.unique {bytes : Nat} {text head tail head' tail' : List Char} (h : DividedAt bytes text head tail)
    (h' : DividedAt bytes text head' tail') : head = head' ∧ tail = tail' := by
  have sizes := h.bytes.trans h'.bytes.symm
  rcases List.append_eq_append_iff.1 (h.whole.trans h'.whole.symm) with ⟨between, rfl, rfl⟩ | ⟨between, rfl, rfl⟩
  · rw [byteSize_append] at sizes
    obtain rfl : between = [] := eq_nil_of_byteSize (by omega)
    exact ⟨(List.append_nil head).symm, rfl⟩
  · rw [byteSize_append] at sizes
    obtain rfl : between = [] := eq_nil_of_byteSize (by omega)
    exact ⟨List.append_nil head', rfl⟩

theorem dividedAt_first (c : Char) (text : List Char) : DividedAt c.utf8Size (c :: text) [c] text :=
  ⟨rfl, byteSize_singleton c⟩

theorem dividedAt_end (text : List Char) : DividedAt (byteSize text) text text [] :=
  ⟨List.append_nil text, rfl⟩

/-- The symbols of a run are taken off one by one. -/
theorem takenOff_run_iff {word : List Char} {lexemes : List (List Char)} :
    TakenOff true word lexemes ↔ word.map ([·]) = lexemes := by
  induction word generalizing lexemes with
  | nil =>
    constructor
    · rintro ⟨⟩
      rfl
    · rintro rfl
      exact .nil
  | cons c word ih =>
    constructor
    · intro h
      cases h with
      | cons divided further =>
        obtain ⟨rfl, rfl⟩ := divided.unique (dividedAt_first c word)
        rw [List.map_cons, ih.1 further]
    · rintro rfl
      exact .cons (dividedAt_first c word) (ih.2 rfl)

/-- Any other word is taken as a whole. -/
theorem takenOff_whole_iff {word : List Char} (some : word ≠ []) {lexemes : List (List Char)} :
    TakenOff false word lexemes ↔ [word] = lexemes := by
  obtain ⟨c, word, rfl⟩ := List.exists_cons_of_ne_nil some
  constructor
  · intro h
    cases h with
    | cons divided further =>
      obtain ⟨rfl, rfl⟩ := divided.unique (dividedAt_end (c :: word))
      cases further
      rfl
  · rintro rfl
    exact .cons (dividedAt_end _) .nil

/-- The lexemes of a word are those that are taken off it. -/
theorem takenOff_iff {word : List Char} {lexemes : List (List Char)} :
    TakenOff (isRun word) word lexemes ↔ ofWord word = lexemes := by
  match word with
  | [] =>
    constructor
    · rintro ⟨⟩
      rfl
    · rintro rfl
      exact .nil
  | [c] =>
    have alone : ofWord [c] = [[c]] := by
      rw [ofWord]
      split <;> rfl
    rw [alone]
    exact takenOff_whole_iff (List.cons_ne_nil c [])
  | c :: d :: word =>
    have decided : isRun (c :: d :: word) = (c :: d :: word).all isSymbol := rfl
    rw [decided, ofWord]
    cases (c :: d :: word).all isSymbol with
    | true => exact takenOff_run_iff
    | false => exact takenOff_whole_iff (List.cons_ne_nil c _)

/-- The lexemes of a text one by one: each of its words is used up, one after the other. -/
def Yields (source : List Char) (lexemes : List (List Char)) : Prop :=
  ∃ parts, List.Forall₂ (fun word part => TakenOff (isRun word) word part) (Text.words source) parts ∧ parts.flatten = lexemes

/-- Taking lexemes off the words of a text comes to an end, and there is one row of lexemes that it gives. -/
theorem yields_iff {source : List Char} {lexemes : List (List Char)} : Yields source lexemes ↔ ofSource source = lexemes := by
  have parts_iff (parts : List (List (List Char))) :
      List.Forall₂ (fun word part => TakenOff (isRun word) word part) (Text.words source) parts ↔
        (Text.words source).map ofWord = parts := by
    simp only [takenOff_iff, ← List.forall₂_eq_eq_eq, List.forall₂_map_left_iff]
  rw [Yields, ofSource, List.flatMap_def]
  constructor
  · rintro ⟨parts, taken, rfl⟩
    rw [(parts_iff parts).1 taken]
  · rintro rfl
    exact ⟨_, (parts_iff _).2 rfl, rfl⟩

/-! ## Lexemes are words -/

/-- The lexemes of a word are words. -/
theorem isWord_of_mem_ofWord {word lexeme : List Char} (isWord : Text.IsWord word) (h : lexeme ∈ ofWord word) :
    Text.IsWord lexeme := by
  rw [ofWord] at h
  split at h
  · obtain ⟨c, member, rfl⟩ := List.mem_map.1 h
    exact ⟨List.cons_ne_nil c [], List.forall_mem_singleton.2 (isWord.visible c member)⟩
  · rwa [List.mem_singleton.1 h]

theorem isWord_of_mem_ofSource {source lexeme : List Char} (h : lexeme ∈ ofSource source) : Text.IsWord lexeme := by
  obtain ⟨word, member, taken⟩ := List.mem_flatMap.1 h
  exact isWord_of_mem_ofWord (Text.isWord_of_mem_words member) taken

/-- A lexeme is not taken apart again. -/
theorem ofWord_of_mem_ofSource {source lexeme : List Char} (h : lexeme ∈ ofSource source) : ofWord lexeme = [lexeme] := by
  obtain ⟨word, -, taken⟩ := List.mem_flatMap.1 h
  rw [ofWord] at taken
  split at taken
  · obtain ⟨c, -, rfl⟩ := List.mem_map.1 taken
    rw [ofWord]
    split <;> rfl
  · rename_i mixed
    rw [List.mem_singleton.1 taken, ofWord, if_neg mixed]

/-- A text that consists of the lexemes of another with blanks between has the same lexemes. -/
theorem ofSource_of_spaced {source text : List Char} (h : Text.Spaced (ofSource source) text) : ofSource text = ofSource source := by
  rw [ofSource, h.words, List.flatMap_congr fun lexeme => ofWord_of_mem_ofSource]
  exact List.flatMap_singleton' _

/-! ## Where lexemes end -/

/-- The lexemes of a text are those of its two parts: none of them reaches from the one into the other. -/
def Apart (text more : List Char) : Prop :=
  ∃ earlier later, ofSource (text ++ more) = earlier ++ later ∧ earlier.flatten = text.filter (!Text.isBlank ·) ∧
    later.flatten = more.filter (!Text.isBlank ·)

/-- A word between blanks is cut into its lexemes, whatever else there is. -/
theorem ofSource_between {left word right : List Char} (before : Text.Opens left.reverse) (isWord : Text.IsWord word)
    (after : Text.Opens right) : ofSource (left ++ (word ++ right)) = ofSource left ++ (ofWord word ++ ofSource right) := by
  rw [ofSource, Text.words_between before isWord after, List.flatMap_append, List.flatMap_cons]
  rfl

/-- A word lies in two parts of a text, and no lexeme reaches from the one into the other: then the word is made of symbols, and
otherwise it is not. -/
theorem apart_iff {left head tail right : List Char} (before : Text.Opens left.reverse) (isWord : Text.IsWord (head ++ tail))
    (after : Text.Opens right) (first : head ≠ []) (second : tail ≠ []) :
    Apart (left ++ head) (tail ++ right) ↔ ∀ c ∈ head ++ tail, c ∈ symbols := by
  have visible {part : List Char} (sub : part ⊆ head ++ tail) : part.filter (!Text.isBlank ·) = part :=
    List.filter_eq_self.2 fun c member => by rw [isWord.visible c (sub member)]; rfl
  have whole : left ++ head ++ (tail ++ right) = left ++ (head ++ tail ++ right) := by simp only [List.append_assoc]
  rw [Apart, whole, ofSource_between before isWord after, List.filter_append, List.filter_append,
    visible (List.subset_append_left head tail), visible (List.subset_append_right head tail), ← flatten_ofSource left,
    ← flatten_ofSource right, ← all_isSymbol_iff]
  constructor
  · rintro ⟨earlier, later, split, front, -⟩
    by_contra mixed
    rw [ofWord, if_neg mixed] at split
    have some := List.length_pos_iff.2 first
    have more := List.length_pos_iff.2 second
    have length := congrArg List.length front
    rw [List.length_append] at length
    -- The word is one lexeme. What comes before it is too short to reach into the word, and what ends with it is too long.
    rcases List.append_eq_append_iff.1 split with ⟨between, rfl, rest⟩ | ⟨between, shorter, -⟩
    · rw [List.flatten_append, List.length_append] at length
      cases between with
      | nil =>
        rw [List.flatten_nil, List.length_nil] at length
        omega
      | cons lexeme between =>
        obtain ⟨rfl, -⟩ := List.cons.inj rest
        rw [List.flatten_cons, List.length_append, List.length_append] at length
        omega
    · rw [shorter, List.flatten_append, List.length_append] at length
      omega
  · intro run
    refine ⟨ofSource left ++ head.map ([·]), tail.map ([·]) ++ ofSource right, ?_, ?_, ?_⟩
    · rw [ofWord, if_pos run, List.map_append]
      simp only [List.append_assoc]
    · rw [List.flatten_append, ← List.flatMap_def, List.flatMap_singleton']
    · rw [List.flatten_append, ← List.flatMap_def, List.flatMap_singleton']

end Lexeme

/-! ## What is read -/

namespace Expression

variable {α : Type} [Neg α] [NatCast α] [OfScientific α]

/-- Of a text no more is read than its lexemes: its tokens and the depth of the stack, or its error. -/
theorem parse_alike {source text : String} (same : Lexeme.ofSource text.toList = Lexeme.ofSource source.toList) :
    (parse text : Except _ (Expression α)).map (fun e => (e.tokens, e.maxDepth)) =
      (parse source : Except _ (Expression α)).map fun e => (e.tokens, e.maxDepth) := by
  rw [parse, parse, same]
  cases (scan 0 0 (Lexeme.ofSource source.toList) : Except _ (Scan α)) with
  | error error => rfl
  | ok found =>
    by_cases one : found.depth = 1
    · simp [bind, Except.bind, one]
      rfl
    · simp [bind, Except.bind, one]

end Expression

/-- The lexemes of any text are found by taking them off its words, and no character is cut on the way. They are the text without
its blanks, and each is a word. Two neighbouring characters of a word between blanks are in different lexemes if and only if all
characters of the word are symbols. A text in which the lexemes stand in order with blanks between, whichever blanks these are and
whatever blanks there are at the ends, has the same lexemes; so it has the same tokens and needs the same depth of the stack, or
it fails with the same error. -/
theorem Expression.lexed_exactly {α : Type} [Neg α] [NatCast α] [OfScientific α] (source : String) :
    (∀ lexemes, Lexeme.Yields source.toList lexemes ↔ Lexeme.ofSource source.toList = lexemes) ∧
    (Lexeme.ofSource source.toList).flatten = source.toList.filter (!Text.isBlank ·) ∧
    (∀ lexeme ∈ Lexeme.ofSource source.toList, lexeme ≠ [] ∧ ∀ c ∈ lexeme, Text.isBlank c = false) ∧
    (∀ left before after right a b, source.toList = left ++ (before ++ a :: b :: after ++ right) →
      Text.Opens left.reverse → Text.IsWord (before ++ a :: b :: after) → Text.Opens right →
      (Lexeme.Apart (left ++ (before ++ [a])) (b :: after ++ right) ↔ ∀ c ∈ before ++ a :: b :: after, c ∈ Lexeme.symbols)) ∧
    ∀ text : String, Text.Spaced (Lexeme.ofSource source.toList) text.toList →
      Lexeme.ofSource text.toList = Lexeme.ofSource source.toList ∧
        (parse text : Except _ (Expression α)).map (fun e => (e.tokens, e.maxDepth)) =
          (parse source : Except _ (Expression α)).map fun e => (e.tokens, e.maxDepth) := by
  refine ⟨fun lexemes => Lexeme.yields_iff, Lexeme.flatten_ofSource _, ?_, ?_, ?_⟩
  · intro lexeme member
    obtain ⟨nonempty, visible⟩ := Lexeme.isWord_of_mem_ofSource member
    exact ⟨nonempty, visible⟩
  · intro left before after right a b _ first isWord last
    have word : before ++ [a] ++ b :: after = before ++ a :: b :: after := by simp
    rw [← word] at isWord ⊢
    exact Lexeme.apart_iff first isWord last (by simp) (List.cons_ne_nil b after)
  · intro text spaced
    have same := Lexeme.ofSource_of_spaced spaced
    exact ⟨same, parse_alike same⟩

/-- The symbols at the end of `z 2 3 +×` are two lexemes, and it is read in the same way with other blanks. -/
theorem Expression.lexed_sum_times :
    Lexeme.Apart "z 2 3 +".toList "×".toList ∧
      (parse "\tz  2\u00a03 + ×\n" : Except _ (Expression Float)).map (fun e => (e.tokens, e.maxDepth)) =
        (parse "z 2 3 +×" : Except _ (Expression Float)).map fun e => (e.tokens, e.maxDepth) := by
  obtain ⟨-, -, -, apart, alike⟩ := lexed_exactly (α := Float) "z 2 3 +×"
  constructor
  · exact (apart "z 2 3 ".toList [] [] [] '+' '×' rfl (Text.opens_cons rfl) (by decide) Text.opens_nil).2 (Lexeme.all_isSymbol_iff.1 rfl)
  · exact (alike "\tz  2\u00a03 + ×\n" (Text.words_eq_iff.1 (by decide))).2

end DomainColoring
