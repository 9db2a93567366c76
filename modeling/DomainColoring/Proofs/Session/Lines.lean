import DomainColoring.Proofs.Text.Spacing
import DomainColoring.Session.Command

/-!
# The language of commands

A line is a command exactly if it belongs to a small grammar: a verb, and behind it what the verb takes (`Command.Form`). What is
no command is refused for its verb or for what stands behind it. Blanks have no part in this where they only keep the parts of a
line from one another (`Command.Respaced`). All of this is `Command.parsed_exactly`.
-/

namespace DomainColoring

/-! ## Texts with blanks to be taken away -/

namespace Text

/-- Blanks around a text are trimmed with those at its ends. -/
theorem Trims.append {text kept front back : List Char} (h : Trims text kept) (front_blank : Blank front)
    (back_blank : Blank back) : Trims (front ++ (text ++ back)) kept := by
  obtain ⟨front', back', rfl, front_blank', back_blank', trimmed⟩ := h
  refine ⟨front ++ front', back' ++ back, by simp only [List.append_assoc], ?_, ?_, trimmed⟩
  · exact List.forall_mem_append.2 ⟨front_blank, front_blank'⟩
  · exact List.forall_mem_append.2 ⟨back_blank', back_blank⟩

/-- Blanks around a text do not matter to what is left of it. -/
theorem trim_append_blank {front back : List Char} (text : List Char) (front_blank : Blank front) (back_blank : Blank back) :
    trim (front ++ (text ++ back)) = trim text :=
  trim_eq_iff.2 ((trim_eq_iff.1 rfl).append front_blank back_blank)

theorem trim_dropWhile (text : List Char) : trim (text.dropWhile isBlank) = trim text := by
  rw [trim, List.dropWhile_idempotent, trim]

theorem trim_rdropWhile (text : List Char) : trim (text.rdropWhile isBlank) = trim text := by
  have h := trim_append_blank (text.rdropWhile isBlank) (List.forall_mem_nil _) fun c => List.mem_rtakeWhile_imp (l := text)
  rwa [List.rdropWhile_append_rtakeWhile, List.nil_append, eq_comm] at h

/-- What comes after a character that is no blank is not dropped. -/
theorem dropWhile_append_visible (text more : List Char) {c : Char} (visible : isBlank c = false) :
    (text ++ c :: more).dropWhile isBlank = text.dropWhile isBlank ++ c :: more := by
  have stays : (c :: more).dropWhile isBlank = c :: more := by
    rw [List.dropWhile_cons_of_neg]
    rw [visible]
    exact Bool.false_ne_true
  rw [List.dropWhile_append]
  split
  · rename_i none
    rw [stays, List.isEmpty_iff.1 none, List.nil_append]
  · rfl

/-- A character that is no blank keeps what is before it from what is behind it when a text is trimmed. -/
theorem trim_append_visible (text more : List Char) {c : Char} (visible : isBlank c = false) :
    trim (text ++ c :: more) = text.dropWhile isBlank ++ c :: more.rdropWhile isBlank := by
  have back : (text.dropWhile isBlank ++ c :: more).reverse = more.reverse ++ c :: (text.dropWhile isBlank).reverse := by
    rw [List.reverse_append, List.reverse_cons, List.append_assoc, List.singleton_append]
  rw [trim, dropWhile_append_visible text more visible, back, dropWhile_append_visible _ _ visible, List.reverse_append,
    List.reverse_cons, List.reverse_reverse, List.append_assoc, List.singleton_append]
  rfl

/-- A word in front keeps all that stands behind it but the blanks at the end. -/
theorem trim_word_append {word : List Char} (isWord : IsWord word) (more : List Char) :
    trim (word ++ more) = word ++ more.rdropWhile isBlank := by
  obtain ⟨front, c, split⟩ := (List.eq_nil_or_concat word).resolve_left isWord.nonempty
  have visible := isWord.visible
  rw [split, List.concat_eq_append, List.forall_mem_append, List.forall_mem_singleton] at visible
  have starts : front.dropWhile isBlank = front := by
    refine List.dropWhile_eq_self_iff.2 fun some => ?_
    rw [visible.1 _ (List.getElem_mem some)]
    exact Bool.false_ne_true
  rw [split, List.concat_eq_append, List.append_assoc, List.singleton_append, trim_append_visible _ _ visible.2, starts,
    List.append_assoc, List.singleton_append]

/-- A text that opens with a blank does so however it goes on. -/
theorem Opens.of_append {text more : List Char} (h : Opens (text ++ more)) : Opens text := by
  cases text with
  | nil => exact opens_nil
  | cons c text => exact h

end Text

namespace Command

open Text

/-! ## The grammar -/

/-- A line with its verb and what stands behind that: without the blanks at its ends the line begins with the verb, which goes up to
the first blank, and what is behind it is again without the blanks at its ends. -/
def Parted (line verb rest : List Char) : Prop :=
  ∃ behind, Trims line (verb ++ behind) ∧ (∀ c ∈ verb, isBlank c = false) ∧ Opens behind ∧ Trims behind rest

/-- A submission: an expression up to the first semicolon, and behind it four words for the bounds. -/
inductive Submission : List Char → PlotFields → Prop
  | mk {text behind expression reUpper reLower imUpper imLower : List Char} (first : ';' ∉ text) (trims : Trims text expression)
      (bounds : Spaced [reUpper, reLower, imUpper, imLower] behind) :
      Submission (text ++ ';' :: behind) ⟨String.ofList expression, String.ofList reUpper, String.ofList reLower,
        String.ofList imUpper, String.ofList imLower⟩

/-- Two words for numbers of a kind, and nothing else. -/
def Numbers {β : Type} (read : List Char → Option β) (text : List Char) (a b : β) : Prop :=
  ∃ first second, Spaced [first, second] text ∧ read first = some a ∧ read second = some b

/-- The commands by their verbs and what stands behind these. -/
inductive Form : (verb : String) → (rest : List Char) → Command → Prop
  | plot {rest : List Char} {fields : PlotFields} (submission : Submission rest fields) : Form "plot" rest (.plot fields)
  | size {rest : List Char} {width height : Nat} (numbers : Numbers Decimal.natural? rest width height) :
      Form "size" rest (.size ⟨width, height⟩)
  | point {rest : List Char} {column row : Float} (numbers : Numbers Decimal.read? rest column row) :
      Form "point" rest (.point column row)
  | wait (rest : List Char) : Form "wait" rest .wait
  | save : Form "export" [] (.save none)
  | saveAs {path : List Char} (some : path ≠ []) : Form "export" path (.save (String.ofList path))
  | status (rest : List Char) : Form "status" rest .status
  | quit (rest : List Char) : Form "quit" rest .quit
  | exit (rest : List Char) : Form "exit" rest .quit

/-- The verbs that there are. -/
def verbs : List String :=
  ["plot", "size", "point", "wait", "export", "status", "quit", "exit"]

/-- How a line is refused that has a verb and is no command. -/
inductive Refusal : (verb : String) → CommandError → Prop
  | plot : Refusal "plot" (.usage plotForm)
  | size : Refusal "size" (.usage sizeForm)
  | point : Refusal "point" (.usage pointForm)
  | unknown {verb : String} (other : verb ∉ verbs) : Refusal verb (.unknown verb)

/-- Two lines that differ only in blanks that keep parts of them from one another: at the ends, behind the verb, between two
numbers, around the first semicolon of a submission, or between bounds. -/
inductive Respaced : List Char → List Char → Prop
  | ends {front back line : List Char} (before : Blank front) (after : Blank back) : Respaced (front ++ (line ++ back)) line
  | gap {verb gap gap' rest : List Char} (isWord : IsWord verb) (blank : Blank gap ∧ gap ≠ []) (blank' : Blank gap' ∧ gap' ≠ []) :
      Respaced (verb ++ (gap ++ rest)) (verb ++ (gap' ++ rest))
  | numbers {verb gap text text' : List Char} {pieces : List (List Char)} (verb_eq : verb = "size".toList ∨ verb = "point".toList)
      (blank : Blank gap ∧ gap ≠ []) (spaced : Spaced pieces text) (spaced' : Spaced pieces text') :
      Respaced (verb ++ (gap ++ text)) (verb ++ (gap ++ text'))
  | submission {gap text text' kept bounds bounds' : List Char} {pieces : List (List Char)} (blank : Blank gap ∧ gap ≠ [])
      (first : ';' ∉ text) (first' : ';' ∉ text') (trims : Trims text kept) (trims' : Trims text' kept)
      (spaced : Spaced pieces bounds) (spaced' : Spaced pieces bounds') :
      Respaced ("plot".toList ++ (gap ++ (text ++ ';' :: bounds))) ("plot".toList ++ (gap ++ (text' ++ ';' :: bounds')))

/-! ## Parts of a line -/

/-- A verb is taken off up to the first blank. -/
theorem takeWhile_of_opens {verb behind : List Char} (visible : ∀ c ∈ verb, isBlank c = false) (opens : Opens behind) :
    (verb ++ behind).takeWhile (!isBlank ·) = verb ∧ (verb ++ behind).dropWhile (!isBlank ·) = behind := by
  have passes : ∀ c ∈ verb, (!isBlank c) = true := fun c member => by rw [visible c member]; rfl
  rw [List.takeWhile_append_of_pos passes, List.dropWhile_append_of_pos passes]
  cases behind with
  | nil => exact ⟨List.append_nil verb, rfl⟩
  | cons c behind =>
    have blank : isBlank c = true := opens c rfl
    simp [blank]

/-- A line is parted where its verb is split off. -/
theorem parted_iff {line verb rest : List Char} : Parted line verb rest ↔ splitVerb (trim line) = (verb, rest) := by
  constructor
  · rintro ⟨behind, kept, visible, opens, trims⟩
    obtain ⟨front, back⟩ := takeWhile_of_opens visible opens
    rw [trim_eq_iff.2 kept, splitVerb, front, back, trim_eq_iff.2 trims]
  · intro h
    rw [splitVerb, Prod.mk.injEq] at h
    obtain ⟨rfl, rfl⟩ := h
    refine ⟨(trim line).dropWhile (!isBlank ·), ?_, ?_, ?_, trim_eq_iff.1 rfl⟩
    · rw [List.takeWhile_append_dropWhile]
      exact trim_eq_iff.1 rfl
    · intro c member
      simpa using List.mem_takeWhile_imp member
    · intro c first
      have stop := List.head?_dropWhile_not (!isBlank ·) (trim line)
      rw [Option.mem_def.1 first] at stop
      simpa using stop

/-- A line is read by its verb and what stands behind it. -/
theorem parse_of_parted {line verb : String} {rest : List Char} (h : Parted line.toList verb.toList rest) :
    parse line = ofVerb verb rest := by
  rw [parse, parted_iff.1 h]
  simp only [String.ofList_toList]

/-! ## Arguments -/

/-- Two numbers are read from two words for them, and from nothing else. -/
theorem twoNumbers?_eq_some {β : Type} {read : List Char → Option β} {text : List Char} {a b : β} :
    twoNumbers? read text = some (a, b) ↔ Numbers read text a b := by
  simp only [Numbers, ← words_eq_iff]
  constructor
  · intro h
    unfold twoNumbers? at h
    split at h
    · rename_i first second words
      obtain ⟨a', first', h⟩ := Option.bind_eq_some_iff.1 h
      obtain ⟨b', second', h⟩ := Option.map_eq_some_iff.1 h
      cases h
      exact ⟨first, second, words, first', second'⟩
    · cases h
  · rintro ⟨first, second, words, first', second'⟩
    rw [twoNumbers?, words]
    simp only [first', second', Option.bind_some, Option.map_some]

/-- The first semicolon ends the expression. -/
theorem plotFields?_append_eq_some {text behind : List Char} {fields : PlotFields} (first : ';' ∉ text) :
    plotFields? (text ++ ';' :: behind) = some fields ↔
      ∃ reUpper reLower imUpper imLower, words behind = [reUpper, reLower, imUpper, imLower] ∧
        fields = ⟨String.ofList (trim text), String.ofList reUpper, String.ofList reLower, String.ofList imUpper,
          String.ofList imLower⟩ := by
  have passes : ∀ c ∈ text, decide (c ≠ ';') = true := by
    intro c member
    exact decide_eq_true fun same => first (same ▸ member)
  have front : (text ++ ';' :: behind).takeWhile (· ≠ ';') = text := by
    rw [List.takeWhile_append_of_pos passes]
    exact List.append_nil text
  have back : (text ++ ';' :: behind).dropWhile (· ≠ ';') = ';' :: behind := List.dropWhile_append_of_pos passes
  rw [plotFields?, front, back]
  constructor
  · intro h
    dsimp only at h
    split at h
    · rename_i reUpper reLower imUpper imLower bounds
      cases h
      exact ⟨reUpper, reLower, imUpper, imLower, bounds, rfl⟩
    · cases h
  · rintro ⟨reUpper, reLower, imUpper, imLower, bounds, rfl⟩
    simp only [bounds]

/-- What has no semicolon is no submission. -/
theorem plotFields?_of_notMem {text : List Char} (none : ';' ∉ text) : plotFields? text = .none := by
  have all : text.dropWhile (· ≠ ';') = [] :=
    List.dropWhile_eq_nil_iff.2 fun c member => decide_eq_true fun same => none (same ▸ member)
  rw [plotFields?, all]

/-- The fields are read from a submission, and from nothing else. -/
theorem plotFields?_eq_some {text : List Char} {fields : PlotFields} :
    plotFields? text = some fields ↔ Submission text fields := by
  constructor
  · intro h
    by_cases some : ';' ∈ text
    · obtain ⟨front, behind, rfl, first⟩ := List.eq_append_cons_of_mem some
      obtain ⟨reUpper, reLower, imUpper, imLower, bounds, rfl⟩ := (plotFields?_append_eq_some first).1 h
      exact .mk first (trim_eq_iff.1 rfl) (words_eq_iff.1 bounds)
    · rw [plotFields?_of_notMem some] at h
      cases h
  · rintro ⟨first, trims, bounds⟩
    exact (plotFields?_append_eq_some first).2 ⟨_, _, _, _, bounds.words, by rw [trim_eq_iff.2 trims]⟩

/-! ## Verbs -/

/-- A verb that there is not is unknown. -/
theorem ofVerb_of_notMem {verb : String} (other : verb ∉ verbs) (rest : List Char) :
    ofVerb verb rest = .error (.unknown verb) := by
  unfold ofVerb
  split
  case h_9 => rfl
  all_goals exact absurd (by decide) other

/-- A command in its form is read as what it is. -/
theorem ofVerb_of_form {verb : String} {rest : List Char} {command : Command} (form : Form verb rest command) :
    ofVerb verb rest = .ok command := by
  cases form with
  | plot submission => simp only [ofVerb, plotFields?_eq_some.2 submission]
  | size numbers => simp only [ofVerb, twoNumbers?_eq_some.2 numbers]
  | point numbers => simp only [ofVerb, twoNumbers?_eq_some.2 numbers]
  | saveAs some => simp only [ofVerb, List.isEmpty_eq_false_iff.2 some, Bool.false_eq_true, if_false]
  | wait | save | status | quit | exit => rfl

/-- With a verb that may be refused there is a command of the grammar, or it is refused. -/
theorem Refusal.form_or_error {verb : String} {error : CommandError} (h : Refusal verb error) (rest : List Char) :
    (∃ command, Form verb rest command) ∨ ofVerb verb rest = .error error := by
  cases h with
  | plot =>
    cases read : plotFields? rest with
    | some fields => exact .inl ⟨_, .plot (plotFields?_eq_some.1 read)⟩
    | none => exact .inr (by simp only [ofVerb, read])
  | size =>
    cases read : twoNumbers? Decimal.natural? rest with
    | some numbers => exact .inl ⟨_, .size (twoNumbers?_eq_some.1 read)⟩
    | none => exact .inr (by simp only [ofVerb, read])
  | point =>
    cases read : twoNumbers? Decimal.read? rest with
    | some numbers => exact .inl ⟨_, .point (twoNumbers?_eq_some.1 read)⟩
    | none => exact .inr (by simp only [ofVerb, read])
  | unknown other => exact .inr (ofVerb_of_notMem other rest)

/-- A verb that takes whatever stands behind it is never refused, and any other may be. -/
theorem form_or_refusal (verb : String) (rest : List Char) :
    (∃ command, Form verb rest command) ∨ ∃ error, Refusal verb error := by
  by_cases known : verb ∈ verbs
  · simp only [verbs, List.mem_cons, List.not_mem_nil, or_false] at known
    rcases known with rfl | rfl | rfl | rfl | rfl | rfl | rfl | rfl
    · exact .inr ⟨_, .plot⟩
    · exact .inr ⟨_, .size⟩
    · exact .inr ⟨_, .point⟩
    · exact .inl ⟨_, .wait rest⟩
    · cases rest with
      | nil => exact .inl ⟨_, .save⟩
      | cons c rest => exact .inl ⟨_, .saveAs (List.cons_ne_nil c rest)⟩
    · exact .inl ⟨_, .status rest⟩
    · exact .inl ⟨_, .quit rest⟩
    · exact .inl ⟨_, .exit rest⟩
  · exact .inr ⟨_, .unknown known⟩

/-- What has a verb is a command in its form, or refused. -/
theorem ofVerb_cases (verb : String) (rest : List Char) :
    (∃ command, Form verb rest command) ∨ ∃ error, Refusal verb error ∧ ofVerb verb rest = .error error := by
  obtain form | ⟨error, refusal⟩ := form_or_refusal verb rest
  · exact .inl form
  · exact (refusal.form_or_error rest).imp_right fun refused => ⟨error, refusal, refused⟩

/-- Only commands in their form are read as commands. -/
theorem ofVerb_eq_ok {verb : String} {rest : List Char} {command : Command} :
    ofVerb verb rest = .ok command ↔ Form verb rest command := by
  refine ⟨fun accepted => ?_, ofVerb_of_form⟩
  obtain ⟨command', form⟩ | ⟨error, -, refused⟩ := ofVerb_cases verb rest
  · cases accepted.symm.trans (ofVerb_of_form form)
    exact form
  · cases accepted.symm.trans refused

/-- What is refused has no form, and is refused as its verb says. -/
theorem ofVerb_eq_error {verb : String} {rest : List Char} {error : CommandError} :
    ofVerb verb rest = .error error ↔ (∀ command, ¬Form verb rest command) ∧ Refusal verb error := by
  constructor
  · intro refused
    have absent : ∀ command, ¬Form verb rest command := by
      intro command form
      cases refused.symm.trans (ofVerb_of_form form)
    obtain ⟨command, form⟩ | ⟨error', refusal, refused'⟩ := ofVerb_cases verb rest
    · exact absurd form (absent command)
    · cases refused.symm.trans refused'
      exact ⟨absent, refusal⟩
  · rintro ⟨absent, refusal⟩
    exact (refusal.form_or_error rest).resolve_left fun ⟨command, form⟩ => absent command form

/-! ## Blanks that make no difference -/

/-- Behind a verb and some blanks stands what is left there without the blanks around. -/
theorem parted_gap {verb gap : List Char} (isWord : IsWord verb) (blank : Blank gap ∧ gap ≠ []) (rest : List Char) :
    Parted (verb ++ (gap ++ rest)) verb (trim rest) := by
  have opens : Opens ((gap ++ rest).rdropWhile isBlank) := by
    obtain ⟨c, gap, rfl⟩ := List.exists_cons_of_ne_nil blank.2
    have whole : Opens ((c :: gap) ++ rest) := opens_cons (blank.1 c List.mem_cons_self)
    rw [← List.rdropWhile_append_rtakeWhile (p := isBlank) (l := (c :: gap) ++ rest)] at whole
    exact whole.of_append
  have same : trim (gap ++ rest) = trim rest := by
    have h := trim_append_blank rest blank.1 (List.forall_mem_nil _)
    rwa [List.append_nil] at h
  -- What stands behind the verb in the trimmed line has lost the blanks at the end only.
  refine ⟨_, trim_eq_iff.1 (trim_word_append isWord _), isWord.visible, opens, trim_eq_iff.1 ?_⟩
  rw [trim_rdropWhile, same]

/-- Two numbers are read from the words alone. -/
theorem twoNumbers?_congr {β : Type} (read : List Char → Option β) {text text' : List Char} (same : words text = words text') :
    twoNumbers? read text = twoNumbers? read text' := by
  rw [twoNumbers?, same, twoNumbers?]

/-- The blanks at the ends of a submission make no difference. -/
theorem plotFields?_trim {text : List Char} (first : ';' ∉ text) (behind : List Char) :
    plotFields? (trim (text ++ ';' :: behind)) = plotFields? (text ++ ';' :: behind) := by
  have visible : isBlank ';' = false := by decide
  have first' : ';' ∉ text.dropWhile isBlank := fun member => first ((List.dropWhile_sublist _).subset member)
  refine Option.ext fun fields => ?_
  rw [trim_append_visible text behind visible, plotFields?_append_eq_some first, plotFields?_append_eq_some first',
    words_rdropWhile, trim_dropWhile]

/-- Lines with one verb are one command if what stands behind it is. -/
theorem parse_eq_of_parted {line line' : String} {verb rest rest' : List Char} (h : Parted line.toList verb rest)
    (h' : Parted line'.toList verb rest') (same : ofVerb (String.ofList verb) rest = ofVerb (String.ofList verb) rest') :
    parse line = parse line' := by
  rw [parse, parse, parted_iff.1 h, parted_iff.1 h']
  exact same

/-- Lines that differ only in such blanks are the same command, or are refused in the same way. -/
theorem parse_of_respaced {line line' : String} (h : Respaced line.toList line'.toList) : parse line = parse line' := by
  generalize whole : line.toList = text, whole' : line'.toList = text' at h
  cases h with
  | @ends front back _ before after =>
    rw [parse, parse, whole, whole', trim_append_blank _ before after]
  | @gap verb gap gap' rest isWord blank blank' =>
    exact parse_eq_of_parted (whole ▸ parted_gap isWord blank rest) (whole' ▸ parted_gap isWord blank' rest) rfl
  | @numbers verb gap text text' pieces verb_eq blank spaced spaced' =>
    have same : words (trim text) = words (trim text') := by
      rw [words_trim, words_trim, spaced.words, spaced'.words]
    rcases verb_eq with rfl | rfl
    · refine parse_eq_of_parted (whole ▸ parted_gap (by decide) blank text) (whole' ▸ parted_gap (by decide) blank text') ?_
      simp only [String.ofList_toList, ofVerb, twoNumbers?_congr _ same]
    · refine parse_eq_of_parted (whole ▸ parted_gap (by decide) blank text) (whole' ▸ parted_gap (by decide) blank text') ?_
      simp only [String.ofList_toList, ofVerb, twoNumbers?_congr _ same]
  | @submission gap text text' kept bounds bounds' pieces blank first first' trims trims' spaced spaced' =>
    refine parse_eq_of_parted (whole ▸ parted_gap (by decide) blank _) (whole' ▸ parted_gap (by decide) blank _) ?_
    have same : plotFields? (trim (text ++ ';' :: bounds)) = plotFields? (trim (text' ++ ';' :: bounds')) := by
      refine Option.ext fun fields => ?_
      rw [plotFields?_trim first, plotFields?_trim first', plotFields?_append_eq_some first, plotFields?_append_eq_some first',
        spaced.words, spaced'.words, trim_eq_iff.2 trims, trim_eq_iff.2 trims']
    simp only [String.ofList_toList, ofVerb, same]

/-! ## The result -/

/-- A line has a verb and something behind it. It is a command exactly if the grammar has it, and what the grammar does not have is
refused as the verb says. Lines that differ in no more than blanks between their parts are one command, or are refused alike. -/
theorem parsed_exactly (line : String) :
    (∃ (verb : String) (rest : List Char), Parted line.toList verb.toList rest) ∧
    (∀ (verb : String) (rest : List Char), Parted line.toList verb.toList rest →
      (∀ command, parse line = .ok command ↔ Form verb rest command) ∧
      ∀ error, parse line = .error error ↔ (∀ command, ¬Form verb rest command) ∧ Refusal verb error) ∧
    ∀ line' : String, Respaced line.toList line'.toList → parse line = parse line' := by
  refine ⟨?_, fun verb rest parted => ?_, fun line' => parse_of_respaced⟩
  · refine ⟨String.ofList (splitVerb (trim line.toList)).1, (splitVerb (trim line.toList)).2, parted_iff.2 ?_⟩
    rw [String.toList_ofList]
  · rw [parse_of_parted parted]
    exact ⟨fun _ => ofVerb_eq_ok, fun _ => ofVerb_eq_error⟩

/-- A plot with and without blanks around the semicolon, and a size that lacks a number. -/
theorem parsed_plot_lines :
    parse "plot z ; 1 -1 1 -1" = .ok (.plot ⟨"z", "1", "-1", "1", "-1"⟩) ∧
    parse "plot z;1 -1 1 -1" = .ok (.plot ⟨"z", "1", "-1", "1", "-1"⟩) ∧
    ∀ command, ¬Form "size" "10".toList command := by
  have fields : plotFields? "z ; 1 -1 1 -1".toList = some ⟨"z", "1", "-1", "1", "-1"⟩ := by decide
  have plotted : parse "plot z ; 1 -1 1 -1" = .ok (.plot ⟨"z", "1", "-1", "1", "-1"⟩) :=
    (((parsed_exactly _).2.1 "plot" _ (parted_iff.2 (by decide))).1 _).2 (.plot (plotFields?_eq_some.1 fields))
  have respaced : Respaced "plot z ; 1 -1 1 -1".toList "plot z;1 -1 1 -1".toList :=
    @Respaced.submission [' '] ['z', ' '] ['z'] ['z'] " 1 -1 1 -1".toList "1 -1 1 -1".toList
      ["1".toList, "-1".toList, "1".toList, "-1".toList] (by decide) (by decide) (by decide) (trim_eq_iff.1 (by decide))
      (trim_eq_iff.1 (by decide)) (words_eq_iff.1 (by decide)) (words_eq_iff.1 (by decide))
  have alike : parse "plot z ; 1 -1 1 -1" = parse "plot z;1 -1 1 -1" := (parsed_exactly _).2.2 _ respaced
  have refused : parse "size 10" = .error (.usage sizeForm) := rfl
  exact ⟨plotted, alike ▸ plotted, ((((parsed_exactly "size 10").2.1 "size" _ (parted_iff.2 (by decide))).2 _).1 refused).1⟩

end Command

end DomainColoring
