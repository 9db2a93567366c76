import Mathlib.Tactic.SplitIfs
import DomainColoring.Proofs.Text.Plain
import DomainColoring.Session.Basic

/-!
# Errors on one line

Whatever a user has written into a field, a path or an expression, the message about it has no line feed in it, so that it is
reported on one line.
-/

namespace DomainColoring

namespace Text

/-- A text without a line feed. -/
def OneLine (text : String) : Prop :=
  '\n' ∉ text.toList

instance (text : String) : Decidable (OneLine text) :=
  inferInstanceAs (Decidable (_ ∉ _))

theorem oneLine_append {a b : String} : OneLine (a ++ b) ↔ OneLine a ∧ OneLine b := by
  simp [OneLine, String.toList_append]

/-- A text stands on one line if there is no line feed among its characters. -/
theorem oneLine_ofList {text : List Char} : OneLine (String.ofList text) ↔ '\n' ∉ text := by
  rw [OneLine, String.toList_ofList]

/-- Parts stand on one line if they do each, and what separates them does. -/
theorem oneLine_intercalate {separator : String} {parts : List String} (separates : OneLine separator)
    (each : ∀ part ∈ parts, OneLine part) : OneLine (String.intercalate separator parts) := by
  induction parts with
  | nil =>
    rw [String.intercalate_nil]
    decide
  | cons part rest ih =>
    cases rest with
    | nil => simpa using each part
    | cons next rest =>
      rw [String.intercalate_cons_cons, oneLine_append, oneLine_append]
      refine ⟨⟨each part List.mem_cons_self, separates⟩, ih fun other member => ?_⟩
      exact each other (List.mem_cons_of_mem _ member)

/-! ## Numbers -/

theorem oneLine_toString (n : Nat) : OneLine (toString n) :=
  (plain_toString n).lineFeed_not_mem

theorem oneLine_shortestText (x : Float) : OneLine (Decimal.shortestText x) :=
  (Decimal.plain_shortestText x).lineFeed_not_mem

/-! ## Quotations and words -/

/-- A line feed is not quoted as itself. -/
theorem lineFeed_not_mem_quoteChar (c : Char) : '\n' ∉ quoteChar c := by
  unfold quoteChar codePoint
  split_ifs with quotes backslash lineFeed
  all_goals simp [(plain_toDigits 16 c.toNat).lineFeed_not_mem]
  exact Ne.symm lineFeed

/-- A quoted text stands on one line, whatever is in it. -/
theorem oneLine_quote (text : String) : OneLine (quote text) := by
  rw [quote, oneLine_ofList]
  simp [lineFeed_not_mem_quoteChar]

/-- A word has no blanks in it, so no line feed either. -/
theorem oneLine_takeWhile (text : List Char) : OneLine (String.ofList (text.takeWhile (!isBlank ·))) := by
  rw [oneLine_ofList]
  intro member
  have visible := List.all_eq_true.1 (List.all_takeWhile (p := (!isBlank ·)) (l := text)) _ member
  revert visible
  decide

end Text

open Text

/-! ## Messages -/

/-- An error of an expression stands on one line, with the word that it quotes. -/
theorem ExpressionError.oneLine_message (error : ExpressionError) : OneLine error.message := by
  cases error with
  | invalidToken word =>
    unfold message
    simp only [oneLine_append, oneLine_quote]
    decide
  | missingOperand op =>
    have shown : OneLine op.text := by
      rcases op with op | op <;> cases op <;> decide
    unfold message
    simp only [oneLine_append, shown]
    decide
  | stackSize count =>
    cases count with
    | zero => decide
    | succ count =>
      unfold message
      simp only [oneLine_append, oneLine_toString]
      decide
  | divisionByZero => decide

theorem Size.Refusal.oneLine_message (refusal : Size.Refusal) : OneLine refusal.message := by
  unfold message
  simp only [oneLine_append, oneLine_toString]
  decide

theorem Side.oneLine_name (side : Side) : OneLine side.name := by
  cases side <;> decide

theorem Field.oneLine_name (field : Field) : OneLine field.name := by
  cases field with
  | bound side => exact side.oneLine_name
  | _ => decide

theorem ViewportFault.oneLine_message (fault : ViewportFault Float) : OneLine fault.message := by
  cases fault with
  | tooFarApart => decide
  | _ =>
    unfold message
    simp only [oneLine_append, oneLine_shortestText, Side.oneLine_name]
    decide

theorem FieldFault.oneLine_message (fault : FieldFault) : OneLine fault.message := by
  cases fault with
  | expression error => exact error.oneLine_message
  | notDecimal field text =>
    unfold message
    simp only [oneLine_append, oneLine_quote, Field.oneLine_name]
    decide
  | viewport fault => exact fault.oneLine_message

/-- A failure stands on one line. -/
theorem Failure.oneLine_message (failure : Failure) : OneLine failure.message := by
  unfold message
  simp only [oneLine_append, Field.oneLine_name, FieldFault.oneLine_message]
  decide

/-- A rejection stands on one line, however many failures it has. -/
theorem Rejection.oneLine_message (rejection : Rejection) : OneLine rejection.message := by
  have failures : OneLine (String.intercalate "; " (rejection.failures.map Failure.message)) := by
    refine oneLine_intercalate (by decide) fun part member => ?_
    obtain ⟨failure, -, rfl⟩ := List.mem_map.1 member
    exact failure.oneLine_message
  unfold message
  simp only [oneLine_append, failures]
  decide

/-- The error of a render stands on one line. -/
theorem RenderError.oneLine_message (error : RenderError) : OneLine error.message := by
  cases error with
  | size refusal => exact refusal.oneLine_message
  | cancelled => decide

/-- The error of a document stands on one line. -/
theorem DocumentError.oneLine_message (error : DocumentError) : OneLine error.message := by
  cases error with
  | wrongDataSize expected got =>
    unfold message
    simp only [oneLine_append, oneLine_toString]
    decide
  | _ => decide

/-- What is no command is reported with its verb, or with the form of the command. -/
theorem CommandError.oneLine_of_parse {text : String} {error : CommandError} (h : Command.parse text = .error error) :
    OneLine error.message := by
  rw [Command.parse, Command.splitVerb] at h
  dsimp only at h
  have verb := oneLine_takeWhile (Text.trim text.toList)
  generalize String.ofList ((Text.trim text.toList).takeWhile (!isBlank ·)) = word at h verb
  generalize Text.trim ((Text.trim text.toList).dropWhile (!isBlank ·)) = rest at h
  unfold Command.ofVerb at h
  split at h
  case h_1 | h_2 | h_3 =>
    split at h <;> cases h
    decide
  case h_9 =>
    cases h
    unfold message
    simp only [oneLine_append, verb]
    decide
  all_goals cases h

/-! ## Files -/

namespace Disk

/-- What keeps directories from being made is told on one line. -/
theorem oneLine_of_makeDirectories {d : Disk} {base : Location} {names : List String} {error : FileError}
    (h : (d.makeDirectories base names).1 = .error error) : OneLine error.message := by
  fun_induction makeDirectories d base names with
  | case1 => cases h
  | case2 d base rest ih => exact ih h
  | case3 d base name rest _ long =>
    cases h
    decide
  | case4 d base name rest _ location short taken =>
    split at h <;> cases h <;> decide
  | case5 d base name rest _ location short free found ih => exact ih h
  | case6 d base name rest _ location short free missing ih => exact ih h

/-- What is wrong with a path is told on one line. -/
theorem oneLine_of_fileLocation {d : Disk} {base : Location} {path : String} {error : FileError}
    (h : d.fileLocation base path = .error error) : OneLine error.message := by
  unfold fileLocation dotError at h
  dsimp only at h
  split at h
  · split at h <;> cases h <;> decide
  · split_ifs at h <;> cases h <;> decide

/-- What keeps a file from being created is told on one line. -/
theorem oneLine_of_create {d : Disk} {path : String} {error : FileError} (h : (d.create path).1 = .error error) :
    OneLine error.message := by
  unfold create at h
  split at h
  · cases h
    decide
  · rcases made : d.makeDirectories [] (pathNames path).dropLast with ⟨failed | base, d'⟩
    · rw [made] at h
      cases h
      exact oneLine_of_makeDirectories (congrArg Prod.fst made)
    · rw [made] at h
      cases located : d'.fileLocation base path with
      | error failed =>
        simp only [located] at h
        cases h
        exact oneLine_of_fileLocation located
      | ok location =>
        simp only [located] at h
        cases h

/-- What keeps a picture from being saved is told on one line. -/
theorem oneLine_of_save {d : Disk} {picture : Export} {error : ExportError} (h : (d.save picture).1 = .error error) :
    OneLine error.message := by
  unfold save saveDocument at h
  rcases created : d.create picture.path with ⟨failed | location, d'⟩
  · rw [created] at h
    cases h
    exact oneLine_of_create (congrArg Prod.fst created)
  · rw [created] at h
    cases document : picture.document with
    | error failed =>
      rw [document] at h
      cases h
      exact failed.oneLine_message
    | ok document' =>
      rw [document] at h
      cases h

end Disk

end DomainColoring
