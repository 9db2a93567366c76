import DomainColoring.Proofs.Export.Encodable

/-!
# What a failed export leaves

The file is made before there is a document, and the size of the image is looked at before the file is made. So an export that is
refused for its size or its path leaves every file as it was, and one that fails for want of a document has emptied the file that it
was to replace (`Plot.failed_export_spares_files`).
-/

namespace DomainColoring

namespace Disk

/-- Every file holds what it held, and there is no other. -/
def SameFiles (d d' : Disk) : Prop :=
  ∀ location, d'.content? location = d.content? location

theorem Extends.sameFiles {d d' : Disk} (h : d.Extends d') : d.SameFiles d' :=
  content?_congr h.files

/-- There is an unfinished file at a place where a path leads, whatever was there before, and no other file is different. -/
structure Emptied (d d' : Disk) (path : String) (location : Location) : Prop where
  read : d'.read path = some .unfinished
  content : d'.content? location = some .unfinished
  others : ∀ other, other ≠ location → d'.content? other = d.content? other

/-- A file that is not made is not touched. -/
theorem sameFiles_of_create_error {d d' : Disk} {path : String} {error : FileError}
    (h : d.create path = (.error error, d')) : d.SameFiles d' := by
  have creation := d.creation path
  rw [h] at creation
  cases creation with
  | refused _ _ grown => exact grown.sameFiles

/-- A file that is made is empty. -/
theorem emptied_of_create {d d' : Disk} {path : String} {location : Location} (h : d.create path = (.ok location, d')) :
    d.Emptied d' path location := by
  have creation := d.creation path
  rw [h] at creation
  cases creation with
  | made _ d'' grown leads =>
    have content := d''.content?_write_self location .unfinished
    refine ⟨?_, content, fun other ne => ?_⟩
    · rw [read, resolve?_write, leads]
      exact content
    · rw [content?_write_of_ne d'' ne]
      exact grown.sameFiles other

end Disk

namespace Plot

variable {p : Plot Float} {height : Nat} {s : Shading Float} {path : String} {d d' : Disk} {error : ReplyError}

/-- The three ways in which an export fails: its size is refused, or no file is made, or there is no document for it. -/
theorem failed_export_cases (failed : (p.saveReply height s path).settle d = (.error error, d')) :
    (¬(p.exportSize height).Accepted ∧ error = .render (.size ⟨p.exportSize height⟩) ∧ d' = d) ∨
      (∃ fault, error = .saving (.file fault) ∧ d.create path = (.error fault, d')) ∨
      ((p.exportSize height).Accepted ∧ isLatin1 p.expression.source = false ∧
        error = .saving (.document .unencodableText) ∧ ∃ location, d.create path = (.ok location, d')) := by
  by_cases accepted : (p.exportSize height).Accepted
  · right
    rcases created : d.create path with ⟨fault | location, d''⟩
    · left
      rw [saveReply, exported_of_accepted accepted] at failed
      dsimp only [Reply.settle, Disk.save] at failed
      rw [Disk.saveDocument_refused created] at failed
      cases failed
      exact ⟨fault, rfl, rfl⟩
    · right
      rw [settle_saveReply_of_accepted accepted s created] at failed
      cases narrow : isLatin1 p.expression.source with
      | true =>
        rw [narrow, if_pos rfl] at failed
        cases failed
      | false =>
        rw [narrow, if_neg Bool.false_ne_true] at failed
        cases failed
        exact ⟨accepted, rfl, rfl, location, rfl⟩
  · left
    rw [saveReply, exported_of_refused accepted] at failed
    cases failed
    exact ⟨accepted, rfl, rfl⟩

/-- An export that fails leaves every file with what it held, unless it fails because there is a character in its expression that
cannot be written. So it fails exactly if there is one, its size is accepted and the file can be made. Then the file has been
emptied or has come into being, and nothing but an unfinished file is to be found at its path; all other files are as before. -/
theorem failed_export_spares_files (failed : (p.saveReply height s path).settle d = (.error error, d')) :
    (error ≠ .saving (.document .unencodableText) → d.SameFiles d') ∧
      (error = .saving (.document .unencodableText) →
        ∃ location, (d.create path).1 = .ok location ∧ d.Emptied d' path location) ∧
      (error = .saving (.document .unencodableText) ↔
        (p.exportSize height).Accepted ∧ isLatin1 p.expression.source = false ∧ ∃ location, (d.create path).1 = .ok location) := by
  rcases failed_export_cases failed with ⟨refused, rfl, rfl⟩ | ⟨fault, rfl, created⟩ | ⟨accepted, wide, rfl, location, created⟩
  · refine ⟨fun _ location => rfl, fun unencodable => ?_, fun unencodable => ?_, fun conditions => ?_⟩
    · cases unencodable
    · cases unencodable
    · exact absurd conditions.1 refused
  · refine ⟨fun _ => Disk.sameFiles_of_create_error created, fun unencodable => ?_, fun unencodable => ?_, fun conditions => ?_⟩
    · cases unencodable
    · cases unencodable
    · obtain ⟨-, -, location, made⟩ := conditions
      rw [created] at made
      cases made
  · have made : (d.create path).1 = .ok location := congrArg Prod.fst created
    refine ⟨fun other => absurd rfl other, fun _ => ?_, fun _ => ?_, fun _ => rfl⟩
    · exact ⟨location, made, Disk.emptied_of_create created⟩
    · exact ⟨accepted, wide, location, made⟩

/-- An export that is too high leaves the one before it. -/
theorem too_high_export_spares_files :
    let d : Disk := ⟨[], [(["plot.png"], .document ⟨⟨⟨1, 1⟩, #[0, 0, 0, 255]⟩, []⟩)]⟩
    ∃ refusal d', (Plot.saveReply .standard 20000 ⟨0.5⟩ "plot.png").settle d = (.error (.render (.size refusal)), d') ∧
      d'.content? ["plot.png"] = some (.document ⟨⟨⟨1, 1⟩, #[0, 0, 0, 255]⟩, []⟩) := by
  intro d
  have high : ¬(Plot.standard.exportSize 20000).Accepted := by decide +kernel
  have failed : (Plot.saveReply .standard 20000 ⟨0.5⟩ "plot.png").settle d =
      (.error (.render (.size ⟨Plot.standard.exportSize 20000⟩)), d) := by
    rw [saveReply, exported_of_refused high]
    rfl
  have spared := (failed_export_spares_files failed).1 (by rintro ⟨⟩) ["plot.png"]
  exact ⟨_, d, failed, spared.trans (by decide)⟩

/-- An export with an ideographic space in its expression fails. What was exported before is lost, and where there was no file there
is one. -/
theorem failed_export_spares_file_false :
    let p : Plot Float := ⟨⟨"z\u30001 +", [.z, .literal ⟨1, 0⟩, .operator (.binary .add)], 2⟩, ⟨1, -1, 1, -1⟩⟩
    let kept : Disk := ⟨[], [(["plot.png"], .document ⟨⟨⟨1, 1⟩, #[0, 0, 0, 255]⟩, []⟩)]⟩
    Plot.ofFields ⟨"z\u30001 +", "1", "-1", "1", "-1"⟩ = .ok p ∧
    (∃ d', (p.saveReply 2 ⟨0.5⟩ "plot.png").settle kept = (.error (.saving (.document .unencodableText)), d') ∧
      kept.read "plot.png" = some (.document ⟨⟨⟨1, 1⟩, #[0, 0, 0, 255]⟩, []⟩) ∧ d'.read "plot.png" = some .unfinished) ∧
    ∃ d', (p.saveReply 2 ⟨0.5⟩ "plot.png").settle ⟨[], []⟩ = (.error (.saving (.document .unencodableText)), d') ∧
      Disk.read ⟨[], []⟩ "plot.png" = none ∧ d'.read "plot.png" = some .unfinished := by
  intro p kept
  have accepted : (p.exportSize 2).Accepted := by decide +kernel
  have wide : isLatin1 p.expression.source = false := by decide
  have lost (d : Disk) (made : (d.create "plot.png").1 = .ok ["plot.png"]) :
      ∃ d', (p.saveReply 2 ⟨0.5⟩ "plot.png").settle d = (.error (.saving (.document .unencodableText)), d') ∧
        d'.read "plot.png" = some .unfinished := by
    have created : d.create "plot.png" = (.ok ["plot.png"], (d.create "plot.png").2) := Prod.ext made rfl
    refine ⟨(d.create "plot.png").2, ?_, (Disk.emptied_of_create created).read⟩
    rw [settle_saveReply_of_accepted accepted ⟨0.5⟩ created, wide, if_neg Bool.false_ne_true]
  obtain ⟨d', failed, unfinished⟩ := lost kept (by decide +kernel)
  obtain ⟨d'', failed', unfinished'⟩ := lost ⟨[], []⟩ (by decide +kernel)
  refine ⟨ofFields_of_toOption (by decide +kernel), ⟨d', failed, by decide +kernel, unfinished⟩, d'', failed', by decide +kernel, ?_⟩
  exact unfinished'

end Plot

end DomainColoring
