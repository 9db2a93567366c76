import Mathlib.Data.List.Basic
import Mathlib.Tactic.SplitIfs
import DomainColoring.Export.Basic

/-!
# What an attempt to save leaves

Making a file changes no file but that one: directories may come into being on the way to it, and then the file is empty
(`Disk.creation`). All that can follow is its document (`Disk.saving`).
-/

namespace DomainColoring

namespace Disk

/-! ## Directories -/

/-- No directory is gone and no file is different. -/
structure Extends (d d' : Disk) : Prop where
  directories : ∀ location, d.isDirectory location = true → d'.isDirectory location = true
  files : d'.files = d.files

theorem Extends.refl (d : Disk) : d.Extends d :=
  ⟨fun _ found => found, rfl⟩

theorem Extends.trans {d d' d'' : Disk} (h : d.Extends d') (h' : d'.Extends d'') : d.Extends d'' :=
  ⟨fun location found => h'.directories location (h.directories location found), h'.files.trans h.files⟩

/-- A new directory takes nothing away. -/
theorem extends_addDirectory (d : Disk) (location : Location) :
    d.Extends { d with directories := location :: d.directories } := by
  refine ⟨fun other found => ?_, rfl⟩
  rw [isDirectory, Bool.or_eq_true] at found ⊢
  rcases found with root | found
  · exact .inl root
  · right
    rw [List.contains_iff_mem] at found ⊢
    exact List.mem_cons_of_mem location found

/-- A new directory is there. -/
theorem isDirectory_addDirectory (d : Disk) (location : Location) :
    isDirectory { d with directories := location :: d.directories } location = true := by
  rw [isDirectory, Bool.or_eq_true, List.contains_iff_mem]
  exact .inr List.mem_cons_self

/-- Making directories takes nothing away, also where it fails on the way. -/
theorem extends_makeDirectories (d : Disk) (base : Location) (names : List String) :
    d.Extends (d.makeDirectories base names).2 := by
  fun_induction makeDirectories d base names with
  | case1 => exact .refl _
  | case2 d base rest ih => exact ih
  | case3 => exact .refl _
  | case4 => exact .refl _
  | case5 d base name rest _ location short free found ih => exact ih
  | case6 d base name rest _ location short free missing ih => exact (extends_addDirectory d location).trans ih

/-- A directory that is inside of directories only. -/
def Rooted (d : Disk) (base : Location) : Prop :=
  ∀ outer, outer <+: base → d.isDirectory outer = true

/-- The root is a directory. -/
theorem rooted_nil (d : Disk) : d.Rooted [] := by
  intro outer inside
  rw [List.prefix_nil.1 inside]
  rfl

/-- One level up all directories are still there. -/
theorem Rooted.dropLast {d : Disk} {base : Location} (h : d.Rooted base) : d.Rooted base.dropLast :=
  fun outer inside => h outer (inside.trans base.dropLast_prefix)

theorem Rooted.extended {d d' : Disk} {base : Location} (h : d.Rooted base) (grown : d.Extends d') : d'.Rooted base :=
  fun outer inside => grown.directories outer (h outer inside)

/-- One level down all directories are there if the last one is. -/
theorem Rooted.concat {d : Disk} {base : Location} (h : d.Rooted base) {name : String}
    (found : d.isDirectory (base ++ [name]) = true) : d.Rooted (base ++ [name]) := by
  intro outer inside
  rcases List.prefix_concat_iff.1 inside with rfl | inside
  · exact found
  · exact h outer inside

/-- Where directories have been made all the way, the names lead to the last of them. -/
theorem resolve?_of_makeDirectories {d d' : Disk} {base location : Location} {names : List String} (rooted : d.Rooted base)
    (made : d.makeDirectories base names = (.ok location, d')) :
    d'.resolve? base names = some location ∧ d'.isDirectory location = true := by
  have grown : d.Extends d' := by
    have grown := extends_makeDirectories d base names
    rwa [made] at grown
  have here : d'.isDirectory base = true := grown.directories base (rooted base List.prefix_rfl)
  fun_induction makeDirectories d base names with
  | case1 =>
    cases made
    exact ⟨rfl, here⟩
  | case2 d base rest ih =>
    rw [resolve?, if_pos here, if_pos rfl]
    exact ih rooted.dropLast made grown (grown.directories _ (rooted.dropLast _ List.prefix_rfl))
  | case3 => cases made
  | case4 => cases made
  | case5 d base name rest up location' short free found ih =>
    rw [resolve?, if_pos here, if_neg up]
    exact ih (rooted.concat found) made grown (grown.directories _ found)
  | case6 d base name rest up location' short free missing ih =>
    have inside := isDirectory_addDirectory d location'
    have rooted := (rooted.extended (extends_addDirectory d location')).concat inside
    have grown : Disk.Extends { d with directories := location' :: d.directories } d' := by
      have grown := extends_makeDirectories { d with directories := location' :: d.directories } location' rest
      rwa [made] at grown
    rw [resolve?, if_pos here, if_neg up]
    exact ih rooted made grown (grown.directories _ inside)

/-- A name that is no way up leads from a directory into the one within it. -/
theorem resolve?_concat {d : Disk} {base inner : Location} {names : List String} (leads : d.resolve? base names = some inner)
    (found : d.isDirectory inner = true) {name : String} (down : name ≠ "..") :
    d.resolve? base (names ++ [name]) = some (inner ++ [name]) := by
  induction names generalizing base with
  | nil =>
    cases leads
    rw [List.nil_append, resolve?, if_pos found, if_neg down, resolve?]
  | cons first rest ih =>
    rw [resolve?] at leads
    split at leads
    · rename_i here
      rw [List.cons_append, resolve?, if_pos here]
      exact ih leads
    · cases leads

/-! ## Files -/

/-- The place of a file is given by its directory and the last name of its path. -/
theorem fileLocation_eq_ok {d : Disk} {base location : Location} {path : String}
    (h : d.fileLocation base path = .ok location) :
    ∃ name, (pathNames path).getLast? = some name ∧ name ≠ ".." ∧ location = base ++ [name] := by
  unfold fileLocation at h
  split at h
  · cases h
  · rename_i name last
    dsimp only at h
    split_ifs at h with up dot slash long directory
    cases h
    exact ⟨name, last, up, rfl⟩

/-- What making a file comes to. -/
inductive Creation (d : Disk) (path : String) : Except FileError Location × Disk → Prop
  /-- Nothing but directories on the way to it. -/
  | refused (error : FileError) (d' : Disk) (grown : d.Extends d') : Creation d path (.error error, d')
  /-- An empty file at the place where the path leads. -/
  | made (location : Location) (d' : Disk) (grown : d.Extends d')
      (leads : d'.resolve? [] (pathNames path) = some location) : Creation d path (.ok location, d'.write location .unfinished)

/-- Creating a file does what it is said to do. -/
theorem creation (d : Disk) (path : String) : Creation d path (d.create path) := by
  unfold create
  split
  · exact .refused _ d (.refl d)
  · have grown := extends_makeDirectories d [] (pathNames path).dropLast
    rcases made : d.makeDirectories [] (pathNames path).dropLast with ⟨error | base, d'⟩
    · rw [made] at grown
      exact .refused error d' grown
    · rw [made] at grown
      dsimp only
      cases placed : d'.fileLocation base path with
      | error error => exact .refused error d' grown
      | ok location =>
        obtain ⟨name, last, down, rfl⟩ := fileLocation_eq_ok placed
        obtain ⟨leads, found⟩ := resolve?_of_makeDirectories d.rooted_nil made
        have names : pathNames path = (pathNames path).dropLast ++ [name] := (List.dropLast_append_getLast? name last).symm
        refine .made (base ++ [name]) d' grown ?_
        rw [names]
        exact resolve?_concat leads found down

theorem content?_congr {d d' : Disk} (files : d'.files = d.files) (location : Location) :
    d'.content? location = d.content? location := by
  rw [content?, files, content?]

theorem content?_write_self (d : Disk) (location : Location) (content : Content) :
    (d.write location content).content? location = some content := by
  simp [write, content?]

/-- Writing into a file leaves the others alone. -/
theorem content?_write_of_ne (d : Disk) {location other : Location} (ne : other ≠ location) (content : Content) :
    (d.write location content).content? other = d.content? other := by
  have others : (d.files.filter (·.1 ≠ location)).find? (·.1 == other) = d.files.find? (·.1 == other) := by
    rw [List.find?_filter]
    congr 1
    funext file
    by_cases here : file.1 = other
    · simp [here, ne]
    · simp [here]
  rw [content?, write, List.find?_cons_of_neg (by simp [ne.symm]), others, content?]

/-- Writing into a file moves no directory. -/
theorem resolve?_write (d : Disk) (location : Location) (content : Content) (base : Location) (names : List String) :
    (d.write location content).resolve? base names = d.resolve? base names := by
  induction names generalizing base with
  | nil => rfl
  | cons name rest ih =>
    rw [resolve?, ih, resolve?]
    rfl

/-! ## Saving -/

theorem saveDocument_refused {d d' : Disk} {path : String} {error : FileError} (created : d.create path = (.error error, d'))
    (document : Except DocumentError Document) : d.saveDocument path document = (.error (.file error), d') := by
  rw [saveDocument, created]

theorem saveDocument_error {d d' : Disk} {path : String} {location : Location} (created : d.create path = (.ok location, d'))
    (error : DocumentError) : d.saveDocument path (.error error) = (.error (.document error), d') := by
  rw [saveDocument, created]

theorem saveDocument_ok {d d' : Disk} {path : String} {location : Location} (created : d.create path = (.ok location, d'))
    (document : Document) : d.saveDocument path (.ok document) = (.ok (), d'.write location (.document document)) := by
  rw [saveDocument, created]

end Disk

end DomainColoring
