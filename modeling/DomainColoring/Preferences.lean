import DomainColoring.Export.Disk
import DomainColoring.Json.Record
import DomainColoring.Plot

/-!
# Preferences

What a user has laid down in a file: the plot to begin with, sizes, shading and the place for images. A file that is missing or
wrong in any part counts as none at all, and a plot that is wrong in any part gives way to the standard plot as a whole.
-/

namespace DomainColoring

/-- What a user prefers. The bounds need not be those of a viewport, nor the sizes be accepted. -/
structure Preferences where
  defaultExpression : String
  bounds : Viewport Float
  exportHeight : Nat
  lightnessMax : Float
  preview : Size
  /-- The directory for images, or nothing for the one beside the program. -/
  imagesDirectory : String

namespace Preferences

/-- What holds without a file. -/
def standard : Preferences :=
  { defaultExpression := "z"
    bounds := .standard
    exportHeight := 2048
    lightnessMax := Shading.standard.lightnessMax
    preview := ⟨640, 480⟩
    imagesDirectory := "" }

/-- Whether nothing deviates from what holds without a file. -/
def isStandard (p : Preferences) : Bool :=
  p.defaultExpression == standard.defaultExpression &&
    [Side.reUpper, .reLower, .imUpper, .imLower].all (fun side => p.bounds.bound side == standard.bounds.bound side) &&
    p.exportHeight == standard.exportHeight && p.lightnessMax == standard.lightnessMax &&
    p.preview == standard.preview && p.imagesDirectory == standard.imagesDirectory

/-- The names of the fields in a file. -/
def fieldNames : List String :=
  ["default_expression", "re_upper", "re_lower", "im_upper", "im_lower", "export_height", "lightness_max", "preview_width",
    "preview_height", "images_dir"]

/-- The preferences that a JSON value is. A field that is missing has its standard value. -/
def ofJson? (j : Json) : Option Preferences := do
  let [expression, reUpper, reLower, imUpper, imLower, exportHeight, lightnessMax, width, height, images] ←
    j.fields? fieldNames | none
  return {
    defaultExpression := ← Json.optional standard.defaultExpression Json.text? expression
    bounds := ⟨← Json.optional standard.bounds.reUpper Json.float? reUpper,
      ← Json.optional standard.bounds.reLower Json.float? reLower,
      ← Json.optional standard.bounds.imUpper Json.float? imUpper,
      ← Json.optional standard.bounds.imLower Json.float? imLower⟩
    exportHeight := ← Json.optional standard.exportHeight Json.natural? exportHeight
    lightnessMax := ← Json.optional standard.lightnessMax Json.float? lightnessMax
    preview := ⟨← Json.optional standard.preview.width Json.natural? width,
      ← Json.optional standard.preview.height Json.natural? height⟩
    imagesDirectory := ← Json.optional standard.imagesDirectory Json.text? images }

/-- The preferences in a file, by its bytes if there is one. -/
def ofFile (content : Option ByteArray) : Preferences :=
  (content.bind fun bytes => (String.fromUTF8? bytes).bind fun text => (Json.ofText? text).bind ofJson?).getD standard

/-- The shading for pictures, its bound brought into range. -/
def shading (p : Preferences) : Shading Float :=
  .clamped p.lightnessMax

/-- The texts of a submission whose missing bounds are the preferred ones. -/
def fieldsWith (p : Preferences) (expression : String) (bound? : Side → Option String) : PlotFields :=
  let bound side := (bound? side).getD (Decimal.shortestText (p.bounds.bound side))
  ⟨expression, bound .reUpper, bound .reLower, bound .imUpper, bound .imLower⟩

/-- The plot to begin with. -/
def initialPlot (p : Preferences) : Plot Float :=
  match Plot.ofFields (p.fieldsWith p.defaultExpression fun _ => none) with
  | .ok plot => plot
  | .error _ => .standard

/-- The directory for images, for a program in the given directory. -/
def imagesPath (p : Preferences) (programDirectory : String) : String :=
  if p.imagesDirectory.isEmpty then joinPath programDirectory "images" else p.imagesDirectory

/-- The size of pictures to begin with. -/
def previewSize (p : Preferences) : Size :=
  if p.preview.Accepted then p.preview else standard.preview

/-- The height of exports, which is not zero. -/
def exportHeightAtLeastOne (p : Preferences) : Nat :=
  max p.exportHeight 1

end Preferences

end DomainColoring
