import DomainColoring.Export.Disk
import DomainColoring.Render

/-!
# Exports

A plot drawn at a given height, as wide as the shape of its viewport asks for, and kept in a file. The file is opened before the
document is made, so what was there before is lost even when there is no document for it.
-/

namespace DomainColoring

/-- Why an export fails. -/
inductive ExportError where
  | render (error : RenderError)
  | file (error : FileError)
  | document (error : DocumentError)
  deriving DecidableEq, Repr

/-- The error in words. -/
def ExportError.message : ExportError → String
  | render error => error.message
  | file error => error.message
  | document error => error.message

/-- A picture on its way to a file. -/
structure Export where
  path : String
  picture : Picture
  document : Except DocumentError Document

/-- The size of the image of a plot at a height. -/
def Plot.exportSize (p : Plot Float) (height : Nat) : Size :=
  ⟨p.viewport.exportWidth height, height⟩

/-- Draws a plot for a file. -/
def Plot.exported (p : Plot Float) (height : Nat) (s : Shading Float) (path : String) : Except RenderError Export := do
  let size := p.exportSize height
  let picture ← Drawing.render ⟨p, size, s⟩
  return ⟨path, picture, Document.of picture.image (.ofPlot p size)⟩

namespace Disk

/-- Writes a document, or what there is instead of one, to the file of a path. -/
def saveDocument (d : Disk) (path : String) (document : Except DocumentError Document) : Except ExportError Unit × Disk :=
  match d.create path with
  | (.error error, d) => (.error (.file error), d)
  | (.ok location, d) =>
    match document with
    | .error error => (.error (.document error), d)
    | .ok document => (.ok (), d.write location (.document document))

/-- Writes an export to its file. -/
def save (d : Disk) (e : Export) : Except ExportError Unit × Disk :=
  d.saveDocument e.path e.document

/-- What a reader finds at a path: nothing, a complete document, or a file that is none. -/
def read (d : Disk) (path : String) : Option Content :=
  (d.resolve? [] (pathNames path)).bind d.content?

end Disk

end DomainColoring
