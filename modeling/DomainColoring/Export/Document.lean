import DomainColoring.Image
import DomainColoring.Plot

/-!
# Documents

What an exported file holds: an image, and texts that say what it shows, from which the plot can be made again. The file format has
room for characters up to `U+00FF` only, and for no image without pixels.
-/

namespace DomainColoring

/-- What is written beside an image. -/
structure Metadata where
  expression : String
  viewport : Viewport Float
  size : Size

namespace Metadata

/-- The plot as it was drawn. -/
def ofPlot (p : Plot Float) (size : Size) : Metadata :=
  ⟨p.expression.source, p.viewport, size⟩

end Metadata

/-- A plot in one line. -/
def describe (expression : String) (v : Viewport Float) : String :=
  "f(z) = " ++ expression ++ " over Re [" ++ Decimal.shortestText v.reLower ++ ", " ++ Decimal.shortestText v.reUpper ++
    "], Im [" ++ Decimal.shortestText v.imLower ++ ", " ++ Decimal.shortestText v.imUpper ++ "]"

namespace Metadata

/-- The values that make up the plot and its size, by their keywords. -/
def entries (m : Metadata) : List (String × String) :=
  [("DomainPlot.Expression", m.expression),
    ("DomainPlot.ReUpper", Decimal.shortestText m.viewport.reUpper),
    ("DomainPlot.ReLower", Decimal.shortestText m.viewport.reLower),
    ("DomainPlot.ImUpper", Decimal.shortestText m.viewport.imUpper),
    ("DomainPlot.ImLower", Decimal.shortestText m.viewport.imLower),
    ("DomainPlot.Resolution", m.size.text)]

/-- All texts of a document by their keywords, in the order in which they are written. -/
def texts (m : Metadata) : List (String × String) :=
  [("Software", "DomainPlot"), ("Description", describe m.expression m.viewport)] ++ m.entries

end Metadata

/-- A complete file: an image with four bytes a pixel, and its texts. -/
structure Document where
  image : Image
  texts : List (String × String)
  deriving DecidableEq, Repr

/-- Why there is no document. -/
inductive DocumentError where
  | zeroWidth
  | zeroHeight
  /-- A text with a character beyond `U+00FF`. -/
  | unencodableText
  /-- A count of bytes that does not fit the size of the image. -/
  | wrongDataSize (expected got : Nat)
  deriving DecidableEq, Repr

/-- The error in words. -/
def DocumentError.message : DocumentError → String
  | zeroWidth => "PNG encoding failed: Zero width not allowed"
  | zeroHeight => "PNG encoding failed: Zero height not allowed"
  | unencodableText => "PNG encoding failed: The text metadata cannot be encoded into valid ISO 8859-1"
  | wrongDataSize expected got =>
    "PNG encoding failed: wrong data size, expected " ++ toString expected ++ " got " ++ toString got

/-- Whether a text has characters up to `U+00FF` only. -/
def isLatin1 (text : String) : Bool :=
  text.toList.all (·.toNat < 256)

/-- The document of an image with its texts. The size is looked at first, then the texts, then the bytes. -/
def Document.of (image : Image) (m : Metadata) : Except DocumentError Document :=
  if image.size.width = 0 then .error .zeroWidth
  else if image.size.height = 0 then .error .zeroHeight
  else if !m.texts.all fun (_, text) => isLatin1 text then .error .unencodableText
  else
    let expected := image.stride * image.size.height
    if image.bytes.size = expected then .ok ⟨image, m.texts⟩
    else .error (.wrongDataSize expected image.bytes.size)

end DomainColoring
