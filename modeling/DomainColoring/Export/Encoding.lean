import DomainColoring.Export.Document

/-!
# Documents as bytes

The portable network graphics format: a signature, then chunks of a kind, their data and a checksum. The rows of the image are stored
without compression, in blocks of at most 65535 bytes, inside the wrapping that the format asks for.
-/

namespace DomainColoring

namespace Encoding

/-- A number in four bytes, the highest first. -/
def bigEndian (n : UInt32) : ByteArray :=
  ⟨#[(n >>> 24).toUInt8, (n >>> 16).toUInt8, (n >>> 8).toUInt8, n.toUInt8]⟩

/-- A number in two bytes, the lowest first. -/
def littleEndian (n : UInt16) : ByteArray :=
  ⟨#[n.toUInt8, (n >>> 8).toUInt8]⟩

/-- One division step of the cyclic checksum. -/
def crcStep (c : UInt32) : UInt32 :=
  if c &&& 1 = 1 then (c >>> 1) ^^^ 0xedb88320 else c >>> 1

/-- Eight division steps for each value of a byte. -/
def crcTable : Array UInt32 :=
  Array.ofFn (n := 256) fun b => Nat.repeat crcStep 8 (UInt32.ofNat b.val)

/-- The cyclic checksum of 32 bits. -/
def crc (data : ByteArray) : UInt32 :=
  data.foldl (fun c b => crcTable.getD (c ^^^ b.toUInt32).toUInt8.toNat 0 ^^^ (c >>> 8)) 0xffffffff ^^^ 0xffffffff

/-- The checksum of two sums modulo 65521. -/
def adler (data : ByteArray) : UInt32 :=
  let (a, b) := data.foldl
    (fun (sums : UInt32 × UInt32) byte =>
      let a := (sums.1 + byte.toUInt32) % 65521
      (a, (sums.2 + a) % 65521))
    (1, 0)
  (b <<< 16) ||| a

/-- A chunk: the length of its data, its kind, its data, and the checksum of the last two. -/
def chunk (kind : String) (data : ByteArray) : ByteArray :=
  let body := kind.toUTF8 ++ data
  bigEndian (UInt32.ofNat data.size) ++ body ++ bigEndian (crc body)

/-- The most bytes that a block can hold. -/
def blockSize : Nat := 65535

/-- A block of stored bytes: whether it is the last, its length, the complement of its length, and the bytes. -/
def storedBlock (isLast : Bool) (data : ByteArray) : ByteArray :=
  let length := UInt16.ofNat data.size
  ⟨#[if isLast then 1 else 0]⟩ ++ littleEndian length ++ littleEndian (length ^^^ 0xffff) ++ data

/-- Bytes stored in blocks, with the wrapping around them. -/
def stored (data : ByteArray) : ByteArray :=
  let count := max 1 ((data.size + blockSize - 1) / blockSize)
  let blocks := (List.range count).foldl
    (fun written k => written ++ storedBlock (k + 1 = count) (data.extract (k * blockSize) ((k + 1) * blockSize)))
    ⟨#[0x78, 0x01]⟩
  blocks ++ bigEndian (adler data)

/-- The rows of an image, each behind the byte that says that it is not filtered. -/
def scanlines (image : Image) : ByteArray :=
  (List.range image.size.height).foldl
    (fun written row =>
      written.push 0 ++ ⟨image.bytes.extract (row * image.stride) (row * image.stride + image.stride)⟩)
    .empty

/-- The characters of a text up to `U+00FF` as bytes. -/
def latin1 (text : String) : ByteArray :=
  ⟨(text.toList.map fun c => UInt8.ofNat c.toNat).toArray⟩

/-- The size of an image, and that a pixel has four channels of eight bits. -/
def header (size : Size) : ByteArray :=
  bigEndian (UInt32.ofNat size.width) ++ bigEndian (UInt32.ofNat size.height) ++ ⟨#[8, 6, 0, 0, 0]⟩

/-- The bytes with which every file begins. -/
def signature : ByteArray :=
  ⟨#[0x89, 0x50, 0x4e, 0x47, 0x0d, 0x0a, 0x1a, 0x0a]⟩

end Encoding

/-- The bytes of a document. -/
def Document.encode (d : Document) : ByteArray :=
  let texts := d.texts.foldl
    (fun written (keyword, text) =>
      written ++ Encoding.chunk "tEXt" (Encoding.latin1 keyword ++ ⟨#[0]⟩ ++ Encoding.latin1 text))
    ByteArray.empty
  Encoding.signature ++ Encoding.chunk "IHDR" (Encoding.header d.image.size) ++ texts ++
    Encoding.chunk "IDAT" (Encoding.stored (Encoding.scanlines d.image)) ++ Encoding.chunk "IEND" .empty

end DomainColoring
