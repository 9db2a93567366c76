import Mathlib.Data.List.Basic
import Mathlib.Logic.ExistsUnique
import DomainColoring.Proofs.Image.Writing

/-!
# Images as grids of pixels

The bytes of an image are one long row. They are reached as pixels, as rows, as pieces of the length of a row and as colors one
after the other. All of these are views of one and the same grid, whatever has been written into the image
(`Image.grid_after_writes`).
-/

namespace DomainColoring

/-! ## Stretches of bytes -/

/-- The bytes of a stretch are those from its start on. -/
theorem getElem?_stretch (bytes : Array UInt8) (start : Nat) {length i : Nat} (hi : i < length) :
    (bytes.extract start (start + length)).toList[i]? = bytes[start + i]? := by
  rw [Array.getElem?_toList, Array.getElem?_extract]
  split
  · rfl
  · rw [Array.getElem?_eq_none (by omega)]

/-- No stretch is longer than it was asked to be. -/
theorem length_stretch_le (bytes : Array UInt8) (start length : Nat) :
    (bytes.extract start (start + length)).toList.length ≤ length := by
  rw [Array.length_toList, Array.size_extract]
  omega

/-- A stretch of bytes is known byte by byte. -/
theorem stretch_eq {bytes : Array UInt8} {start length : Nat} {content : List UInt8} (atMost : content.length ≤ length)
    (h : ∀ i < length, bytes[start + i]? = content[i]?) : (bytes.extract start (start + length)).toList = content := by
  apply List.ext_getElem?
  intro i
  by_cases hi : i < length
  · rw [getElem?_stretch bytes start hi, h i hi]
  · have := length_stretch_le bytes start length
    rw [List.getElem?_eq_none (by omega), List.getElem?_eq_none (by omega)]

/-- A stretch of bytes is made of its parts, if these are all of one length. -/
theorem extract_eq_flatMap (bytes : Array UInt8) (start length count : Nat) :
    (bytes.extract start (start + count * length)).toList =
      (List.range count).flatMap fun k => (bytes.extract (start + k * length) (start + k * length + length)).toList := by
  induction count with
  | zero => simp
  | succ count ih =>
    rw [List.range_succ, List.flatMap_append, ← ih, List.flatMap_singleton, ← Array.toList_append,
      Array.extract_append_extract, Nat.succ_mul]
    congr 2 <;> omega

namespace Image

/-! ## Writes -/

/-- A write into an image: of a pixel, or of bytes into a row from an offset on. -/
inductive Write where
  | pixel (column row : Nat) (color : Rgb)
  | bytes (row offset : Nat) (bytes : List UInt8)
  deriving DecidableEq, Repr

/-- An image after a write. -/
def perform (image : Image) : Write → Image
  | .pixel column row color => image.put column row color
  | .bytes row offset bytes => image.writeRow row offset bytes

/-- A black image after some writes. -/
def after (size : Size) (writes : List Write) : Image :=
  writes.foldl perform (.black size)

@[simp] theorem size_put (image : Image) (column row : Nat) (color : Rgb) : (image.put column row color).size = image.size := by
  unfold put
  split <;> rfl

/-- A pixel that is put replaces bytes and adds none. -/
@[simp] theorem size_bytes_put (image : Image) (column row : Nat) (color : Rgb) :
    (image.put column row color).bytes.size = image.bytes.size := by
  unfold put
  split
  · exact size_overwrite _ _ _
  · rfl

/-- An image with four bytes for each pixel. -/
def Whole (image : Image) : Prop :=
  image.bytes.size = image.size.height * image.stride

theorem whole_black (size : Size) : (black size).Whole := by
  rw [Whole, black, Array.size_ofFn, stride, Nat.mul_comm size.width, Nat.mul_assoc]

/-- Writes do not change the size. -/
theorem size_perform (image : Image) (write : Write) : (image.perform write).size = image.size := by
  cases write with
  | pixel column row color => exact size_put image column row color
  | bytes row offset bytes => exact size_writeRow image row offset bytes

/-- Writes keep four bytes for each pixel. -/
theorem Whole.perform {image : Image} (h : image.Whole) (write : Write) : (image.perform write).Whole := by
  have size : (image.perform write).bytes.size = image.bytes.size := by
    cases write with
    | pixel column row color => exact size_bytes_put image column row color
    | bytes row offset bytes => exact size_bytes_writeRow image row offset bytes
  rw [Whole, stride, size_perform, size]
  exact h

/-- Writes leave an image as large as it was. -/
theorem whole_after (size : Size) (writes : List Write) : (after size writes).size = size ∧ (after size writes).Whole := by
  have kept (image : Image) (whole : image.Whole) :
      (writes.foldl Image.perform image).size = image.size ∧ (writes.foldl Image.perform image).Whole := by
    induction writes generalizing image with
    | nil => exact ⟨rfl, whole⟩
    | cons write writes ih =>
      obtain ⟨size, whole⟩ := ih (image.perform write) (whole.perform write)
      exact ⟨size.trans (size_perform image write), whole⟩
  exact kept (black size) (whole_black size)

/-! ## Positions -/

section Whole

variable {image : Image} (whole : image.Whole) {column row : Nat}
include whole

/-- A row that an image has ends in it. -/
theorem Whole.rowEnd (h : row < image.size.height) : row * image.stride + image.stride ≤ image.bytes.size := by
  rw [whole, ← Nat.succ_mul]
  exact Nat.mul_le_mul_right _ h

/-- A row is there if the image has it, unless the rows have no bytes at all. -/
theorem Whole.hasRow_iff (wide : 0 < image.size.width) : image.HasRow row ↔ row < image.size.height := by
  constructor
  · intro h
    rw [HasRow, whole, ← Nat.succ_mul] at h
    exact Nat.le_of_mul_le_mul_right h (Nat.mul_pos wide (by decide))
  · exact whole.rowEnd

omit whole in
/-- A pixel ends within its row. -/
theorem positionEnd_le (h : image.Holds column row) : image.position column row + 4 ≤ row * image.stride + image.stride := by
  have := h.1
  rw [position, stride]
  omega

/-- The bytes of a pixel are in the image. -/
theorem Whole.positionEnd (h : image.Holds column row) : image.position column row + 4 ≤ image.bytes.size :=
  Nat.le_trans (positionEnd_le h) (whole.rowEnd h.2)

end Whole

/-- Different pixels do not meet. -/
theorem position_apart {image : Image} {column row column' row' : Nat} (h : image.Holds column row) (h' : image.Holds column' row')
    (other : ¬(column' = column ∧ row' = row)) :
    image.position column' row' + 4 ≤ image.position column row ∨ image.position column row + 4 ≤ image.position column' row' := by
  -- In one row the columns part them; otherwise the one that is further up ends with its row at the latest.
  rcases Nat.lt_trichotomy row' row with before | rfl | behind
  · have := positionEnd_le h'
    have := image.rowEnd_le before
    rw [position.eq_def image column row]
    omega
  · rw [position, position]
    omega
  · have := positionEnd_le h
    have := image.rowEnd_le behind
    rw [position.eq_def image column' row']
    omega

/-! ## Pixels -/

/-- The four bytes of a pixel. -/
def pixelBytes (image : Image) (column row : Nat) : List UInt8 :=
  (image.bytes.extract (image.position column row) (image.position column row + 4)).toList

/-- The bytes of a pixel stand from its position on. -/
theorem getElem?_pixelBytes (image : Image) {column row k : Nat} (hk : k < 4) :
    (image.pixelBytes column row)[k]? = image.bytes[image.position column row + k]? :=
  getElem?_stretch image.bytes _ hk

/-- The bytes of a pixel are known one by one. -/
theorem pixelBytes_eq {image : Image} {column row : Nat} {content : List UInt8} (length : content.length = 4)
    (h : ∀ i < 4, image.bytes[image.position column row + i]? = content[i]?) : image.pixelBytes column row = content :=
  stretch_eq (Nat.le_of_eq length) h

/-- Of the bytes of pixels, those of the one that is put are replaced. -/
theorem getElem?_put {image : Image} {column row column' row' k : Nat} (whole : image.Whole) (h : image.Holds column row)
    (h' : image.Holds column' row') (hk : k < 4) (color : Rgb) :
    (image.put column row color).bytes[image.position column' row' + k]? =
      if column' = column ∧ row' = row then color.bytes[k]? else image.bytes[image.position column' row' + k]? := by
  have inside := whole.positionEnd h
  have length : color.bytes.length = 4 := rfl
  rw [put, if_pos h, getElem?_overwrite, length]
  by_cases same : column' = column ∧ row' = row
  · obtain ⟨rfl, rfl⟩ := same
    rw [if_pos (by omega), if_pos ⟨rfl, rfl⟩, Nat.add_sub_cancel_left]
  · have := position_apart h h' same
    rw [if_neg (by omega), if_neg same]

/-- A pixel has all of its four bytes. -/
theorem Whole.length_pixelBytes {image : Image} {column row : Nat} (whole : image.Whole) (h : image.Holds column row) :
    (image.pixelBytes column row).length = 4 := by
  have inside := whole.positionEnd h
  rw [pixelBytes, Array.length_toList, Array.size_extract]
  omega

/-- A pixel that is put has the bytes of its color, and any other has its own. -/
theorem pixelBytes_put {image : Image} {column row column' row' : Nat} (whole : image.Whole) (h : image.Holds column row)
    (h' : image.Holds column' row') (color : Rgb) :
    (image.put column row color).pixelBytes column' row' =
      if column' = column ∧ row' = row then color.bytes else image.pixelBytes column' row' := by
  have position : (image.put column row color).position column' row' = image.position column' row' := by
    simp only [Image.position, stride, size_put]
  by_cases same : column' = column ∧ row' = row
  · rw [if_pos same]
    refine pixelBytes_eq rfl fun k hk => ?_
    rw [position, getElem?_put whole h h' hk, if_pos same]
  · rw [if_neg same]
    refine pixelBytes_eq (whole.length_pixelBytes h') fun k hk => ?_
    rw [position, getElem?_put whole h h' hk, if_neg same, getElem?_pixelBytes image hk]

/-- A pixel of the image is read from its first three bytes. -/
theorem exists_pixelBytes {image : Image} {column row : Nat} (whole : image.Whole) (h : image.Holds column row) :
    ∃ color opacity, image.pixelBytes column row = [color.r, color.g, color.b, opacity] ∧ image.pixel? column row = some color := by
  match bytes : image.pixelBytes column row, whole.length_pixelBytes h with
  | [r, g, b, opacity], _ =>
    have read (k : Nat) (hk : k < 4) : (image.pixelBytes column row)[k]? = image.bytes[image.position column row + k]? :=
      image.getElem?_pixelBytes hk
    rw [bytes] at read
    refine ⟨⟨r, g, b⟩, opacity, rfl, ?_⟩
    rw [pixel?, if_pos h]
    dsimp only
    rw [← read 1 (by decide), ← read 2 (by decide), ← Nat.add_zero (image.position column row), ← read 0 (by decide)]
    rfl

/-- A pixel is the first color of its bytes. -/
theorem pixel?_eq_head? {image : Image} {column row : Nat} (whole : image.Whole) (h : image.Holds column row) :
    image.pixel? column row = (colorsOf (image.pixelBytes column row)).head? := by
  obtain ⟨color, opacity, bytes, pixel⟩ := exists_pixelBytes whole h
  rw [pixel, bytes]
  rfl

/-- A color that is put is read where it was put and nowhere else. -/
theorem pixel?_put {image : Image} {column row : Nat} (whole : image.Whole) (h : image.Holds column row) (color : Rgb)
    (column' row' : Nat) :
    (image.put column row color).pixel? column' row' =
      if column' = column ∧ row' = row then some color else image.pixel? column' row' := by
  have holds : (image.put column row color).Holds column' row' ↔ image.Holds column' row' := by
    simp only [Holds, size_put]
  by_cases h' : image.Holds column' row'
  · have put : (image.put column row color).Whole := whole.perform (.pixel column row color)
    rw [pixel?_eq_head? put (holds.2 h'), pixelBytes_put whole h h']
    split
    · rfl
    · rw [pixel?_eq_head? whole h']
  · have other : ¬(column' = column ∧ row' = row) := by
      rintro ⟨rfl, rfl⟩
      exact h' h
    rw [if_neg other, pixel?, if_neg (mt holds.1 h'), pixel?, if_neg h']

/-- Before anything is written every pixel is black and opaque. -/
theorem pixelBytes_black {size : Size} {column row : Nat} (h : (black size).Holds column row) :
    (black size).pixelBytes column row = [0, 0, 0, 255] := by
  have inside : _ ≤ (Array.ofFn _).size := (whole_black size).positionEnd h
  have start : (black size).position column row = (row * size.width + column) * 4 := by
    rw [position, stride, Nat.add_mul, Nat.mul_assoc]
    rfl
  rw [start, Array.size_ofFn] at inside
  refine pixelBytes_eq rfl fun k hk => ?_
  rw [start, black, Array.getElem?_ofFn, dif_pos (by omega)]
  -- What a byte is depends on its place in the pixel alone.
  simp only [Nat.mul_add_mod']
  obtain rfl | rfl | rfl | rfl : k = 0 ∨ k = 1 ∨ k = 2 ∨ k = 3 := by omega
  all_goals rfl

/-! ## Rows -/

/-- A row is made of its pixels. -/
theorem row_eq_flatMap (image : Image) (row : Nat) :
    image.row row = (List.range image.size.width).flatMap (image.pixelBytes · row) :=
  extract_eq_flatMap image.bytes (row * image.stride) 4 image.size.width

/-- The image is made of its rows. -/
theorem Whole.bytes_eq_flatten {image : Image} (whole : image.Whole) : image.bytes.toList = image.rows.flatten := by
  have parts := extract_eq_flatMap image.bytes 0 image.stride image.size.height
  rw [Nat.zero_add, ← whole, Array.extract_size] at parts
  rw [parts, rows, ← List.flatMap_def]
  simp only [Nat.zero_add]
  rfl

/-- A row that is there has all of its bytes. -/
theorem length_row_of_hasRow {image : Image} {row : Nat} (h : image.HasRow row) : (image.row row).length = image.stride := by
  rw [HasRow] at h
  rw [Image.row, Array.length_toList, Array.size_extract]
  omega

/-- A row of bytes cut into pieces of one length; the last may be shorter. -/
def pieces (length : Nat) (bytes : List UInt8) : List (List UInt8) :=
  if bytes = [] ∨ length = 0 then [] else bytes.take length :: pieces length (bytes.drop length)
termination_by bytes.length
decreasing_by
  rename_i h
  rw [not_or] at h
  have := List.length_pos_iff.2 h.1
  rw [List.length_drop]
  omega

/-- Bytes that are given piece by piece are cut into these pieces. -/
theorem pieces_flatten {length : Nat} (positive : 0 < length) {parts : List (List UInt8)}
    (h : ∀ part ∈ parts, part.length = length) : pieces length parts.flatten = parts := by
  induction parts with
  | nil =>
    rw [pieces]
    exact if_pos (.inl rfl)
  | cons part parts ih =>
    obtain ⟨first, others⟩ := List.forall_mem_cons.1 h
    have some : ¬(part ++ parts.flatten = [] ∨ length = 0) := by
      rintro (none | none)
      · rw [(List.append_eq_nil_iff.1 none).1] at first
        exact Nat.ne_of_lt positive first
      · exact Nat.ne_of_gt positive none
    rw [List.flatten_cons, pieces, if_neg some, ← first, List.take_left, List.drop_left, first, ih others]

/-- The pieces of the length of a row are the rows. -/
theorem Whole.pieces_eq_rows {image : Image} (whole : image.Whole) (wide : 0 < image.size.width) :
    pieces image.stride image.bytes.toList = image.rows := by
  rw [whole.bytes_eq_flatten]
  refine pieces_flatten (Nat.mul_pos wide (by decide)) ?_
  intro part member
  obtain ⟨row, inside, rfl⟩ := List.mem_map.1 member
  exact length_row_of_hasRow (whole.rowEnd (List.mem_range.1 inside))

/-- Every byte is in one row. -/
theorem Whole.existsUnique_row {image : Image} (whole : image.Whole) {index : Nat} (h : index < image.bytes.size) :
    ∃! row, row < image.size.height ∧ row * image.stride ≤ index ∧ index < row * image.stride + image.stride := by
  have wide : 0 < image.stride := by
    rw [whole] at h
    exact Nat.pos_of_mul_pos_left (Nat.zero_lt_of_lt h)
  refine ⟨index / image.stride, ⟨?_, Nat.div_mul_le_self _ _, Nat.lt_div_mul_add wide⟩, ?_⟩
  · rw [whole] at h
    exact Nat.div_lt_of_lt_mul (Nat.mul_comm _ _ ▸ h)
  · rintro row ⟨-, first, last⟩
    exact (Nat.div_eq_of_lt_le first (by rw [Nat.succ_mul]; exact last)).symm

/-- The bytes of a row stand from its start on. -/
theorem getElem?_row (image : Image) {row i : Nat} (hi : i < image.stride) :
    (image.row row)[i]? = image.bytes[row * image.stride + i]? :=
  getElem?_stretch image.bytes _ hi

@[simp] theorem stride_writeRow (image : Image) (row offset : Nat) (bytes : List UInt8) :
    (image.writeRow row offset bytes).stride = image.stride := by
  rw [stride, stride, size_writeRow]

/-- Bytes written into a row stand between what is before and behind them in the row. -/
theorem row_writeRow {image : Image} {row offset : Nat} {bytes : List UInt8} (fits : image.Fits row offset bytes) :
    (image.writeRow row offset bytes).row row =
      (image.row row).take offset ++ (bytes ++ (image.row row).drop (offset + bytes.length)) := by
  have inside : row * image.stride + image.stride ≤ image.bytes.size := fits.1
  have room := fits.2
  have length := length_row_of_hasRow fits.1
  have front : ((image.row row).take offset).length = offset := by
    rw [List.length_take]
    omega
  apply stretch_eq
  · simp only [List.length_append, List.length_drop, front, stride_writeRow]
    omega
  · intro i hi
    rw [stride_writeRow] at hi ⊢
    rw [writeRow_of_fits fits, getElem?_overwrite]
    by_cases before : i < offset
    · rw [if_neg (by omega), List.getElem?_append_left (by omega), List.getElem?_take_of_lt before, getElem?_row image hi]
    · rw [List.getElem?_append_right (by omega), front]
      by_cases written : i < offset + bytes.length
      · rw [if_pos (by omega), List.getElem?_append_left (by omega), Nat.sub_add_eq, Nat.add_sub_cancel_left]
      · rw [if_neg (by omega), List.getElem?_append_right (by omega), List.getElem?_drop, ← getElem?_row image hi]
        congr 1
        omega

/-- No other row is changed. -/
theorem row_writeRow_of_ne (image : Image) {row other : Nat} (h : other ≠ row) (offset : Nat) (bytes : List UInt8) :
    (image.writeRow row offset bytes).row other = image.row other := by
  apply stretch_eq
  · rw [stride_writeRow]
    exact length_stretch_le image.bytes _ _
  · intro i hi
    rw [stride_writeRow] at hi ⊢
    rw [getElem?_row image hi]
    exact getElem?_writeRow_of_ne image h bytes hi

/-! ## Colors -/

/-- Of pixels given by their bytes each has its color. -/
theorem map_colorsOf_flatMap {β : Type} {places : List β} {bytes : β → List UInt8} (color? : β → Option Rgb)
    (h : ∀ place ∈ places, ∃ color opacity, bytes place = [color.r, color.g, color.b, opacity] ∧ color? place = some color) :
    (colorsOf (places.flatMap bytes)).map some = places.map color? := by
  induction places with
  | nil => rfl
  | cons place places ih =>
    obtain ⟨⟨color, opacity, first, here⟩, others⟩ := List.forall_mem_cons.1 h
    rw [List.flatMap_cons, first, List.map_cons, here, ← ih others]
    rfl

/-- The colors of an image are those of its pixels, row by row. -/
theorem Whole.map_colors {image : Image} (whole : image.Whole) :
    image.colors.map some = (List.range image.size.height).flatMap fun row =>
      (List.range image.size.width).map fun column => image.pixel? column row := by
  -- All places in one list, so that the colors can be read place by place.
  have parts : image.bytes.toList =
      ((List.range image.size.height).flatMap fun row => (List.range image.size.width).map fun column => (column, row)).flatMap
        fun place => image.pixelBytes place.1 place.2 := by
    rw [whole.bytes_eq_flatten, rows, ← List.flatMap_def, List.flatMap_assoc]
    refine List.flatMap_congr fun row _ => ?_
    rw [row_eq_flatMap, List.flatMap_map]
  rw [colors, parts, map_colorsOf_flatMap (fun place => image.pixel? place.1 place.2), List.map_flatMap]
  · simp only [List.map_map]
    rfl
  · intro place member
    obtain ⟨row, high, member⟩ := List.mem_flatMap.1 member
    obtain ⟨column, wide, rfl⟩ := List.mem_map.1 member
    exact exists_pixelBytes whole ⟨List.mem_range.1 wide, List.mem_range.1 high⟩

/-! ## All views -/

/-- The views of an image are views of one grid of pixels. -/
structure Grid (image : Image) : Prop where
  /-- Each pixel has four bytes, and the position of a byte is a number of 32 bits. -/
  bytes : image.bytes.size = 4 * image.size.width * image.size.height
  few : image.bytes.size < UInt32.size
  /-- The bytes of a pixel and those of a row are in the image. -/
  pixelEnd : ∀ column row, image.Holds column row → image.position column row + 4 ≤ image.bytes.size
  rowEnd : ∀ row < image.size.height, row * image.stride + image.stride ≤ image.bytes.size
  /-- A pixel is its first three bytes. -/
  pixel : ∀ column row, image.Holds column row →
    ∃ color opacity, image.pixelBytes column row = [color.r, color.g, color.b, opacity] ∧ image.pixel? column row = some color
  /-- A color that is put is found where it was put and nowhere else. -/
  put : ∀ column row, image.Holds column row → ∀ color column' row',
    (image.put column row color).pixel? column' row' =
      if column' = column ∧ row' = row then some color else image.pixel? column' row'
  /-- It is opaque, and the other pixels keep all their bytes. -/
  putBytes : ∀ column row, image.Holds column row → ∀ color column' row', image.Holds column' row' →
    (image.put column row color).pixelBytes column' row' =
      if column' = column ∧ row' = row then color.bytes else image.pixelBytes column' row'
  /-- Beyond the image nothing is read and nothing is put. -/
  beyond : ∀ column row, ¬image.Holds column row →
    image.pixel? column row = none ∧ ∀ color, image.put column row color = image
  /-- A row is there exactly if it is on the image; the position of its end is a number of 64 bits in any case. -/
  hasRow : ∀ row, image.HasRow row ↔ row < image.size.height
  noOverflow : ∀ row < UInt32.size, row * image.stride + image.stride < UInt64.size
  /-- A row is the bytes of its pixels. -/
  row : ∀ row, image.row row = (List.range image.size.width).flatMap (image.pixelBytes · row)
  /-- What is written into a row is found there, and what is before and behind it and all other rows stay. -/
  writeRow : ∀ row offset bytes, row < image.size.height → offset + bytes.length ≤ image.stride →
    (image.writeRow row offset bytes).row row =
        (image.row row).take offset ++ (bytes ++ (image.row row).drop (offset + bytes.length)) ∧
      ∀ other ≠ row, (image.writeRow row offset bytes).row other = image.row other
  /-- The pieces of the length of a row are the rows in their order, and each byte is in one of them. -/
  cut : pieces image.stride image.bytes.toList = image.rows
  oneRow : ∀ index < image.bytes.size,
    ∃! row, row < image.size.height ∧ row * image.stride ≤ index ∧ index < row * image.stride + image.stride
  /-- The colors are those of the pixels, row by row. -/
  colors : image.colors.map some = (List.range image.size.height).flatMap fun row =>
    (List.range image.size.width).map fun column => image.pixel? column row

/-- An image of an accepted size that has all of its bytes is a grid of pixels. -/
theorem Whole.grid {image : Image} (whole : image.Whole) (accepted : image.size.Accepted) : image.Grid where
  bytes := by
    rw [whole, stride, Nat.mul_comm, Nat.mul_comm image.size.width]
  few := by
    have area : image.size.width * image.size.height ≤ 67108864 := accepted.2.2.2.2
    rw [whole, stride, Nat.mul_left_comm, ← Nat.mul_assoc]
    show _ < 4294967296
    omega
  pixelEnd := fun _ _ => whole.positionEnd
  rowEnd := fun _ => whole.rowEnd
  pixel := fun _ _ => exists_pixelBytes whole
  put := fun _ _ => pixel?_put whole
  putBytes := fun _ _ h color _ _ h' => pixelBytes_put whole h h' color
  beyond := fun _ _ h => ⟨if_neg h, fun _ => if_neg h⟩
  hasRow := fun _ => whole.hasRow_iff accepted.1
  noOverflow := by
    intro row low
    have wide : image.stride ≤ 16384 * 4 := Nat.mul_le_mul_right 4 accepted.2.2.1
    have product : row * image.stride ≤ 4294967296 * (16384 * 4) := Nat.mul_le_mul (Nat.le_of_lt low) wide
    show _ < 18446744073709551616
    omega
  row := image.row_eq_flatMap
  writeRow := by
    intro row offset bytes inside room
    exact ⟨row_writeRow ⟨whole.rowEnd inside, room⟩, fun other h => row_writeRow_of_ne image h offset bytes⟩
  cut := whole.pieces_eq_rows accepted.1
  oneRow := fun _ => whole.existsUnique_row
  colors := whole.map_colors

/-- Let an image of an accepted size, black and opaque at first, be written into, pixel by pixel or in stretches of its rows, as
often as may be. It keeps its size, and all views of it remain views of one grid of pixels. -/
theorem grid_after_writes {size : Size} (accepted : size.Accepted) (writes : List Write) :
    (∀ column row, (black size).Holds column row → (black size).pixelBytes column row = [0, 0, 0, 255]) ∧
      (after size writes).size = size ∧ (after size writes).Grid := by
  obtain ⟨same, whole⟩ := whole_after size writes
  refine ⟨fun _ _ => pixelBytes_black, same, whole.grid ?_⟩
  rwa [same]

/-- In three by two pixels a byte is written into the lower row, a pixel is put above it, and a write beyond the image is lost. -/
theorem six_pixels_written :
    let image := after ⟨3, 2⟩ [.bytes 1 0 [9], .pixel 0 0 ⟨255, 0, 0⟩, .pixel 5 5 ⟨7, 7, 7⟩]
    Size.Accepted ⟨3, 2⟩ ∧ image.bytes.size = 24 ∧ image.pixel? 0 1 = some ⟨9, 0, 0⟩ ∧
      (image.put 1 0 ⟨7, 7, 7⟩).pixel? 0 1 = some ⟨9, 0, 0⟩ ∧ ¬image.HasRow 2 ∧
      pieces 12 image.bytes.toList = image.rows := by
  intro image
  have accepted : Size.Accepted ⟨3, 2⟩ := by decide
  obtain ⟨-, size, grid⟩ := grid_after_writes accepted [.bytes 1 0 [9], .pixel 0 0 ⟨255, 0, 0⟩, .pixel 5 5 ⟨7, 7, 7⟩]
  have pixel : image.pixel? 0 1 = some ⟨9, 0, 0⟩ := by decide +kernel
  refine ⟨accepted, grid.bytes, pixel, ?_, mt (grid.hasRow 2).1 (by decide), grid.cut⟩
  rw [grid.put 1 0 (by decide)]
  exact pixel

end Image

end DomainColoring
