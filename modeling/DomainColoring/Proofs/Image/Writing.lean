import DomainColoring.Image

/-!
# Writing rows

What a row of bytes written into an image leaves behind, byte by byte, and its consequence: writes into different rows can change
places. An image that is written row by row is therefore the same in whatever order the rows come.
-/

namespace DomainColoring

@[simp] theorem size_overwrite (bytes : Array UInt8) (position : Nat) (row : List UInt8) :
    (overwrite bytes position row).size = bytes.size := by
  induction row generalizing bytes position with
  | nil => rfl
  | cons b rest ih => rw [overwrite, ih, Array.size_setIfInBounds]

/-- A write changes the bytes from its position on, as far as it and the bytes reach, and no others. -/
theorem getElem?_overwrite (bytes : Array UInt8) (position i : Nat) (row : List UInt8) :
    (overwrite bytes position row)[i]? =
      if position ≤ i ∧ i < position + row.length ∧ i < bytes.size then row[i - position]? else bytes[i]? := by
  induction row generalizing bytes position with
  | nil =>
    rw [overwrite, if_neg]
    simp only [List.length_nil]
    omega
  | cons b rest ih =>
    rw [overwrite, ih, Array.size_setIfInBounds, List.length_cons]
    by_cases hp : i = position
    · subst hp
      rw [if_neg (by omega), Array.getElem?_setIfInBounds]
      by_cases hs : i < bytes.size
      · simp [hs]
      · simp [hs]
    · rw [Array.getElem?_setIfInBounds_ne (fun h => hp h.symm)]
      by_cases hi : position ≤ i ∧ i < position + (rest.length + 1) ∧ i < bytes.size
      · rw [if_pos (by omega), if_pos hi]
        have hd : i - position = i - (position + 1) + 1 := by omega
        rw [hd, List.getElem?_cons_succ]
      · rw [if_neg (by omega), if_neg hi]

/-- Writes to places that do not meet can change places. -/
theorem overwrite_comm (bytes : Array UInt8) (p q : Nat) (a b : List UInt8)
    (apart : p + a.length ≤ q ∨ q + b.length ≤ p) :
    overwrite (overwrite bytes p a) q b = overwrite (overwrite bytes q b) p a := by
  apply Array.ext_getElem?
  intro i
  simp only [getElem?_overwrite, size_overwrite]
  by_cases ha : p ≤ i ∧ i < p + a.length ∧ i < bytes.size
  · have hb : ¬(q ≤ i ∧ i < q + b.length ∧ i < bytes.size) := by omega
    rw [if_neg hb, if_pos ha, if_pos ha]
  · rw [if_neg ha, if_neg ha]

namespace Image

/-- Whether bytes fit into a row from an offset on. -/
def Fits (image : Image) (row offset : Nat) (bytes : List UInt8) : Prop :=
  image.HasRow row ∧ offset + bytes.length ≤ image.stride

theorem writeRow_of_fits {image : Image} {row offset : Nat} {bytes : List UInt8} (h : image.Fits row offset bytes) :
    image.writeRow row offset bytes = ⟨image.size, overwrite image.bytes (row * image.stride + offset) bytes⟩ :=
  if_pos h

theorem writeRow_of_not_fits {image : Image} {row offset : Nat} {bytes : List UInt8} (h : ¬image.Fits row offset bytes) :
    image.writeRow row offset bytes = image :=
  if_neg h

/-- Writing into a row does not change what fits where. -/
theorem fits_writeRow (image : Image) (row offset other offset' : Nat) (a b : List UInt8) :
    (image.writeRow row offset a).Fits other offset' b ↔ image.Fits other offset' b := by
  by_cases h : image.Fits row offset a
  · rw [writeRow_of_fits h]
    simp only [Fits, HasRow, stride, size_overwrite]
  · rw [writeRow_of_not_fits h]

/-- A row ends before any later one begins. -/
theorem rowEnd_le (image : Image) {row other : Nat} (h : row < other) :
    row * image.stride + image.stride ≤ other * image.stride := by
  rw [← Nat.succ_mul]
  exact Nat.mul_le_mul_right _ h

/-- Bytes that fit into different rows do not meet. -/
theorem Fits.apart {image : Image} {row other offset offset' : Nat} {a b : List UInt8} (ha : image.Fits row offset a)
    (hb : image.Fits other offset' b) (h : row ≠ other) :
    row * image.stride + offset + a.length ≤ other * image.stride + offset' ∨
      other * image.stride + offset' + b.length ≤ row * image.stride + offset := by
  have ha := ha.2
  have hb := hb.2
  rcases Nat.lt_or_gt_of_ne h with hlt | hgt
  · have := image.rowEnd_le hlt
    omega
  · have := image.rowEnd_le hgt
    omega

/-- Writes into different rows can change places. -/
theorem writeRow_comm (image : Image) {row other : Nat} (h : row ≠ other) (offset offset' : Nat) (a b : List UInt8) :
    (image.writeRow row offset a).writeRow other offset' b = (image.writeRow other offset' b).writeRow row offset a := by
  by_cases ha : image.Fits row offset a
  · by_cases hb : image.Fits other offset' b
    · have ha' := (image.fits_writeRow other offset' row offset b a).2 ha
      have hb' := (image.fits_writeRow row offset other offset' a b).2 hb
      rw [writeRow_of_fits ha', writeRow_of_fits hb']
      simp only [writeRow_of_fits ha, writeRow_of_fits hb]
      congr 1
      exact overwrite_comm _ _ _ _ _ (ha.apart hb h)
    · rw [writeRow_of_not_fits hb, writeRow_of_not_fits (mt (image.fits_writeRow row offset other offset' a b).1 hb)]
  · rw [writeRow_of_not_fits ha, writeRow_of_not_fits (mt (image.fits_writeRow other offset' row offset b a).1 ha)]

/-- A row that is written has the written bytes. -/
theorem getElem?_writeRow_self {image : Image} {row : Nat} {content : List UInt8} (fits : image.Fits row 0 content) {i : Nat}
    (hi : i < content.length) : (image.writeRow row 0 content).bytes[row * image.stride + i]? = content[i]? := by
  have room : row * image.stride + image.stride ≤ image.bytes.size := fits.1
  have length := fits.2
  rw [writeRow_of_fits fits, getElem?_overwrite, if_pos (by omega)]
  congr 1
  omega

/-- No other row is changed. -/
theorem getElem?_writeRow_of_ne (image : Image) {row other offset : Nat} (h : row ≠ other) (content : List UInt8) {i : Nat}
    (hi : i < image.stride) :
    (image.writeRow other offset content).bytes[row * image.stride + i]? = image.bytes[row * image.stride + i]? := by
  by_cases fits : image.Fits other offset content
  · have length := fits.2
    rw [writeRow_of_fits fits, getElem?_overwrite, if_neg]
    rcases Nat.lt_or_gt_of_ne h with hlt | hgt
    · have := image.rowEnd_le hlt
      omega
    · have := image.rowEnd_le hgt
      omega
  · rw [writeRow_of_not_fits fits]

@[simp] theorem size_writeRow (image : Image) (row offset : Nat) (content : List UInt8) :
    (image.writeRow row offset content).size = image.size := by
  unfold writeRow
  split <;> rfl

@[simp] theorem size_bytes_writeRow (image : Image) (row offset : Nat) (content : List UInt8) :
    (image.writeRow row offset content).bytes.size = image.bytes.size := by
  unfold writeRow
  split
  · exact size_overwrite _ _ _
  · rfl

/-- An image that is written row by row does not depend on the order of the rows, as long as a row has the same bytes wherever
it comes. -/
theorem foldr_writeRow_perm {rows rows' : List Nat} (h : rows.Perm rows') (content : Nat → List UInt8) (image : Image) :
    rows.foldr (fun row image => image.writeRow row 0 (content row)) image =
      rows'.foldr (fun row image => image.writeRow row 0 (content row)) image := by
  apply h.foldr_eq'
  intro row _ other _ written
  by_cases he : row = other
  · rw [he]
  · exact written.writeRow_comm he 0 0 (content row) (content other)

end Image

end DomainColoring
