import GalvoCtrl.Coe.Objects
import GalvoCtrl.Lib.BitFields

/-!
# Coe — BitSlice

Values in a bitmap (`COE_bitsliceGet`, `COE_bitsliceSet` of `esc_coe.c`). The bitmap is a
byte buffer that is read and written in words of 64 bits, and a value may lie across two
of them. Seen bit by bit, setting a value lays a field over the buffer, and getting it
reads the field.
-/

namespace GalvoCtrl.Coe

open GalvoCtrl.Lib

/-! ## The functions -/

/-- `bitmap[k]` -/
def wordAt (bitmap : List (BitVec 8)) (k : Nat) : Except AccessFault (BitVec 64) :=
  if 8 * k + 8 ≤ bitmap.length then .ok (ofBytes 64 (slice bitmap (8 * k) 8))
  else .error .outsideBuffer

/-- `bitmap[k] = w` -/
def setWordAt (bitmap : List (BitVec 8)) (k : Nat) (w : BitVec 64) :
    Except AccessFault (List (BitVec 8)) :=
  if 8 * k + 8 ≤ bitmap.length then .ok (overwrite bitmap (8 * k) (toBytes 8 w))
  else .error .outsideBuffer

/-- `(length == 64) ? UINT64_MAX : (1ULL << length) - 1` -/
def sliceMask (length : Nat) : BitVec 64 :=
  if length = 64 then BitVec.allOnes 64 else (1#64 <<< length) - 1#64

/-- `COE_bitsliceGet` -/
def coeBitsliceGet (bitmap : List (BitVec 8)) (offset length : Nat) :
    Except AccessFault (BitVec 64) := do
  let wordOffset := offset / 64
  let bitOffset := offset % 64
  let w0 ← wordAt bitmap wordOffset
  if length + bitOffset > 64 then
    let w1 ← wordAt bitmap (wordOffset + 1)
    return (w1 <<< (64 - bitOffset) ||| w0 >>> bitOffset) &&& sliceMask length
  else
    return w0 >>> bitOffset &&& sliceMask length

/-- `COE_bitsliceSet` -/
def coeBitsliceSet (bitmap : List (BitVec 8)) (offset length : Nat) (value : BitVec 64) :
    Except AccessFault (List (BitVec 8)) := do
  let wordOffset := offset / 64
  let bitOffset := offset % 64
  let mask := sliceMask length
  let mask0 := mask <<< bitOffset
  let w0 ← wordAt bitmap wordOffset
  let bitmap ← setWordAt bitmap wordOffset ((w0 &&& ~~~mask0) ||| (value <<< bitOffset &&& mask0))
  if length + bitOffset > 64 then
    let mask1 := mask >>> (64 - bitOffset)
    let w1 ← wordAt bitmap (wordOffset + 1)
    setWordAt bitmap (wordOffset + 1)
      ((w1 &&& ~~~mask1) ||| (value >>> (64 - bitOffset) &&& mask1))
  else
    return bitmap

/-! ## Words of the buffer -/

theorem wordAt_of_le {bitmap : List (BitVec 8)} {k : Nat} (h : 8 * k + 8 ≤ bitmap.length) :
    ∃ w, wordAt bitmap k = .ok w ∧ ∀ j < 64, w.getLsbD j = bitAt bitmap (64 * k + j) := by
  refine ⟨_, if_pos h, fun j hj => ?_⟩
  rw [getLsbD_ofBytes, bitAt_slice, show 8 * (8 * k) + j = 64 * k + j from by omega]
  simp [hj]

theorem setWordAt_of_le {bitmap : List (BitVec 8)} {k : Nat} (h : 8 * k + 8 ≤ bitmap.length)
    (w : BitVec 64) :
    ∃ bitmap', setWordAt bitmap k w = .ok bitmap' ∧ bitmap'.length = bitmap.length
      ∧ ∀ i, bitAt bitmap' i
        = if 64 * k ≤ i ∧ i < 64 * k + 64 then w.getLsbD (i - 64 * k) else bitAt bitmap i := by
  have hlength : 8 * k + (toBytes 8 w).length ≤ bitmap.length := by rwa [length_toBytes]
  refine ⟨_, if_pos h, length_overwrite _ _ _, fun i => ?_⟩
  rw [bitAt_overwrite hlength, length_toBytes, show 8 * (8 * k) = 64 * k from by omega,
    show 8 * (8 * k + 8) = 64 * k + 64 from by omega]
  by_cases hi : 64 * k ≤ i ∧ i < 64 * k + 64
  · rw [if_pos hi, if_pos hi, bitAt_toBytes]
    simp [show i - 64 * k < 8 * 8 from by omega]
  · rw [if_neg hi, if_neg hi]

theorem getLsbD_sliceMask {length : Nat} (h : length ≤ 64) (j : Nat) :
    (sliceMask length).getLsbD j = decide (j < length) := by
  rw [sliceMask]
  by_cases hfull : length = 64
  · subst hfull
    rw [if_pos rfl, BitVec.getLsbD_allOnes]
  · have hpow : 2 ^ length < 2 ^ 64 := Nat.pow_lt_pow_right (by omega) (by omega)
    have hmask : 1#64 <<< length - 1#64 = BitVec.ofNat 64 (2 ^ length - 1) := by
      have hpos : 0 < 2 ^ length := Nat.two_pow_pos length
      apply BitVec.eq_of_toNat_eq
      rw [BitVec.toNat_sub, BitVec.toNat_shiftLeft, BitVec.toNat_ofNat, BitVec.toNat_ofNat,
        Nat.shiftLeft_eq]
      omega
    rw [if_neg hfull, hmask, BitVec.getLsbD_ofNat, Nat.testBit_two_pow_sub_one]
    by_cases hj : j < length
    · simp [hj, show j < 64 from by omega]
    · simp [hj]

/-! ## Getting and setting -/

variable {bitmap : List (BitVec 8)} {offset length : Nat}

/-- A value of at most 64 bits that ends inside the buffer, and the words it lies in. -/
structure InBitmap (bitmap : List (BitVec 8)) (offset length : Nat) : Prop where
  aligned : bitmap.length % 8 = 0
  narrow : length ≤ 64
  pos : 0 < length
  ends : offset + length ≤ 8 * bitmap.length

theorem InBitmap.low (h : InBitmap bitmap offset length) :
    8 * (offset / 64) + 8 ≤ bitmap.length := by
  have := h.aligned
  have := h.pos
  have := h.ends
  omega

theorem InBitmap.high (h : InBitmap bitmap offset length) (hcross : length + offset % 64 > 64) :
    8 * (offset / 64 + 1) + 8 ≤ bitmap.length := by
  have := h.aligned
  have := h.ends
  omega

/-- **`COE_bitsliceGet` reads the bits** from `offset` on. -/
theorem coeBitsliceGet_spec (h : InBitmap bitmap offset length) :
    ∃ v, coeBitsliceGet bitmap offset length = .ok v
      ∧ ∀ i, v.getLsbD i = (decide (i < length) && bitAt bitmap (offset + i)) := by
  obtain ⟨w0, hw0, hbits0⟩ := wordAt_of_le h.low
  have hnarrow := h.narrow
  rw [coeBitsliceGet, hw0, ok_bind']
  by_cases hcross : length + offset % 64 > 64
  · obtain ⟨w1, hw1, hbits1⟩ := wordAt_of_le (h.high hcross)
    rw [if_pos hcross, hw1, ok_bind']
    refine ⟨_, rfl, fun i => ?_⟩
    rw [BitVec.getLsbD_and, getLsbD_sliceMask hnarrow, BitVec.getLsbD_or,
      BitVec.getLsbD_shiftLeft, BitVec.getLsbD_ushiftRight]
    by_cases hi : i < length
    · by_cases hlow : offset % 64 + i < 64
      · -- in the low word
        rw [hbits0 _ hlow, show 64 * (offset / 64) + (offset % 64 + i) = offset + i from by omega]
        simp [hi, show i < 64 - offset % 64 from by omega]
      · -- in the high word
        rw [BitVec.getLsbD_of_ge w0 _ (by omega), hbits1 _ (by omega),
          show 64 * (offset / 64 + 1) + (i - (64 - offset % 64)) = offset + i from by omega]
        simp [hi, show ¬i < 64 - offset % 64 from by omega, show i < 64 from by omega]
    · simp [hi]
  · rw [if_neg hcross]
    refine ⟨_, rfl, fun i => ?_⟩
    rw [BitVec.getLsbD_and, getLsbD_sliceMask hnarrow, BitVec.getLsbD_ushiftRight]
    by_cases hi : i < length
    · rw [hbits0 _ (by omega),
        show 64 * (offset / 64) + (offset % 64 + i) = offset + i from by omega, Bool.and_comm]
    · simp [hi]

/-- The field that a value makes. -/
def valueField (offset length : Nat) (value : BitVec 64) : BitField :=
  ⟨offset, length, value.getLsbD⟩

theorem put_valueField (value : BitVec 64) (img : Nat → Bool) (i : Nat) :
    (valueField offset length value).put img i
      = if offset ≤ i ∧ i < offset + length then value.getLsbD (i - offset) else img i :=
  BitField.put_mk offset length value.getLsbD img i

/-- **`COE_bitsliceSet` lays the value over the buffer.** -/
theorem coeBitsliceSet_spec (h : InBitmap bitmap offset length) (value : BitVec 64) :
    ∃ bitmap', coeBitsliceSet bitmap offset length value = .ok bitmap'
      ∧ bitmap'.length = bitmap.length
      ∧ bitAt bitmap' = (valueField offset length value).put (bitAt bitmap) := by
  obtain ⟨w0, hw0, hbits0⟩ := wordAt_of_le h.low
  have hnarrow := h.narrow
  obtain ⟨bitmap₁, hset₁, hlength₁, hbits₁⟩ := setWordAt_of_le h.low
    ((w0 &&& ~~~(sliceMask length <<< (offset % 64)))
      ||| (value <<< (offset % 64) &&& sliceMask length <<< (offset % 64)))
  -- the low word: the masked bits from the value, the others as they were
  have hlow : ∀ i, bitAt bitmap₁ i = if offset ≤ i ∧ i < offset + length
      ∧ i < 64 * (offset / 64) + 64 then value.getLsbD (i - offset) else bitAt bitmap i := by
    intro i
    rw [hbits₁]
    by_cases hword : 64 * (offset / 64) ≤ i ∧ i < 64 * (offset / 64) + 64
    · have hj : i - 64 * (offset / 64) < 64 := by omega
      rw [if_pos hword, BitVec.getLsbD_or, BitVec.getLsbD_and, BitVec.getLsbD_and,
        BitVec.getLsbD_not, BitVec.getLsbD_shiftLeft, BitVec.getLsbD_shiftLeft,
        getLsbD_sliceMask hnarrow, hbits0 _ hj,
        show 64 * (offset / 64) + (i - 64 * (offset / 64)) = i from by omega,
        show i - 64 * (offset / 64) - offset % 64 = i - offset from by omega]
      by_cases hin : offset ≤ i
      · have hshift : ¬i - 64 * (offset / 64) < offset % 64 := by omega
        by_cases hend : i < offset + length
        · simp [hj, hshift, hin, hend, hword, show i - offset < length from by omega]
        · simp [hj, hend, show ¬i - offset < length from by omega]
      · have hshift : i - 64 * (offset / 64) < offset % 64 := by omega
        simp [hj, hshift, hin]
    · rw [if_neg hword, if_neg (by omega)]
  rw [coeBitsliceSet]
  simp only [hw0, ok_bind', hset₁]
  by_cases hcross : length + offset % 64 > 64
  · have hhigh := h.high hcross
    rw [← hlength₁] at hhigh
    obtain ⟨w1, hw1, hbits1⟩ := wordAt_of_le hhigh
    obtain ⟨bitmap₂, hset₂, hlength₂, hbits₂⟩ := setWordAt_of_le hhigh
      ((w1 &&& ~~~(sliceMask length >>> (64 - offset % 64)))
        ||| (value >>> (64 - offset % 64) &&& sliceMask length >>> (64 - offset % 64)))
    simp only [hcross, if_true, hw1, ok_bind', hset₂]
    refine ⟨bitmap₂, rfl, hlength₂.trans hlength₁, funext fun i => ?_⟩
    rw [hbits₂]
    by_cases hword : 64 * (offset / 64 + 1) ≤ i ∧ i < 64 * (offset / 64 + 1) + 64
    · have hj : i - 64 * (offset / 64 + 1) < 64 := by omega
      rw [if_pos hword, BitVec.getLsbD_or, BitVec.getLsbD_and, BitVec.getLsbD_and,
        BitVec.getLsbD_not, BitVec.getLsbD_ushiftRight, BitVec.getLsbD_ushiftRight,
        getLsbD_sliceMask hnarrow, hbits1 _ hj, hlow,
        show 64 * (offset / 64 + 1) + (i - 64 * (offset / 64 + 1)) = i from by omega,
        show 64 - offset % 64 + (i - 64 * (offset / 64 + 1)) = i - offset from by omega,
        if_neg (by omega)]
      by_cases hend : i < offset + length
      · rw [put_valueField, if_pos ⟨by omega, hend⟩]
        simp [hj, show i - offset < length from by omega]
      · rw [put_valueField, if_neg fun hin => hend hin.2]
        simp [hj, show ¬i - offset < length from by omega]
    · rw [if_neg hword, hlow, put_valueField]
      by_cases hin : offset ≤ i ∧ i < offset + length
      · rw [if_pos ⟨hin.1, hin.2, by omega⟩, if_pos hin]
      · rw [if_neg fun hc => hin ⟨hc.1, hc.2.1⟩, if_neg hin]
  · simp only [hcross, if_false]
    refine ⟨bitmap₁, rfl, hlength₁, funext fun i => ?_⟩
    rw [hlow, put_valueField]
    by_cases hin : offset ≤ i ∧ i < offset + length
    · rw [if_pos ⟨hin.1, hin.2, by omega⟩, if_pos hin]
    · rw [if_neg fun hc => hin ⟨hc.1, hc.2.1⟩, if_neg hin]

end GalvoCtrl.Coe
