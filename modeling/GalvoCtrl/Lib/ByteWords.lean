import Mathlib.Data.List.Basic
import Mathlib.Data.Nat.Bitwise

/-!
# ByteWords — words in byte strings

A byte string is read bit by bit (`bitAt`), the low bit of the first byte first. A word
is spelled by its bytes in that order (`toBytes`, `ofBytes`); blocks of bytes are read
from a string (`slice`) and copied over it (`overwrite`). Everything that is done to a
string is told by what it does to the bits.
-/

namespace GalvoCtrl.Lib

variable {w : Nat}

/-! ## Bits -/

/-- Bit `i` of a byte string. -/
def bitAt (bs : List (BitVec 8)) (i : Nat) : Bool := (bs.getD (i / 8) 0).getLsbD (i % 8)

theorem bitAt_of_ge {bs : List (BitVec 8)} {i : Nat} (h : 8 * bs.length ≤ i) :
    bitAt bs i = false := by
  rw [bitAt, List.getD_eq_default _ _ (by omega)]
  exact BitVec.getLsbD_zero

@[simp] theorem bitAt_nil (i : Nat) : bitAt [] i = false := bitAt_of_ge (Nat.zero_le _)

theorem bitAt_cons (b : BitVec 8) (bs : List (BitVec 8)) (i : Nat) :
    bitAt (b :: bs) i = if i < 8 then b.getLsbD i else bitAt bs (i - 8) := by
  by_cases h : i < 8
  · rw [if_pos h, bitAt, Nat.div_eq_of_lt h, Nat.mod_eq_of_lt h]
    rfl
  · rw [if_neg h, bitAt, bitAt, show i / 8 = (i - 8) / 8 + 1 from by omega,
      show i % 8 = (i - 8) % 8 from by omega]
    rfl

/-- **Byte strings of one length with the same bits** are the same. -/
theorem ext_bitAt {as bs : List (BitVec 8)} (hlength : as.length = bs.length)
    (hbits : ∀ i < 8 * as.length, bitAt as i = bitAt bs i) : as = bs := by
  refine List.ext_getElem hlength fun k hk hk' => BitVec.eq_of_getLsbD_eq fun i hi => ?_
  have h := hbits (8 * k + i) (by omega)
  rwa [bitAt, bitAt, show (8 * k + i) / 8 = k from by omega, show (8 * k + i) % 8 = i from by omega,
    List.getD_eq_getElem _ _ hk, List.getD_eq_getElem _ _ hk'] at h

/-! ## Words -/

/-- The word that bytes spell, low byte first. -/
def ofBytes (w : Nat) : List (BitVec 8) → BitVec w
  | [] => 0
  | b :: bs => b.setWidth w ||| (ofBytes w bs <<< 8)

/-- The first `n` bytes of a word, low byte first. -/
def toBytes (n : Nat) (v : BitVec w) : List (BitVec 8) :=
  (List.range n).map fun k => v.extractLsb' (8 * k) 8

@[simp] theorem length_toBytes (n : Nat) (v : BitVec w) : (toBytes n v).length = n := by
  simp [toBytes]

theorem getLsbD_ofBytes (w : Nat) (bs : List (BitVec 8)) (i : Nat) :
    (ofBytes w bs).getLsbD i = (decide (i < w) && bitAt bs i) := by
  induction bs generalizing i with
  | nil => simp [ofBytes]
  | cons b bs ih =>
      rw [ofBytes, BitVec.getLsbD_or, BitVec.getLsbD_setWidth, BitVec.getLsbD_shiftLeft, ih,
        bitAt_cons]
      by_cases hw : i < w
      · by_cases h : i < 8
        · simp [hw, h]
        · simp [hw, h, show i - 8 < w from by omega, BitVec.getLsbD_of_ge b i (by omega)]
      · simp [hw]

theorem bitAt_toBytes (n : Nat) (v : BitVec w) (i : Nat) :
    bitAt (toBytes n v) i = (decide (i < 8 * n) && v.getLsbD i) := by
  by_cases h : i < 8 * n
  · have hk : i / 8 < n := by omega
    have hi : i % 8 < 8 := Nat.mod_lt _ (by omega)
    rw [bitAt, toBytes, List.getD_eq_getElem _ _ (by simpa using hk), List.getElem_map,
      List.getElem_range, BitVec.getLsbD_extractLsb', show 8 * (i / 8) + i % 8 = i from by omega]
    simp [h, hi]
  · rw [bitAt_of_ge (by rw [length_toBytes]; omega)]
    simp [h]

/-- **A word comes back from its bytes.** -/
theorem ofBytes_toBytes {n : Nat} (hn : w ≤ 8 * n) (v : BitVec w) :
    ofBytes w (toBytes n v) = v := by
  refine BitVec.eq_of_getLsbD_eq fun i hi => ?_
  rw [getLsbD_ofBytes, bitAt_toBytes]
  simp [hi, show i < 8 * n from by omega]

/-! ## Blocks -/

/-- The `n` bytes from `off` on. -/
def slice (buf : List (BitVec 8)) (off n : Nat) : List (BitVec 8) := (buf.drop off).take n

/-- The string with `bs` copied over it at `off`; what does not fit is left out. -/
def overwrite (buf : List (BitVec 8)) (off : Nat) (bs : List (BitVec 8)) : List (BitVec 8) :=
  buf.mapIdx fun i b => if off ≤ i ∧ i < off + bs.length then bs.getD (i - off) 0 else b

variable {buf bs : List (BitVec 8)} {off n i : Nat}

theorem length_slice (h : off + n ≤ buf.length) : (slice buf off n).length = n := by
  rw [slice, List.length_take, List.length_drop]
  omega

@[simp] theorem length_overwrite (buf : List (BitVec 8)) (off : Nat) (bs : List (BitVec 8)) :
    (overwrite buf off bs).length = buf.length := List.length_mapIdx

theorem bitAt_slice (buf : List (BitVec 8)) (off n i : Nat) :
    bitAt (slice buf off n) i = (decide (i < 8 * n) && bitAt buf (8 * off + i)) := by
  rw [bitAt, bitAt, slice, List.getD_eq_getElem?_getD, List.getD_eq_getElem?_getD,
    List.getElem?_take, List.getElem?_drop, show (8 * off + i) / 8 = off + i / 8 from by omega,
    show (8 * off + i) % 8 = i % 8 from by omega]
  by_cases h : i < 8 * n
  · simp [h, show i / 8 < n from by omega]
  · simp [h, show ¬i / 8 < n from by omega]

/-- What lies outside a copy stays. -/
theorem bitAt_overwrite_of_not (h : ¬(8 * off ≤ i ∧ i < 8 * (off + bs.length))) :
    bitAt (overwrite buf off bs) i = bitAt buf i := by
  rw [bitAt, bitAt, List.getD_eq_getElem?_getD, List.getD_eq_getElem?_getD, overwrite,
    List.getElem?_mapIdx]
  simp only [show ¬(off ≤ i / 8 ∧ i / 8 < off + bs.length) from by omega, if_false]
  cases buf[i / 8]? <;> rfl

/-- **What a copy does to the bits.** -/
theorem bitAt_overwrite (h : off + bs.length ≤ buf.length) (i : Nat) :
    bitAt (overwrite buf off bs) i
      = if 8 * off ≤ i ∧ i < 8 * (off + bs.length) then bitAt bs (i - 8 * off)
        else bitAt buf i := by
  by_cases hin : 8 * off ≤ i ∧ i < 8 * (off + bs.length)
  · have hbyte : off ≤ i / 8 ∧ i / 8 < off + bs.length := by omega
    rw [if_pos hin, bitAt, bitAt, List.getD_eq_getElem?_getD, overwrite, List.getElem?_mapIdx,
      List.getElem?_eq_getElem (by omega : i / 8 < buf.length),
      show (i - 8 * off) / 8 = i / 8 - off from by omega,
      show (i - 8 * off) % 8 = i % 8 from by omega]
    simp only [hbyte, and_self, if_true]
    rfl
  · rw [if_neg hin, bitAt_overwrite_of_not hin]

/-- A copy over the whole string. -/
theorem overwrite_all (h : bs.length = buf.length) : overwrite buf 0 bs = bs := by
  refine ext_bitAt (by rw [length_overwrite, h]) fun i hi => ?_
  rw [length_overwrite] at hi
  rw [bitAt_overwrite (by omega), if_pos (by omega), Nat.mul_zero, Nat.sub_zero]

/-- A block is read back. -/
theorem slice_overwrite (hn : bs.length = n) (h : off + n ≤ buf.length) :
    slice (overwrite buf off bs) off n = bs := by
  refine ext_bitAt (by rw [length_slice (by rwa [length_overwrite]), hn]) fun i hi => ?_
  rw [length_slice (by rwa [length_overwrite])] at hi
  rw [bitAt_slice, bitAt_overwrite (by rwa [hn]), if_pos (by omega)]
  simp [hi]

/-- Two blocks side by side. -/
theorem slice_add (buf : List (BitVec 8)) (off m n : Nat) :
    slice buf off (m + n) = slice buf off m ++ slice buf (off + m) n := by
  rw [slice, slice, slice, List.take_add, List.drop_drop]

end GalvoCtrl.Lib
