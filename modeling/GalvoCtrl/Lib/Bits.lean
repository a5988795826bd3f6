import Mathlib.Data.Nat.Bitwise
import Mathlib.Tactic.Ring

/-!
# Bits — words as bit sequences

A word of `n` bits is read most significant bit first (`msbFirst`), back into a
number (`ofMsbFirst`), and checked for even parity (`EvenOnes`). Bits are given
as a function of the bit index, so the lemmas fit `Nat.testBit` and
`BitVec.getLsbD` alike.
-/

namespace GalvoCtrl.Lib

variable {α β : Type*}

/-- The values at the indices `n - 1, …, 0`. -/
def msbFirst (f : Nat → α) : Nat → List α
  | 0 => []
  | n + 1 => f n :: msbFirst f n

@[simp] theorem length_msbFirst (f : Nat → α) (n : Nat) : (msbFirst f n).length = n := by
  induction n with
  | zero => rfl
  | succ n ih => simp [msbFirst, ih]

theorem map_msbFirst (g : α → β) (f : Nat → α) (n : Nat) :
    (msbFirst f n).map g = msbFirst (fun i => g (f i)) n := by
  induction n with
  | zero => rfl
  | succ n ih => simp [msbFirst, ih]

theorem msbFirst_congr {f g : Nat → α} {n : Nat} (h : ∀ i, i < n → f i = g i) :
    msbFirst f n = msbFirst g n := by
  induction n with
  | zero => rfl
  | succ n ih => rw [msbFirst, msbFirst, h n (by omega), ih (fun i hi => h i (by omega))]

/-- Splitting off the low `m` bits. -/
theorem msbFirst_add (f : Nat → α) (n m : Nat) :
    msbFirst f (n + m) = msbFirst (fun i => f (i + m)) n ++ msbFirst f m := by
  induction n with
  | zero => simp [msbFirst]
  | succ n ih => rw [show n + 1 + m = n + m + 1 from by omega, msbFirst, ih, msbFirst]; rfl

/-! ## Back to numbers -/

/-- The number a bit sequence denotes, most significant bit first. -/
def ofMsbFirst (bits : List Bool) : Nat := bits.foldl (fun acc b => 2 * acc + b.toNat) 0

private theorem foldl_msbFirst_testBit (v : Nat) : ∀ n acc : Nat,
    (msbFirst v.testBit n).foldl (fun acc b => 2 * acc + b.toNat) acc
      = acc * 2 ^ n + v % 2 ^ n := by
  intro n
  induction n with
  | zero => intro acc; simp [msbFirst, Nat.mod_one]
  | succ n ih =>
      intro acc
      have hbit : (v.testBit n).toNat = v / 2 ^ n % 2 := by
        rw [Nat.testBit_eq_decide_div_mod_eq]
        rcases Nat.mod_two_eq_zero_or_one (v / 2 ^ n) with h | h <;> simp [h]
      rw [msbFirst, List.foldl_cons, ih, hbit, Nat.mod_pow_succ, Nat.pow_succ]
      ring

/-- Reading back the low `n` bits of `v`. -/
theorem ofMsbFirst_testBit (v n : Nat) : ofMsbFirst (msbFirst v.testBit n) = v % 2 ^ n := by
  rw [ofMsbFirst, foldl_msbFirst_testBit, Nat.zero_mul, Nat.zero_add]

/-- A bit vector is what its bits denote. -/
theorem ofNat_ofMsbFirst_getLsbD {w : Nat} (v : BitVec w) :
    BitVec.ofNat w (ofMsbFirst (msbFirst v.getLsbD w)) = v := by
  rw [show msbFirst v.getLsbD w = msbFirst v.toNat.testBit w from
    msbFirst_congr fun i _ => rfl, ofMsbFirst_testBit, Nat.mod_eq_of_lt v.isLt]
  simp

/-! ## Parity -/

/-- Even parity: an even number of ones. -/
def EvenOnes (bits : List Bool) : Prop := bits.count true % 2 = 0

instance (bits : List Bool) : Decidable (EvenOnes bits) :=
  inferInstanceAs (Decidable (_ = _))

/-- The exclusive or of the bits at `0, …, n - 1`. -/
def xorBits (f : Nat → Bool) : Nat → Bool
  | 0 => false
  | n + 1 => xorBits f n ^^ f n

theorem xorBits_congr {f g : Nat → Bool} {n : Nat} (h : ∀ i, i < n → f i = g i) :
    xorBits f n = xorBits g n := by
  induction n with
  | zero => rfl
  | succ n ih => rw [xorBits, xorBits, h n (by omega), ih (fun i hi => h i (by omega))]

/-- The low bit can be taken out first. -/
theorem xorBits_succ' (f : Nat → Bool) (n : Nat) :
    xorBits f (n + 1) = (f 0 ^^ xorBits (fun i => f (i + 1)) n) := by
  induction n with
  | zero => simp [xorBits]
  | succ n ih => rw [xorBits, ih, xorBits, Bool.xor_assoc]

/-- The low `m` bits can be taken out first. -/
theorem xorBits_add (f : Nat → Bool) (n m : Nat) :
    xorBits f (n + m) = (xorBits f m ^^ xorBits (fun i => f (i + m)) n) := by
  induction n with
  | zero => simp [xorBits]
  | succ n ih =>
      rw [show n + 1 + m = n + m + 1 from by omega, xorBits, ih, xorBits, Bool.xor_assoc]

theorem xorBits_xor (f g : Nat → Bool) (n : Nat) :
    xorBits (fun i => f i ^^ g i) n = (xorBits f n ^^ xorBits g n) := by
  induction n with
  | zero => rfl
  | succ n ih =>
      rw [xorBits, xorBits, xorBits, ih]
      cases xorBits f n <;> cases xorBits g n <;> cases f n <;> cases g n <;> rfl

/-- **Folding a word onto its lower half** keeps the exclusive or. -/
theorem xorBits_fold {w : Nat} (v : BitVec w) (m : Nat) :
    xorBits (v ^^^ (v >>> m)).getLsbD m = xorBits v.getLsbD (m + m) := by
  have hbits : (v ^^^ (v >>> m)).getLsbD = fun i => v.getLsbD i ^^ v.getLsbD (i + m) := by
    funext i
    rw [BitVec.getLsbD_xor, BitVec.getLsbD_ushiftRight, Nat.add_comm]
  rw [hbits, xorBits_xor, xorBits_add]

/-- The number of ones is odd exactly when the exclusive or is set. -/
theorem count_msbFirst_mod_two (f : Nat → Bool) (n : Nat) :
    (msbFirst f n).count true % 2 = (xorBits f n).toNat := by
  induction n with
  | zero => rfl
  | succ n ih =>
      rw [msbFirst, xorBits, List.count_cons, Nat.add_mod, ih]
      cases xorBits f n <;> cases f n <;> rfl

/-- Even parity is a clear exclusive or. -/
theorem evenOnes_msbFirst {f : Nat → Bool} {n : Nat} :
    EvenOnes (msbFirst f n) ↔ xorBits f n = false := by
  rw [EvenOnes, count_msbFirst_mod_two]
  cases xorBits f n <;> simp

/-- The bits with one more that makes the ones even. -/
def withParity (bits : List Bool) : List Bool := bits ++ [bits.count true % 2 == 1]

/-- The parity bit is the only one that makes the ones even. -/
theorem evenOnes_concat {bits : List Bool} {b : Bool} :
    EvenOnes (bits ++ [b]) ↔ bits ++ [b] = withParity bits := by
  have hcount : (bits ++ [b]).count true = bits.count true + b.toNat := by
    rw [List.count_append]
    cases b <;> rfl
  rw [EvenOnes, hcount, withParity, List.append_cancel_left_eq, List.cons.injEq]
  rcases Nat.mod_two_eq_zero_or_one (bits.count true) with h | h
  · cases b <;> simp [h, Nat.add_mod]
  · cases b <;> simp [h, Nat.add_mod]

/-- Two words side by side. -/
theorem zip_msbFirst (f : Nat → α) (g : Nat → β) (n : Nat) :
    (msbFirst f n).zip (msbFirst g n) = msbFirst (fun i => (f i, g i)) n := by
  induction n with
  | zero => rfl
  | succ n ih => simp [msbFirst, ih]

end GalvoCtrl.Lib
