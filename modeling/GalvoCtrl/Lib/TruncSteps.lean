import Mathlib.Algebra.Order.Floor.Div
import Mathlib.GroupTheory.GroupAction.Ring
import Mathlib.Order.Interval.Set.UnorderedInterval
import Mathlib.Tactic.Linarith

/-!
# TruncSteps — a span cut into truncated steps

`stepOf d k n` is the part of the span `d` covered after `k` of `n` equal
steps, computed as `d * k / n` with the division truncating towards zero.
`along a b n k` is the position after `k` steps on the way from `a` to `b`, which
rests at `b` from the `n`-th step on.
-/

namespace GalvoCtrl.Lib

/-- The part of the span `d` covered after `k` of `n` steps. -/
def stepOf (d k n : Int) : Int := (d * k).tdiv n

/-- Descending spans mirror ascending ones. -/
theorem stepOf_neg (d k n : Int) : stepOf (-d) k n = -stepOf d k n := by
  rw [stepOf, stepOf, Int.neg_mul, Int.neg_tdiv]

/-- Before the last step is done the span is not left. -/
theorem stepOf_bounds_of_nonneg {d k n : Int} (hd : 0 ≤ d) (hk : 0 ≤ k) (hkn : k ≤ n)
    (hn : 0 < n) : 0 ≤ stepOf d k n ∧ stepOf d k n ≤ d := by
  have hnonneg : 0 ≤ d * k := Int.mul_nonneg hd hk
  rw [stepOf, Int.tdiv_eq_ediv_of_nonneg hnonneg]
  refine ⟨Int.ediv_nonneg hnonneg hn.le, ?_⟩
  have hle : d * k ≤ d * n := Int.mul_le_mul_of_nonneg_left hkn hd
  calc d * k / n ≤ d * n / n := Int.ediv_le_ediv hn hle
    _ = d := Int.mul_ediv_cancel d hn.ne'

/-- The last step covers the whole span. -/
theorem stepOf_last {d n : Int} (hn : n ≠ 0) : stepOf d n n = d := Int.mul_tdiv_cancel d hn

/-- From `a` towards `b`, every step stays between the two. -/
theorem add_stepOf_between {a b k n : Int} (hk : 0 ≤ k) (hkn : k ≤ n) (hn : 0 < n) :
    min a b ≤ a + stepOf (b - a) k n ∧ a + stepOf (b - a) k n ≤ max a b := by
  rcases Int.le_total a b with hab | hba
  · obtain ⟨h0, h1⟩ := stepOf_bounds_of_nonneg (d := b - a) (by omega) hk hkn hn
    omega
  · obtain ⟨h0, h1⟩ := stepOf_bounds_of_nonneg (d := a - b) (by omega) hk hkn hn
    have hneg : stepOf (b - a) k n = -stepOf (a - b) k n := by
      rw [← stepOf_neg, Int.neg_sub]
    omega

/-! ## The way from one position to another -/

/-- The position after `k` steps from `a` towards `b` in `n` steps. -/
def along (a b : Int) (n k : Nat) : Int := a + stepOf (b - a) (min k n : Nat) n

@[simp] theorem along_zero (a b : Int) (n : Nat) : along a b n 0 = a := by
  simp [along, stepOf]

theorem along_of_le {a b : Int} {n k : Nat} (hn : 0 < n) (hk : n ≤ k) : along a b n k = b := by
  rw [along, Nat.min_eq_right hk, stepOf_last (by omega)]
  omega

/-- Ascending and descending, in natural numbers. -/
theorem along_cases (a b : Int) (n : Nat) :
    (b = a + (b - a).natAbs
        ∧ ∀ k, along a b n k = a + ((b - a).natAbs * min k n / n : Nat))
      ∨ b = a - (b - a).natAbs
        ∧ ∀ k, along a b n k = a - ((b - a).natAbs * min k n / n : Nat) := by
  have hcast : ∀ m k : Nat, stepOf m (k : Nat) n = (m * k / n : Nat) := by
    intro m k
    rw [stepOf, Int.tdiv_eq_ediv_of_nonneg (by positivity)]
    norm_cast
  rcases Int.natAbs_eq (b - a) with h | h
  · refine Or.inl ⟨by omega, ?_⟩
    intro k
    rw [along, ← hcast, ← h]
  · refine Or.inr ⟨by omega, ?_⟩
    intro k
    rw [along, h, stepOf_neg, hcast, Int.natAbs_neg, Int.natAbs_natCast]
    omega

/-- **Monotone**: every later position lies between an earlier one and the end. -/
theorem along_toward {a b : Int} {n j k : Nat} (hjk : j ≤ k) :
    along a b n k ∈ Set.uIcc (along a b n j) b := by
  have hmono : (b - a).natAbs * min j n / n ≤ (b - a).natAbs * min k n / n :=
    Nat.div_le_div_right (Nat.mul_le_mul_left _ (by omega))
  have hend : (b - a).natAbs * min k n / n ≤ (b - a).natAbs :=
    Nat.div_le_of_le_mul (by rw [Nat.mul_comm]; exact Nat.mul_le_mul_right _ (Nat.min_le_right k n))
  rw [Set.mem_uIcc]
  obtain ⟨hb, hpos⟩ | ⟨hb, hpos⟩ := along_cases a b n
  · rw [hpos, hpos]
    omega
  · rw [hpos, hpos]
    omega

/-- **No step is longer than the `n`-th part of the span**, rounded up. -/
theorem along_step (a b : Int) {n : Nat} (hn : 0 < n) (k : Nat) :
    (along a b n (k + 1) - along a b n k).natAbs ≤ (b - a).natAbs ⌈/⌉ n := by
  have hmono : (b - a).natAbs * min k n / n ≤ (b - a).natAbs * min (k + 1) n / n :=
    Nat.div_le_div_right (Nat.mul_le_mul_left _ (by omega))
  have hstep : (b - a).natAbs * min (k + 1) n / n
      ≤ (b - a).natAbs * min k n / n + (b - a).natAbs ⌈/⌉ n := by
    have hspan : (b - a).natAbs ≤ n * ((b - a).natAbs ⌈/⌉ n) := le_smul_ceilDiv hn
    calc (b - a).natAbs * min (k + 1) n / n
        ≤ ((b - a).natAbs * min k n + n * ((b - a).natAbs ⌈/⌉ n)) / n := by
          refine Nat.div_le_div_right ?_
          have hmin : min (k + 1) n ≤ min k n + 1 := by omega
          calc (b - a).natAbs * min (k + 1) n ≤ (b - a).natAbs * (min k n + 1) :=
                Nat.mul_le_mul_left _ hmin
            _ = (b - a).natAbs * min k n + (b - a).natAbs := Nat.mul_succ _ _
            _ ≤ _ := Nat.add_le_add_left hspan _
      _ = _ := Nat.add_mul_div_left _ _ hn
  obtain ⟨_, hpos⟩ | ⟨_, hpos⟩ := along_cases a b n
  · rw [hpos, hpos]
    omega
  · rw [hpos, hpos]
    omega

/-- Bounded steps add up. -/
theorem natAbs_sub_le_of_step {p : Nat → Int} {c : Nat} {m n : Nat} (hmn : m ≤ n)
    (h : ∀ k, m ≤ k → k < n → (p (k + 1) - p k).natAbs ≤ c) :
    (p n - p m).natAbs ≤ c * (n - m) := by
  induction n, hmn using Nat.le_induction with
  | base => simp
  | succ n hmn ih =>
      have hprefix := ih fun k hmk hkn => h k hmk (by omega)
      have hlast := h n hmn (by omega)
      rw [Nat.succ_sub hmn, Nat.mul_succ]
      omega

end GalvoCtrl.Lib
