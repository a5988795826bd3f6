import Mathlib.Algebra.BigOperators.Group.List.Basic
import Mathlib.Algebra.GroupWithZero.Nat

/-!
# Blocks — indices of a list joined from blocks

`InBlock ws j k`: with blocks of the sizes `ws` laid end to end, index `k` falls
into block `j`.
-/

namespace GalvoCtrl.Lib

def InBlock (ws : List Nat) (j k : Nat) : Prop :=
  (ws.take j).sum ≤ k ∧ k < (ws.take (j + 1)).sum

variable {ws : List Nat} {w j k : Nat}

@[simp] theorem not_inBlock_nil : ¬InBlock [] j k := by
  simp [InBlock]

@[simp] theorem inBlock_zero : InBlock (w :: ws) 0 k ↔ k < w := by
  simp [InBlock]

@[simp] theorem inBlock_succ : InBlock (w :: ws) (j + 1) k ↔ w ≤ k ∧ InBlock ws j (k - w) := by
  simp only [InBlock, List.take_succ_cons, List.sum_cons]
  omega

theorem InBlock.lt_length (h : InBlock ws j k) : j < ws.length := by
  induction ws generalizing j k with
  | nil => exact absurd h not_inBlock_nil
  | cons w ws ih =>
      cases j with
      | zero => exact Nat.zero_lt_succ _
      | succ j => exact Nat.succ_lt_succ (ih (inBlock_succ.mp h).2)

theorem InBlock.lt_sum (h : InBlock ws j k) : k < ws.sum := by
  have hsum := List.sum_take_add_sum_drop ws (j + 1)
  have := h.2
  omega

/-- Every index falls into a block. -/
theorem exists_inBlock (h : k < ws.sum) : ∃ j, InBlock ws j k := by
  induction ws generalizing k with
  | nil => simp at h
  | cons w ws ih =>
      by_cases hw : k < w
      · exact ⟨0, inBlock_zero.mpr hw⟩
      · rw [List.sum_cons] at h
        obtain ⟨j, hj⟩ := ih (k := k - w) (by omega)
        exact ⟨j + 1, inBlock_succ.mpr ⟨by omega, hj⟩⟩

/-- A block starts behind the blocks before it. -/
theorem inBlock_start (hw : ws[j]? = some w) (hpos : 0 < w) : InBlock ws j (ws.take j).sum := by
  refine ⟨Nat.le_refl _, ?_⟩
  rw [List.take_add_one, hw, List.sum_append]
  simpa using hpos

/-- **The index after one of block `j`** is in the block too, or starts the next one. -/
theorem InBlock.succ (h : InBlock ws j k) (hw : ws[j]? = some w) :
    (k + 1 - (ws.take j).sum < w ∧ InBlock ws j (k + 1))
      ∨ k + 1 - (ws.take j).sum = w ∧ k + 1 = (ws.take (j + 1)).sum := by
  have hnext : (ws.take (j + 1)).sum = (ws.take j).sum + w := by
    rw [List.take_add_one, hw, List.sum_append]
    simp
  obtain ⟨hle, hlt⟩ := h
  rw [hnext] at hlt
  by_cases hk : k + 1 = (ws.take j).sum + w
  · exact Or.inr ⟨by omega, by omega⟩
  · exact Or.inl ⟨by omega, by omega, by omega⟩

/-- Later indices are in later blocks. -/
theorem InBlock.mono {j' k' : Nat} (h : InBlock ws j k) (h' : InBlock ws j' k') (hk : k ≤ k') :
    j ≤ j' := by
  by_contra hlt
  have hle : (ws.take (j' + 1)).sum ≤ (ws.take j).sum := by
    have hprefix : ws.take (j' + 1) = (ws.take j).take (j' + 1) := by
      rw [List.take_take, Nat.min_eq_left (by omega)]
    have hsum := List.sum_take_add_sum_drop (ws.take j) (j' + 1)
    rw [← hprefix] at hsum
    omega
  have := h.1
  have := h'.2
  omega

end GalvoCtrl.Lib
