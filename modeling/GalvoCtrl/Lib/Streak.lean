import Mathlib.Data.Nat.Count

/-!
# Lib — Streak

How often a condition has held in a row, as a counter that falls back to zero, and the
first time that it has held `m` times in a row.
-/

namespace GalvoCtrl.Lib

/-- How often `p` has held in a row just before `n`. -/
def streak (p : ℕ → Prop) [DecidablePred p] : ℕ → ℕ
  | 0 => 0
  | n + 1 => if p n then streak p n + 1 else 0

/-- The `m` values up to the one at `n` all exist, and `p` holds of each. -/
def InRow (p : ℕ → Prop) (m n : ℕ) : Prop := m ≤ n + 1 ∧ ∀ i < m, p (n - i)

/-- At `n`, and not before, `p` has held `m` times in a row. -/
def FirstInRow (p : ℕ → Prop) (m n : ℕ) : Prop := InRow p m n ∧ ∀ k < n, ¬InRow p m k

theorem FirstInRow.unique {p : ℕ → Prop} {m n k : ℕ} (hn : FirstInRow p m n)
    (hk : FirstInRow p m k) : n = k := by
  rcases Nat.lt_trichotomy n k with h | h | h
  · exact absurd hn.1 (hk.2 n h)
  · exact h
  · exact absurd hk.1 (hn.2 k h)

section Counter

variable {p : ℕ → Prop} [DecidablePred p]

theorem streak_succ_of {n : ℕ} (h : p n) : streak p (n + 1) = streak p n + 1 := if_pos h

theorem streak_succ_of_not {n : ℕ} (h : ¬p n) : streak p (n + 1) = 0 := if_neg h

/-- **The counter tells the row**, by induction on the values it has seen. -/
theorem le_streak_iff {m n : ℕ} : m ≤ streak p n ↔ m ≤ n ∧ ∀ i < m, p (n - 1 - i) := by
  induction n generalizing m with
  | zero =>
      constructor
      · intro h
        obtain rfl : m = 0 := Nat.le_zero.mp h
        exact ⟨le_rfl, fun i hi => absurd hi (Nat.not_lt_zero i)⟩
      · intro h
        exact h.1
  | succ n ih =>
      cases m with
      | zero =>
          constructor
          · intro _
            exact ⟨Nat.zero_le _, fun i hi => absurd hi (Nat.not_lt_zero i)⟩
          · intro _
            exact Nat.zero_le _
      | succ m =>
          by_cases hp : p n
          · rw [streak_succ_of hp, Nat.add_le_add_iff_right, ih, Nat.add_le_add_iff_right]
            refine and_congr_right fun _ => ⟨?_, ?_⟩
            · intro h i hi
              cases i with
              | zero => exact hp
              | succ i =>
                  rw [show n + 1 - 1 - (i + 1) = n - 1 - i from by omega]
                  exact h i (by omega)
            · intro h i hi
              rw [show n - 1 - i = n + 1 - 1 - (i + 1) from by omega]
              exact h (i + 1) (by omega)
          · rw [streak_succ_of_not hp]
            constructor
            · intro h
              exact absurd h (Nat.not_succ_le_zero m)
            · intro h
              exact absurd (h.2 0 (Nat.succ_pos m)) hp

theorem inRow_iff {m n : ℕ} : InRow p m n ↔ m ≤ streak p (n + 1) := le_streak_iff.symm

end Counter

end GalvoCtrl.Lib
