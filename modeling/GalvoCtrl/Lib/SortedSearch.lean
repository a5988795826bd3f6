import Mathlib.Data.List.Basic
import Mathlib.Order.Lattice

/-!
# Lib — SortedSearch

Linear search in a list sorted by keys. The search goes on while the keys are below the
wanted one, and where it stops is the wanted element, if there is one at all.
-/

namespace GalvoCtrl.Lib

variable {α κ : Type*} [LinearOrder κ] {key : α → κ} {k : κ} {xs : List α}

/-- Sorted by `key`, each key once. -/
def SortedBy (key : α → κ) (xs : List α) : Prop := xs.Pairwise fun x y => key x < key y

/-- Where a search for `k` stops: at the first key that is not below `k`, or at the end. -/
def lowerBound (key : α → κ) (k : κ) (xs : List α) : ℕ := xs.findIdx fun x => k ≤ key x

theorem lowerBound_cons_of_lt {x : α} (h : key x < k) :
    lowerBound key k (x :: xs) = lowerBound key k xs + 1 := by
  rw [lowerBound, List.findIdx_cons, decide_eq_false (not_le.mpr h)]
  rfl

theorem lowerBound_cons_of_le {x : α} (h : k ≤ key x) : lowerBound key k (x :: xs) = 0 := by
  rw [lowerBound, List.findIdx_cons, decide_eq_true h]
  rfl

/-- **The search stops at the key it looks for.** -/
theorem lowerBound_eq (hs : SortedBy key xs) {i : ℕ} {x : α} (hx : xs[i]? = some x)
    (hk : key x = k) : lowerBound key k xs = i := by
  obtain ⟨hi, rfl⟩ := List.getElem?_eq_some_iff.mp hx
  rw [lowerBound, List.findIdx_eq hi]
  refine ⟨by simp [hk], ?_⟩
  intro j hj
  have hlt := List.pairwise_iff_getElem.mp hs j i (by omega) hi hj
  rw [hk] at hlt
  simpa using hlt

/-- A key belongs to one element. -/
theorem SortedBy.unique (hs : SortedBy key xs) {x y : α} (hx : x ∈ xs) (hy : y ∈ xs)
    (hkey : key x = key y) : x = y := by
  obtain ⟨i, hi⟩ := List.mem_iff_getElem?.mp hx
  obtain ⟨j, hj⟩ := List.mem_iff_getElem?.mp hy
  have hij : i = j := (lowerBound_eq hs hi hkey).symm.trans (lowerBound_eq hs hj rfl)
  rw [hij, hj] at hi
  exact (Option.some.inj hi).symm

end GalvoCtrl.Lib
