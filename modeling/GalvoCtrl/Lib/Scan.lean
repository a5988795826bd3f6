import Mathlib.Data.List.Infix
import Mathlib.Data.List.TakeWhile

/-!
# Scan — leftmost matches

`scan m 0 s` lists the matches a regular-expression search finds in `s`: the
matcher `m` is tried at every position from the left, and the search goes on
behind a match. `m` returns the match and its length; the counter of `scan` is
the number of positions still covered by the last match, which makes the
recursion structural.

`scan_append` is the rule that splits a search: if what follows cannot change a
match that starts before it, the two parts are searched separately.
-/

namespace GalvoCtrl.Lib

variable {α β : Type*}

/-- The leftmost, non-overlapping matches, the first `skip` positions passed
over. -/
def scan (m : List α → Option (β × Nat)) : (skip : Nat) → List α → List β
  | _, [] => []
  | skip + 1, _ :: s => scan m skip s
  | 0, c :: s =>
      match m (c :: s) with
      | some (w, n) => w :: scan m (n - 1) s
      | none => scan m 0 s

variable {m : List α → Option (β × Nat)}

@[simp] theorem scan_nil (skip : Nat) : scan m skip [] = [] := by
  cases skip <;> rfl

theorem scan_skip (skip : Nat) (s : List α) : scan m skip s = scan m 0 (s.drop skip) := by
  induction s generalizing skip with
  | nil => simp
  | cons c s ih =>
      cases skip with
      | zero => rfl
      | succ skip => exact ih skip

/-- A match at the front. -/
theorem scan_match {c : α} {s : List α} {w : β} {n : Nat} (h : m (c :: s) = some (w, n + 1)) :
    scan m 0 (c :: s) = w :: scan m 0 (s.drop n) := by
  rw [scan, h]
  exact congrArg (w :: ·) (scan_skip n s)

/-- No match at the front. -/
theorem scan_step {c : α} {s : List α} (h : m (c :: s) = none) :
    scan m 0 (c :: s) = scan m 0 s := by
  rw [scan, h]

/-- Nothing matches at any position of `a`, whatever follows it. -/
theorem scan_append_of_none {a : List α} (h : ∀ c ∈ a, ∀ s, m (c :: s) = none) (s : List α) :
    scan m 0 (a ++ s) = scan m 0 s := by
  induction a with
  | nil => rfl
  | cons c a ih =>
      rw [List.cons_append, scan_step (h c (by simp) _), ih fun d hd => h d (by simp [hd])]

/-- **Splitting a search**: matches that start in `a` are the same with and
without the rest `r`. -/
theorem scan_append {a r : List α} (hlen : ∀ s w n, m s = some (w, n) → n ≤ s.length)
    (h : ∀ t, t <:+ a → t ≠ [] → m (t ++ r) = m t) :
    scan m 0 (a ++ r) = scan m 0 a ++ scan m 0 r := by
  -- the induction runs over every number of positions still covered by a match
  suffices hskip : ∀ skip, skip ≤ a.length → scan m skip (a ++ r) = scan m skip a ++ scan m 0 r by
    exact hskip 0 (Nat.zero_le _)
  induction a with
  | nil =>
      intro skip hle
      obtain rfl : skip = 0 := by simpa using hle
      simp
  | cons c a ih =>
      intro skip hle
      have ih' := ih fun t ht hne => h t (ht.trans (List.suffix_cons c a)) hne
      cases skip with
      | succ skip => exact ih' skip (by simpa using hle)
      | zero =>
          have hfront := h (c :: a) List.suffix_rfl (by simp)
          rw [List.cons_append] at hfront ⊢
          rw [scan, scan, hfront]
          cases hm : m (c :: a) with
          | none => exact ih' 0 (Nat.zero_le _)
          | some match_ =>
              obtain ⟨w, n⟩ := match_
              have hn := hlen _ w n hm
              rw [List.length_cons] at hn
              exact congrArg (w :: ·) (ih' (n - 1) (by omega))

/-! ## Runs of characters -/

/-- A statement on the characters of a text is decided one after the other; the
instance for all of `Char` would run through every character there is. -/
instance (priority := high) decidableForallMemChar {P : Char → Prop} [DecidablePred P]
    (s : List Char) : Decidable (∀ c ∈ s, P c) := List.decidableBAll P s

/-- A run is not prolonged by what does not belong to it. -/
theorem takeWhile_append_of_stop {p : α → Bool} {r : List α} (h : r.takeWhile p = [])
    (t : List α) : (t ++ r).takeWhile p = t.takeWhile p := by
  induction t with
  | nil => simpa using h
  | cons c t ih =>
      rw [List.cons_append, List.takeWhile_cons, List.takeWhile_cons, ih]

theorem dropWhile_append_of_stop {p : α → Bool} {r : List α} (h : r.takeWhile p = [])
    (t : List α) : (t ++ r).dropWhile p = t.dropWhile p ++ r := by
  induction t with
  | nil =>
      cases r with
      | nil => rfl
      | cons c r =>
          cases hc : p c with
          | true => simp [hc] at h
          | false => simp [hc]
  | cons c t ih =>
      rw [List.cons_append, List.dropWhile_cons, List.dropWhile_cons, ih]
      cases p c <;> rfl

end GalvoCtrl.Lib
