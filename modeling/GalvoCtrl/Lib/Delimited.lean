import Mathlib.Data.List.Basic

/-!
# Delimited — reading delimited pieces off a stream

`getlines d` is what repeated calls of `std::getline` with delimiter `d` return:
a piece ends at the delimiter, and at the end of the stream a piece counts only
if it has a character. So a delimiter at the very end closes the last piece and
opens no new one, and joined pieces come back whole as long as the last one is
not empty.
-/

namespace GalvoCtrl.Lib

variable {α : Type*} [DecidableEq α]

/-- The pieces `std::getline` returns until the stream is exhausted. -/
def getlines (d : α) : List α → List (List α)
  | [] => []
  | c :: cs =>
      if c = d then [] :: getlines d cs
      else match getlines d cs with
        | [] => [[c]]
        | piece :: pieces => (c :: piece) :: pieces

/-- A piece and its delimiter come off the front. -/
theorem getlines_terminated {d : α} {piece : List α} (h : d ∉ piece) (rest : List α) :
    getlines d (piece ++ d :: rest) = piece :: getlines d rest := by
  induction piece with
  | nil => rw [List.nil_append, getlines, if_pos rfl]
  | cons c piece ih =>
      rw [List.mem_cons, not_or] at h
      rw [List.cons_append, getlines, if_neg (Ne.symm h.1), ih h.2]

/-- The last piece needs no delimiter if it is not empty. -/
theorem getlines_last {d : α} {piece : List α} (hne : piece ≠ []) (h : d ∉ piece) :
    getlines d piece = [piece] := by
  induction piece with
  | nil => exact absurd rfl hne
  | cons c piece ih =>
      rw [List.mem_cons, not_or] at h
      rw [getlines, if_neg (Ne.symm h.1)]
      cases piece with
      | nil => rfl
      | cons c' piece => rw [ih (by simp) h.2]

/-- Terminated pieces come back whole. -/
theorem getlines_flatMap {d : α} {pieces : List (List α)} (h : ∀ p ∈ pieces, d ∉ p) :
    getlines d (pieces.flatMap (· ++ [d])) = pieces := by
  induction pieces with
  | nil => rfl
  | cons p pieces ih =>
      rw [List.flatMap_cons, List.append_assoc, List.singleton_append,
        getlines_terminated (h p (by simp)), ih fun q hq => h q (by simp [hq])]

omit [DecidableEq α] in
/-- With an empty last piece every other one is terminated. -/
theorem intercalate_concat_nil (d : α) (pieces : List (List α)) :
    [d].intercalate (pieces ++ [[]]) = pieces.flatMap (· ++ [d]) := by
  induction pieces with
  | nil => rfl
  | cons p pieces ih =>
      obtain ⟨q, qs, hq⟩ : ∃ q qs, pieces ++ [[]] = q :: qs := List.exists_cons_of_ne_nil (by simp)
      rw [List.flatMap_cons, ← ih, List.cons_append, hq, List.intercalate_cons_cons]

omit [DecidableEq α] in
/-- Joining brings in nothing but the delimiter. -/
theorem not_mem_intercalate {d x : α} {pieces : List (List α)} (hx : x ≠ d)
    (h : ∀ p ∈ pieces, x ∉ p) : x ∉ [d].intercalate pieces := by
  induction pieces with
  | nil => simp
  | cons p pieces ih =>
      have ih' := ih fun q hq => h q (by simp [hq])
      cases pieces with
      | nil => simpa using h p
      | cons q pieces =>
          rw [List.intercalate_cons_cons, List.mem_append, List.mem_append, not_or, not_or]
          exact ⟨⟨h p (by simp), by simpa using hx⟩, ih'⟩

/-- **Joined pieces come back whole**, the last one being not empty. -/
theorem getlines_intercalate {d : α} {pieces : List (List α)} {last : List α}
    (hne : last ≠ []) (hlast : d ∉ last) (h : ∀ p ∈ pieces, d ∉ p) :
    getlines d ([d].intercalate (pieces ++ [last])) = pieces ++ [last] := by
  induction pieces with
  | nil =>
      rw [List.nil_append, List.intercalate_singleton]
      exact getlines_last hne hlast
  | cons p pieces ih =>
      obtain ⟨q, qs, hq⟩ : ∃ q qs, pieces ++ [last] = q :: qs := by
        cases pieces with
        | nil => exact ⟨last, [], rfl⟩
        | cons q qs => exact ⟨q, qs ++ [last], rfl⟩
      have ih' := ih fun r hr => h r (by simp [hr])
      rw [hq] at ih'
      rw [List.cons_append, hq, List.intercalate_cons_cons, List.append_assoc,
        List.singleton_append, getlines_terminated (h p (by simp)), ih']

end GalvoCtrl.Lib
