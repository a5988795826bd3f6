import Mathlib.Algebra.Order.Field.Rat
import Mathlib.Data.List.DropRight
import Mathlib.Tactic.FieldSimp
import GalvoCtrl.Lib.Scan

/-!
# Decimal — numbers as decimal text

Rounding half to even, decimal text with a fixed number of decimals, and reading
decimals back. Trailing zeros, and a point that no decimal follows, may be left off:
what is read is the same.
-/

namespace GalvoCtrl.Lib

/-! ## Rounding -/

/-- The integer closest to `a / b`, of two equally close ones the even one. -/
def roundHalfEven (a b : ℕ) : ℕ :=
  if 2 * (a % b) < b then a / b
  else if b < 2 * (a % b) then a / b + 1
  else if a / b % 2 = 0 then a / b
  else a / b + 1

/-- **The result is off by half at most**, and even where it is off by half. -/
theorem roundHalfEven_spec (a : ℕ) {b : ℕ} (hb : 0 < b) :
    2 * a ≤ 2 * (b * roundHalfEven a b) + b ∧ 2 * (b * roundHalfEven a b) ≤ 2 * a + b
      ∧ (2 * a = 2 * (b * roundHalfEven a b) + b ∨ 2 * (b * roundHalfEven a b) = 2 * a + b →
          roundHalfEven a b % 2 = 0) := by
  have hdiv := Nat.div_add_mod a b
  have hmod := Nat.mod_lt a hb
  have hnext : b * (a / b + 1) = b * (a / b) + b := Nat.mul_succ _ _
  unfold roundHalfEven
  split_ifs with hlow hhigh heven
  · omega
  · omega
  · omega
  · omega

/-! ## Writing -/

/-- `m` in `p` digits. -/
def padded (p m : ℕ) : List Char :=
  List.replicate (p - (Nat.toDigits 10 m).length) '0' ++ Nat.toDigits 10 m

/-- `n / 10 ^ p` with `p` decimals. -/
def fixedText (p n : ℕ) : List Char :=
  Nat.toDigits 10 (n / 10 ^ p) ++ '.' :: padded p (n % 10 ^ p)

/-- Without trailing zeros, and without a trailing point then. -/
def trimDecimals (s : List Char) : List Char :=
  (s.rdropWhile (· == '0')).rdropWhile (· == '.')

/-- Nothing but digits. -/
def IsDigits (s : List Char) : Prop := ∀ c ∈ s, c.isDigit = true

theorem isDigits_toDigits (n : ℕ) : IsDigits (Nat.toDigits 10 n) := fun _ hc =>
  Nat.isDigit_of_mem_toDigits (by decide) (by decide) hc

theorem isDigits_padded (p m : ℕ) : IsDigits (padded p m) := by
  intro c hc
  rcases List.mem_append.mp hc with hc | hc
  · rw [List.eq_of_mem_replicate hc]
    rfl
  · exact isDigits_toDigits m c hc

theorem length_padded {p m : ℕ} (hp : 0 < p) (hm : m < 10 ^ p) : (padded p m).length = p := by
  have hlength := (Nat.length_toDigits_le_iff (by decide) hp).mpr hm
  rw [padded, List.length_append, List.length_replicate]
  omega

/-! ## Reading -/

/-- What the digits before and after a point denote. -/
def decimalValue (whole decimals : List Char) : ℚ≥0 :=
  (Nat.ofDigitChars 10 (whole ++ decimals) 0 : ℕ) / 10 ^ decimals.length

/-- A decimal: digits, and after a point further digits or none. -/
def readDecimal (s : List Char) : Option ℚ≥0 :=
  let whole := s.takeWhile Char.isDigit
  let rest := s.dropWhile Char.isDigit
  if whole ≠ [] ∧ (rest = [] ∨ rest.head? = some '.') ∧ (rest.drop 1).all Char.isDigit then
    some (decimalValue whole (rest.drop 1))
  else none

theorem readDecimal_whole {w : List Char} (hne : w ≠ []) (hw : IsDigits w) :
    readDecimal w = some (decimalValue w []) := by
  have htake : w.takeWhile Char.isDigit = w := List.takeWhile_eq_self_iff.mpr hw
  have hdrop : w.dropWhile Char.isDigit = [] := List.dropWhile_eq_nil_iff.mpr hw
  unfold readDecimal
  rw [htake, hdrop]
  exact if_pos ⟨hne, Or.inl rfl, rfl⟩

theorem readDecimal_point {w f : List Char} (hne : w ≠ []) (hw : IsDigits w) (hf : IsDigits f) :
    readDecimal (w ++ '.' :: f) = some (decimalValue w f) := by
  have htake : (w ++ '.' :: f).takeWhile Char.isDigit = w := by
    rw [List.takeWhile_append_of_pos hw, List.takeWhile_cons_of_neg (by decide), List.append_nil]
  have hdrop : (w ++ '.' :: f).dropWhile Char.isDigit = '.' :: f := by
    rw [List.dropWhile_append_of_pos hw, List.dropWhile_cons_of_neg (by decide)]
  unfold readDecimal
  rw [htake, hdrop]
  exact if_pos ⟨hne, Or.inr rfl, List.all_eq_true.mpr hf⟩

/-- Zeros at the end are worth nothing. -/
theorem decimalValue_append_zeros (w f : List Char) (k : ℕ) :
    decimalValue w (f ++ List.replicate k '0') = decimalValue w f := by
  have hpow : (10 : ℚ≥0) ^ k ≠ 0 := pow_ne_zero _ (by decide)
  rw [decimalValue, decimalValue, ← List.append_assoc, Nat.ofDigitChars_append,
    Nat.ofDigitChars_replicate_zero, List.length_append, List.length_replicate, pow_add]
  push_cast
  rw [mul_comm, mul_div_mul_right _ _ hpow]

/-- Taking off trailing zeros stops at the point. -/
theorem rdropWhile_stop {α : Type*} {p : α → Bool} {d : α} (hd : p d = false) (a f : List α) :
    (a ++ d :: f).rdropWhile p = a ++ d :: f.rdropWhile p := by
  have hstop : (d :: a.reverse).takeWhile p = [] := by
    rw [List.takeWhile_cons_of_neg (by simp [hd])]
  rw [List.rdropWhile, List.rdropWhile, List.reverse_append, List.reverse_cons, List.append_assoc,
    List.singleton_append, dropWhile_append_of_stop hstop, List.reverse_append, List.reverse_cons,
    List.reverse_reverse, List.append_assoc, List.singleton_append]

/-- **Trimming is not seen by the reader.** -/
theorem readDecimal_trim {w f : List Char} (hne : w ≠ []) (hw : IsDigits w) (hf : IsDigits f) :
    readDecimal (trimDecimals (w ++ '.' :: f)) = some (decimalValue w f) := by
  obtain ⟨k, hk⟩ : ∃ k, f.rtakeWhile (· == '0') = List.replicate k '0' := by
    refine ⟨_, List.eq_replicate_of_mem ?_⟩
    intro c hc
    have hzero := List.mem_rtakeWhile_imp hc
    exact eq_of_beq hzero
  have hsplit : f.rdropWhile (· == '0') ++ List.replicate k '0' = f := by
    rw [← hk]
    exact List.rdropWhile_append_rtakeWhile
  have hvalue : decimalValue w f = decimalValue w (f.rdropWhile (· == '0')) := by
    have hzeros := decimalValue_append_zeros w (f.rdropWhile (· == '0')) k
    rwa [hsplit] at hzeros
  have hleft : IsDigits (f.rdropWhile (· == '0')) := fun c hc =>
    hf c ((List.rdropWhile_prefix _ f).subset hc)
  rw [hvalue, trimDecimals, rdropWhile_stop (by decide)]
  generalize f.rdropWhile (· == '0') = g at hleft
  -- the point stays when a decimal is left
  rcases List.eq_nil_or_concat' g with rfl | ⟨g', c, rfl⟩
  · have hlast : w.rdropWhile (· == '.') = w := by
      rw [List.rdropWhile_eq_self_iff]
      intro hne' hpoint
      have hdigit := hw _ (List.getLast_mem hne')
      rw [eq_of_beq hpoint] at hdigit
      exact absurd hdigit (by decide)
    rw [List.rdropWhile_concat_pos (· == '.') w '.' rfl, hlast]
    exact readDecimal_whole hne hw
  · have hc : (c == '.') = false := by
      rw [beq_eq_false_iff_ne]
      rintro rfl
      exact absurd (hleft '.' (by simp)) (by decide)
    rw [← List.cons_append, ← List.append_assoc,
      List.rdropWhile_concat_neg (· == '.') _ c (by simp [hc]), List.append_assoc, List.cons_append]
    exact readDecimal_point hne hw hleft

theorem decimalValue_fixed {p : ℕ} (hp : 0 < p) (n : ℕ) :
    decimalValue (Nat.toDigits 10 (n / 10 ^ p)) (padded p (n % 10 ^ p)) = n / 10 ^ p := by
  have hlength := length_padded hp (Nat.mod_lt n (Nat.pow_pos (n := p) (by decide : 0 < 10)))
  have hpadded : Nat.ofDigitChars 10 (padded p (n % 10 ^ p)) 0 = n % 10 ^ p := by
    rw [padded, Nat.ofDigitChars_append, Nat.ofDigitChars_replicate_zero, mul_zero,
      Nat.ofDigitChars_ten_toDigits]
  rw [decimalValue, Nat.ofDigitChars_append, Nat.ofDigitChars_ten_toDigits,
    Nat.ofDigitChars_eq_ofDigitChars_zero, hlength, hpadded, Nat.div_add_mod]

/-- **What is written with `p` decimals and trimmed is read back.** -/
theorem readDecimal_fixed {p : ℕ} (hp : 0 < p) (n : ℕ) :
    readDecimal (trimDecimals (fixedText p n)) = some ((n : ℚ≥0) / 10 ^ p) := by
  rw [fixedText, readDecimal_trim Nat.toDigits_ne_nil (isDigits_toDigits _) (isDigits_padded _ _),
    decimalValue_fixed hp]

end GalvoCtrl.Lib
