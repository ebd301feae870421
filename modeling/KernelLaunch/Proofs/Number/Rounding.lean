import KernelLaunch.Number.Binary
import Mathlib.Algebra.Order.Field.Power
import Mathlib.Data.Nat.Log
import Mathlib.Data.Rat.Floor
import Mathlib.Tactic.FieldSimp
import Mathlib.Tactic.Linarith
import Mathlib.Tactic.Positivity
import Mathlib.Tactic.Ring

/-!
Correctness of binary rounding. Patterns without sign are numbered in the order of their
values, so a conversion is specified over all of them: its pattern has the value nearest to
the exact rational, and is even if another one is equally near. Infinity takes part with the
power of two that would follow the largest number. The proof goes by binades: within one,
values are the multiples of a unit, and the division rounds to the nearest of these.
-/

namespace KernelLaunch.Number

/-- An index whose value is nearest to a number, and which is even if another one is as
near. -/
structure NearestEven (values : Nat → ℚ) (v : ℚ) (k : Nat) : Prop where
  nearest : ∀ j, |values k - v| ≤ |values j - v|
  even : ∀ j, j ≠ k → |values j - v| = |values k - v| → k % 2 = 0

section Division

variable {num den : Nat}

/-- The rounded quotient is the lower or the upper integer, whichever is nearer. -/
theorem roundDiv_cases (num den : Nat) :
    (roundDiv num den = num / den ∧ 2 * (num % den) ≤ den ∧
        (2 * (num % den) = den → num / den % 2 = 0)) ∨
      (roundDiv num den = num / den + 1 ∧ den ≤ 2 * (num % den) ∧
        (2 * (num % den) = den → num / den % 2 = 1)) := by
  unfold roundDiv
  dsimp only
  split
  · right
    omega
  · left
    omega

/-- No integer is nearer to a fraction than its rounded quotient, measured in units of the
denominator. -/
theorem natAbs_roundDiv (hden : 0 < den) (n : Nat) :
    ((roundDiv num den * den : Nat) - num : Int).natAbs ≤ ((n * den : Nat) - num : Int).natAbs ∧
      (n ≠ roundDiv num den →
        ((n * den : Nat) - num : Int).natAbs = ((roundDiv num den * den : Nat) - num : Int).natAbs →
          roundDiv num den % 2 = 0) := by
  have hdivide : num / den * den + num % den = num := Nat.div_add_mod' num den
  have hrest : num % den < den := Nat.mod_lt num hden
  have hstep {a b : Nat} (h : a < b) : a * den + den ≤ b * den := by
    rw [← Nat.succ_mul]
    exact Nat.mul_le_mul_right den h
  have hnext : (num / den + 1) * den = num / den * den + den := Nat.succ_mul _ _
  have hplace : n * den + den ≤ num / den * den ∨ n = num / den ∨ n = num / den + 1 ∨
      (num / den + 1) * den + den ≤ n * den := by
    rcases lt_trichotomy n (num / den) with h | h | h
    · exact .inl (hstep h)
    · exact .inr (.inl h)
    · rcases Nat.eq_or_lt_of_le h with h | h
      · exact .inr (.inr (.inl h.symm))
      · exact .inr (.inr (.inr (hstep h)))
  rcases roundDiv_cases num den with ⟨hround, hhalf, htie⟩ | ⟨hround, hhalf, htie⟩
  · rw [hround]
    rcases hplace with h | rfl | rfl | h <;> omega
  · rw [hround]
    rcases hplace with h | rfl | rfl | h <;> omega

theorem abs_sub_fraction (hden : 0 < den) (n : Nat) :
    |(n : ℚ) - num / den| = ((n * den : Nat) - num : Int).natAbs / den := by
  have hpos : (0 : ℚ) < den := Nat.cast_pos.mpr hden
  have hscaled : (n : ℚ) - num / den = ((n * den : Nat) - num : Int) / den := by
    push_cast
    field_simp
  rw [hscaled, abs_div, abs_of_pos hpos, Nat.cast_natAbs, Int.cast_abs]

theorem roundDiv_nearestEven (hden : 0 < den) :
    NearestEven (fun n => (n : ℚ)) (num / den) (roundDiv num den) := by
  have hpos : (0 : ℚ) < den := Nat.cast_pos.mpr hden
  constructor
  · intro j
    simp only [abs_sub_fraction hden]
    gcongr
    exact (natAbs_roundDiv hden j).1
  · intro j hj hsame
    simp only [abs_sub_fraction hden] at hsame
    refine (natAbs_roundDiv hden j).2 hj ?_
    exact_mod_cast (div_left_inj' hpos.ne').mp hsame

/-- An integer lower bound of a number bounds its nearest integer. -/
theorem NearestEven.le_of_le {v : ℚ} {k n : Nat} (h : NearestEven (fun n => (n : ℚ)) v k)
    (hn : n ≤ v) : n ≤ k := by
  have hnear := h.nearest n
  rw [abs_of_nonpos (a := (n : ℚ) - v) (by linarith)] at hnear
  have := neg_le_of_abs_le hnear
  exact_mod_cast (by linarith : (n : ℚ) ≤ k)

/-- So does an integer upper bound. -/
theorem NearestEven.le_of_ge {v : ℚ} {k n : Nat} (h : NearestEven (fun n => (n : ℚ)) v k)
    (hn : v ≤ n) : k ≤ n := by
  have hnear := h.nearest n
  rw [abs_of_nonneg (a := (n : ℚ) - v) (by linarith)] at hnear
  have := le_of_abs_le hnear
  exact_mod_cast (by linarith : (k : ℚ) ≤ n)

end Division

section Binades

/-- The value of a pattern without sign. Infinity has that of the power of two after the
largest number. -/
def Precision.size (p : Precision) (pattern : Nat) : ℚ :=
  let exponent := pattern / 2 ^ p.fractionBits
  let fraction := pattern % 2 ^ p.fractionBits
  if exponent = 0 then fraction * 2 ^ p.leastExponent
  else (2 ^ p.fractionBits + fraction) * 2 ^ (p.leastExponent + exponent - 1)

variable {p : Precision} {binade units : Nat}

/-- In a binade and at its end, values are the multiples of the unit of the binade. -/
theorem size_binade (hlow : binade = 0 ∨ 2 ^ p.fractionBits ≤ units)
    (hhigh : units ≤ 2 * 2 ^ p.fractionBits) :
    p.size (binade * 2 ^ p.fractionBits + units) = units * 2 ^ (p.leastExponent + binade) := by
  have hpos : 0 < 2 ^ p.fractionBits := Nat.two_pow_pos _
  unfold Precision.size
  dsimp only
  rcases Nat.lt_or_ge units (2 ^ p.fractionBits) with hsmall | hlarge
  · obtain rfl : binade = 0 := hlow.resolve_right (Nat.not_le.mpr hsmall)
    rw [Nat.zero_mul, Nat.zero_add, Nat.div_eq_of_lt hsmall, Nat.mod_eq_of_lt hsmall, if_pos rfl]
    simp
  · rcases Nat.lt_or_ge units (2 * 2 ^ p.fractionBits) with hinside | hend
    · have hpattern : binade * 2 ^ p.fractionBits + units =
          units - 2 ^ p.fractionBits + 2 ^ p.fractionBits * (binade + 1) := by
        rw [Nat.mul_succ, Nat.mul_comm]
        omega
      have hfraction : units - 2 ^ p.fractionBits < 2 ^ p.fractionBits := by omega
      rw [hpattern, Nat.add_mul_div_left _ _ hpos, Nat.add_mul_mod_self_left,
        Nat.div_eq_of_lt hfraction, Nat.mod_eq_of_lt hfraction, if_neg (by omega),
        Nat.cast_sub hlarge]
      push_cast
      rw [add_sub_cancel, show p.leastExponent + (0 + (binade + 1) : Int) - 1 =
        p.leastExponent + binade by ring]
    · obtain rfl : units = 2 * 2 ^ p.fractionBits := Nat.le_antisymm hhigh hend
      have hpattern : binade * 2 ^ p.fractionBits + 2 * 2 ^ p.fractionBits =
          0 + 2 ^ p.fractionBits * (binade + 2) := by ring
      rw [hpattern, Nat.add_mul_div_left _ _ hpos, Nat.add_mul_mod_self_left, Nat.zero_div,
        Nat.zero_mod, if_neg (by omega)]
      push_cast
      rw [show p.leastExponent + (0 + (binade + 2) : Int) - 1 = p.leastExponent + binade + 1 by
        ring, zpow_add_one₀ two_ne_zero]
      ring

/-- Every pattern lies in a binade. -/
theorem exists_binade (p : Precision) (pattern : Nat) :
    ∃ binade units, pattern = binade * 2 ^ p.fractionBits + units ∧
      (binade = 0 ∨ 2 ^ p.fractionBits ≤ units) ∧ units < 2 * 2 ^ p.fractionBits := by
  have hpos : 0 < 2 ^ p.fractionBits := Nat.two_pow_pos _
  have hdivide := Nat.div_add_mod' pattern (2 ^ p.fractionBits)
  have hrest := Nat.mod_lt pattern hpos
  cases hbinade : pattern / 2 ^ p.fractionBits with
  | zero =>
      rw [hbinade] at hdivide
      exact ⟨0, pattern, by omega, .inl rfl, by omega⟩
  | succ binade =>
      rw [hbinade, Nat.succ_mul] at hdivide
      exact ⟨binade, 2 ^ p.fractionBits + pattern % 2 ^ p.fractionBits, by omega,
        .inr (by omega), by omega⟩

theorem size_strictMono (p : Precision) : StrictMono p.size := by
  apply strictMono_nat_of_lt_succ
  intro pattern
  obtain ⟨binade, units, rfl, hlow, hhigh⟩ := exists_binade p pattern
  rw [size_binade hlow (by omega), Nat.add_assoc,
    size_binade (hlow.imp_right (by omega)) (by omega)]
  gcongr
  omega

/-- A pattern outside of a binade is beyond one of its ends. -/
theorem size_cases (p : Precision) (binade pattern : Nat) :
    (∃ units : Nat, p.size pattern = units * 2 ^ (p.leastExponent + binade)) ∨
      binade ≠ 0 ∧ p.size pattern < 2 ^ p.fractionBits * 2 ^ (p.leastExponent + binade) := by
  obtain ⟨other, units, rfl, hlow, hhigh⟩ := exists_binade p pattern
  rw [size_binade hlow hhigh.le]
  rcases Nat.lt_or_ge other binade with h | h
  · right
    refine ⟨by omega, ?_⟩
    have hunits : (units : ℚ) < 2 ^ p.fractionBits * 2 := by exact_mod_cast Nat.mul_comm _ _ ▸ hhigh
    calc (units : ℚ) * 2 ^ (p.leastExponent + other)
        < 2 ^ p.fractionBits * 2 * 2 ^ (p.leastExponent + other) := by gcongr
      _ = 2 ^ p.fractionBits * 2 ^ (p.leastExponent + other + 1) := by
          rw [zpow_add_one₀ two_ne_zero]
          ring
      _ ≤ 2 ^ p.fractionBits * 2 ^ (p.leastExponent + binade) := by
          have hexponent : p.leastExponent + other + 1 ≤ p.leastExponent + binade := by omega
          exact mul_le_mul_of_nonneg_left (zpow_le_zpow_right₀ one_le_two hexponent) (by positivity)
  · left
    obtain ⟨steps, rfl⟩ := Nat.exists_eq_add_of_le h
    refine ⟨units * 2 ^ steps, ?_⟩
    rw [Nat.cast_add, ← add_assoc, zpow_add₀ two_ne_zero, zpow_natCast]
    push_cast
    ring

/-- In the binade of a number, the nearest multiple of the unit gives the nearest pattern. -/
theorem size_nearestEven {v : ℚ}
    (hlow : binade = 0 ∨ 2 ^ p.fractionBits * 2 ^ (p.leastExponent + binade) ≤ v)
    (hhigh : v ≤ 2 * 2 ^ p.fractionBits * 2 ^ (p.leastExponent + binade))
    (hunits : NearestEven (fun n => (n : ℚ)) (v / 2 ^ (p.leastExponent + binade)) units) :
    NearestEven p.size v (binade * 2 ^ p.fractionBits + units) := by
  have hpos : (0 : ℚ) < 2 ^ (p.leastExponent + binade) := by positivity
  have hvalue : p.size (binade * 2 ^ p.fractionBits + units) =
      units * 2 ^ (p.leastExponent + binade) := by
    refine size_binade (hlow.imp_right fun h => hunits.le_of_le ?_) (hunits.le_of_ge ?_)
    · rw [le_div_iff₀ hpos]
      exact_mod_cast h
    · rw [div_le_iff₀ hpos]
      exact_mod_cast hhigh
  have hdistance (n : Nat) : |(n : ℚ) * 2 ^ (p.leastExponent + binade) - v| =
      |n - v / 2 ^ (p.leastExponent + binade)| * 2 ^ (p.leastExponent + binade) := by
    rw [← abs_of_pos hpos, ← abs_mul, abs_of_pos hpos, sub_mul, div_mul_cancel₀ _ hpos.ne']
  -- What lies below the binade is farther away than its first number.
  have hbelow {w : ℚ} (hbinade : binade ≠ 0)
      (hw : w < 2 ^ p.fractionBits * 2 ^ (p.leastExponent + binade)) :
      |units * 2 ^ (p.leastExponent + binade) - v| < |w - v| := by
    have hfirst := hlow.resolve_left hbinade
    calc |units * 2 ^ (p.leastExponent + binade) - v|
        ≤ |((2 ^ p.fractionBits : Nat) : ℚ) * 2 ^ (p.leastExponent + binade) - v| := by
          rw [hdistance, hdistance]
          exact mul_le_mul_of_nonneg_right (hunits.nearest _) hpos.le
      _ < |w - v| := by
          push_cast
          rw [abs_of_nonpos (by linarith), abs_of_nonpos (by linarith)]
          linarith
  constructor
  · intro j
    rw [hvalue]
    rcases size_cases p binade j with ⟨n, hn⟩ | ⟨hbinade, hw⟩
    · rw [hn, hdistance, hdistance]
      exact mul_le_mul_of_nonneg_right (hunits.nearest n) hpos.le
    · exact (hbelow hbinade hw).le
  · intro j hj hsame
    rw [hvalue] at hsame
    rcases size_cases p binade j with ⟨n, hn⟩ | ⟨hbinade, hw⟩
    · rw [hn, hdistance, hdistance, mul_left_inj' hpos.ne'] at hsame
      have hn : n ≠ units := by
        rintro rfl
        exact hj ((size_strictMono p).injective (hn.trans hvalue.symm))
      have heven := hunits.even n hn hsame
      have hbits : p.fractionBits ≠ 0 := by cases p <;> decide
      rw [Nat.add_mod, Nat.mul_mod, Nat.pow_mod, heven]
      simp [hbits]
    · exact absurd hsame (hbelow hbinade hw).ne'

end Binades

section Logarithm

variable {num den : Nat}

theorem scaled_le_iff (num : Nat) (guess : Int) (hden : 0 < den) :
    (if 0 ≤ guess then den * 2 ^ guess.toNat ≤ num else den ≤ num * 2 ^ (-guess).toNat) ↔
      (2 : ℚ) ^ guess ≤ num / den := by
  have hpos : (0 : ℚ) < den := Nat.cast_pos.mpr hden
  rw [le_div_iff₀ hpos]
  split
  · next hguess =>
    obtain ⟨n, rfl⟩ := Int.eq_ofNat_of_zero_le hguess
    rw [Int.toNat_natCast, zpow_natCast, mul_comm]
    exact_mod_cast Iff.rfl
  · next hguess =>
    obtain ⟨n, rfl⟩ : ∃ n : Nat, guess = -n := ⟨(-guess).toNat, by omega⟩
    rw [neg_neg, Int.toNat_natCast, zpow_neg, zpow_natCast, inv_mul_le_iff₀ (by positivity),
      mul_comm]
    exact_mod_cast Iff.rfl

/-- The binary logarithm is exact: the fraction lies between two consecutive powers. -/
theorem floorLog2_spec (hnum : 0 < num) (hden : 0 < den) :
    (2 : ℚ) ^ floorLog2 num den ≤ num / den ∧ (num : ℚ) / den < 2 ^ (floorLog2 num den + 1) := by
  have hpos : (0 : ℚ) < den := Nat.cast_pos.mpr hden
  have hleast : (2 : ℚ) ^ (num.log2 : Int) ≤ num := by
    exact_mod_cast Nat.log2_self_le hnum.ne'
  have hmost : (num : ℚ) < 2 ^ ((num.log2 : Int) + 1) := by
    exact_mod_cast Nat.lt_log2_self
  have hdenLeast : (2 : ℚ) ^ (den.log2 : Int) ≤ den := by
    exact_mod_cast Nat.log2_self_le hden.ne'
  have hdenMost : (den : ℚ) < 2 ^ ((den.log2 : Int) + 1) := by
    exact_mod_cast Nat.lt_log2_self
  have hbelow : (num : ℚ) / den < 2 ^ ((num.log2 : Int) - den.log2 + 1) := by
    rw [div_lt_iff₀ hpos]
    calc (num : ℚ) < 2 ^ ((num.log2 : Int) + 1) := hmost
      _ = 2 ^ ((num.log2 : Int) - den.log2 + 1) * 2 ^ (den.log2 : Int) := by
          rw [← zpow_add₀ two_ne_zero]
          congr 1
          ring
      _ ≤ 2 ^ ((num.log2 : Int) - den.log2 + 1) * den := by gcongr
  have habove : (2 : ℚ) ^ ((num.log2 : Int) - den.log2 - 1) ≤ num / den := by
    rw [le_div_iff₀ hpos]
    calc (2 : ℚ) ^ ((num.log2 : Int) - den.log2 - 1) * den
        ≤ 2 ^ ((num.log2 : Int) - den.log2 - 1) * 2 ^ ((den.log2 : Int) + 1) := by gcongr
      _ = 2 ^ (num.log2 : Int) := by
          rw [← zpow_add₀ two_ne_zero]
          congr 1
          ring
      _ ≤ num := hleast
  have hreached := scaled_le_iff num ((num.log2 : Int) - den.log2) hden
  simp only [floorLog2, hreached]
  split
  · next h => exact ⟨h, hbelow⟩
  · next h =>
    rw [sub_add_cancel]
    exact ⟨habove, lt_of_not_ge h⟩

end Logarithm

section Patterns

variable {num den : Nat}

/-- The pattern with the value nearest to a magnitude, among all patterns up to infinity. Of
two that are equally near it is the even one. -/
structure Precision.IsNearest (p : Precision) (v : ℚ) (pattern : Nat) : Prop where
  le_infinity : pattern ≤ p.infinity
  nearest : ∀ other ≤ p.infinity, |p.size pattern - v| ≤ |p.size other - v|
  even : ∀ other ≤ p.infinity, other ≠ pattern → |p.size other - v| = |p.size pattern - v| →
    pattern % 2 = 0

/-- Beyond infinity there is nothing nearer. -/
theorem isNearest_min (p : Precision) {v : ℚ} {pattern : Nat} (h : NearestEven p.size v pattern) :
    p.IsNearest v (min p.infinity pattern) := by
  rcases Nat.le_total pattern p.infinity with hle | hge
  · rw [Nat.min_eq_right hle]
    exact ⟨hle, fun other _ => h.nearest other, fun other _ => h.even other⟩
  · rw [Nat.min_eq_left hge]
    have heven : p.infinity % 2 = 0 := by cases p <;> decide
    refine ⟨le_rfl, fun other hother => ?_, fun _ _ _ _ => heven⟩
    have hvalues : p.size other ≤ p.size p.infinity := (size_strictMono p).monotone hother
    rcases Nat.eq_or_lt_of_le hge with rfl | hlt
    · exact h.nearest other
    · have hv : p.size p.infinity ≤ v := by
        by_contra hv
        have hlarger := size_strictMono p hlt
        have hnear := h.nearest p.infinity
        rw [abs_of_pos (by linarith), abs_of_pos (by linarith)] at hnear
        linarith
      rw [abs_of_nonpos (by linarith), abs_of_nonpos (by linarith)]
      linarith

/-- The division by a power of two, on whichever side it is a whole number. -/
theorem roundScaled_nearestEven (num : Nat) (hden : 0 < den) (e : Int) :
    NearestEven (fun n => (n : ℚ)) (num / den / 2 ^ e)
      (if 0 ≤ e then roundDiv num (den * 2 ^ e.toNat)
        else roundDiv (num * 2 ^ (-e).toNat) den) := by
  split
  · next he =>
    obtain ⟨n, rfl⟩ := Int.eq_ofNat_of_zero_le he
    have hscaled : (num : ℚ) / den / 2 ^ (n : Int) = num / (den * 2 ^ n : Nat) := by
      push_cast
      rw [zpow_natCast, div_div]
    rw [Int.toNat_natCast, hscaled]
    exact roundDiv_nearestEven (Nat.mul_pos hden (Nat.two_pow_pos n))
  · next he =>
    obtain ⟨n, rfl⟩ : ∃ n : Nat, e = -n := ⟨(-e).toNat, by omega⟩
    have hscaled : (num : ℚ) / den / 2 ^ (-n : Int) = (num * 2 ^ n : Nat) / den := by
      push_cast
      rw [zpow_neg, zpow_natCast, div_inv_eq_mul, div_mul_eq_mul_div]
    rw [neg_neg, Int.toNat_natCast, hscaled]
    exact roundDiv_nearestEven hden

/-- Fractions are converted to the nearest pattern, ties to even. -/
theorem nearestPattern_isNearest (p : Precision) (num : Nat) (hden : 0 < den) :
    p.IsNearest (num / den) (nearestPattern p num den) := by
  unfold nearestPattern
  split
  · next hzero =>
    subst hzero
    have hsize : p.size 0 = 0 := by simp [Precision.size]
    refine ⟨Nat.zero_le _, fun other _ => ?_, fun _ _ _ _ => rfl⟩
    rw [hsize]
    simp
  · next hnum =>
    dsimp only
    apply isNearest_min
    obtain ⟨hleast, hmost⟩ := floorLog2_spec (Nat.pos_of_ne_zero hnum) hden
    generalize floorLog2 num den = log at *
    obtain ⟨binade, hbinade⟩ := Int.eq_ofNat_of_zero_le (sub_nonneg.mpr
      (le_max_left p.leastExponent (log - p.fractionBits)))
    have hunits := roundScaled_nearestEven num hden (max p.leastExponent (log - p.fractionBits))
    have he : max p.leastExponent (log - p.fractionBits) = p.leastExponent + binade := by omega
    rw [hbinade, Int.toNat_natCast]
    rw [he] at hunits ⊢
    refine size_nearestEven ?_ ?_ hunits
    · rcases le_total (log - p.fractionBits) p.leastExponent with h | h
      · left
        rw [max_eq_left h] at hbinade
        omega
      · right
        rw [max_eq_right h] at he
        rw [← he, ← zpow_natCast, ← zpow_add₀ two_ne_zero, add_sub_cancel]
        exact hleast
    · have hlog : log + 1 ≤ 1 + p.fractionBits + (p.leastExponent + binade) := by omega
      calc (num : ℚ) / den ≤ 2 ^ (log + 1) := hmost.le
        _ ≤ 2 ^ (1 + p.fractionBits + (p.leastExponent + binade)) :=
            zpow_le_zpow_right₀ one_le_two hlog
        _ = 2 * 2 ^ p.fractionBits * 2 ^ (p.leastExponent + binade) := by
            rw [zpow_add₀ two_ne_zero, zpow_add₀ two_ne_zero, zpow_one, zpow_natCast]

end Patterns

/-- The integer part, toward zero, of what a number stands for. -/
def Reading.whole? : Reading → Option Int
  | .finite negative m q => some (if negative then -⌊(m : ℚ) * 2 ^ q⌋ else ⌊(m : ℚ) * 2 ^ q⌋)
  | _ => none

/-- What a number of some precision has to be for a reading: undefined or infinite as that, or
else of its sign, with the nearest pattern. -/
inductive Rounds {p : Precision} : Reading → Binary p → Prop
  | undefined {x : Binary p} (reads : x.reading = .undefined) : Rounds .undefined x
  | infinite {x : Binary p} {negative : Bool} (reads : x.reading = .infinite negative) :
      Rounds (.infinite negative) x
  | finite {x : Binary p} {negative : Bool} {m : Nat} {q : Int} (sign : x.isNegative = negative)
      (nearest : p.IsNearest (m * 2 ^ q) x.pattern) : Rounds (.finite negative m q) x

namespace Binary

variable {p : Precision}

theorem infinity_lt_signWeight (p : Precision) : p.infinity < p.signWeight := by
  cases p <;> decide

theorem toNat_ofPattern {pattern : Nat} (negative : Bool) (h : pattern < p.signWeight) :
    (ofPattern p negative pattern).bits.toNat =
      (if negative then p.signWeight else 0) + pattern := by
  have hwidth : 2 ^ p.width = 2 * p.signWeight := by cases p <;> decide
  rw [ofPattern, BitVec.toNat_ofNat, Nat.mod_eq_of_lt]
  rw [hwidth]
  split <;> omega

theorem pattern_ofPattern {pattern : Nat} (negative : Bool) (h : pattern < p.signWeight) :
    (ofPattern p negative pattern).pattern = pattern := by
  rw [Binary.pattern, toNat_ofPattern negative h]
  split
  · rw [Nat.add_mod_left, Nat.mod_eq_of_lt h]
  · rw [Nat.zero_add, Nat.mod_eq_of_lt h]

theorem isNegative_ofPattern {pattern : Nat} (negative : Bool) (h : pattern < p.signWeight) :
    (ofPattern p negative pattern).isNegative = negative := by
  rw [isNegative, toNat_ofPattern negative h]
  cases negative with
  | true => simp
  | false => simp [h]

/-- A finite number has the value of its pattern. -/
theorem size_of_reading {x : Binary p} {negative : Bool} {m : Nat} {q : Int}
    (h : x.reading = .finite negative m q) :
    x.isNegative = negative ∧ x.pattern ≤ p.infinity ∧ p.size x.pattern = m * 2 ^ q := by
  unfold reading at h
  dsimp only at h
  split at h
  · cases h
  · split at h
    · cases h
    · next hfinite =>
      unfold Precision.size
      dsimp only
      split at h
      · next hexponent =>
        cases h
        exact ⟨rfl, Nat.le_of_not_lt hfinite, if_pos hexponent⟩
      · next hexponent =>
        cases h
        refine ⟨rfl, Nat.le_of_not_lt hfinite, ?_⟩
        rw [if_neg hexponent]
        push_cast
        rfl

end Binary

section Rounding

variable {p : Precision}

/-- A number is rounded already. -/
theorem rounds_reading (x : Binary p) : Rounds x.reading x := by
  cases h : x.reading with
  | undefined => exact .undefined h
  | infinite negative => exact .infinite h
  | finite negative m q =>
      obtain ⟨hsign, hpattern, hsize⟩ := Binary.size_of_reading h
      refine .finite hsign ⟨hpattern, fun other _ => ?_, fun other _ hother hsame => ?_⟩
      · rw [hsize, sub_self, abs_zero]
        exact abs_nonneg _
      · rw [hsize, sub_self, abs_zero, abs_eq_zero, ← hsize, sub_eq_zero] at hsame
        exact absurd ((size_strictMono p).injective hsame) hother

theorem rounds_ofRatio (p : Precision) (negative : Bool) {m num den : Nat} {q : Int}
    (hden : 0 < den) (hvalue : (m : ℚ) * 2 ^ q = num / den) :
    Rounds (.finite negative m q) (Binary.ofRatio p negative num den) := by
  have hnearest := nearestPattern_isNearest p num hden
  have hpattern := Nat.lt_of_le_of_lt hnearest.le_infinity (Binary.infinity_lt_signWeight p)
  refine .finite (Binary.isNegative_ofPattern negative hpattern) ?_
  rw [Binary.ofRatio, Binary.pattern_ofPattern negative hpattern, hvalue]
  exact hnearest

theorem rounds_ofScaled (p : Precision) (negative : Bool) (m : Nat) (q : Int) :
    Rounds (.finite negative m q) (Binary.ofScaled p negative m q) := by
  unfold Binary.ofScaled
  split
  · next hq =>
    obtain ⟨n, rfl⟩ := Int.eq_ofNat_of_zero_le hq
    apply rounds_ofRatio p negative Nat.one_pos
    push_cast
    rw [Int.toNat_natCast, zpow_natCast, div_one]
  · next hq =>
    obtain ⟨n, rfl⟩ : ∃ n : Nat, q = -n := ⟨(-q).toNat, by omega⟩
    rw [neg_neg, Int.toNat_natCast]
    apply rounds_ofRatio p negative (Nat.two_pow_pos n)
    push_cast
    rw [zpow_neg, zpow_natCast, div_eq_mul_inv]

theorem rounds_ofInt (p : Precision) (n : Int) :
    Rounds (.finite (n < 0) n.natAbs 0) (Binary.ofInt p n) :=
  rounds_ofRatio p _ Nat.one_pos (by simp)

theorem reading_undefined (p : Precision) : (Binary.undefined p).reading = .undefined := by
  cases p <;> decide +kernel

theorem reading_infinite (p : Precision) (negative : Bool) :
    (Binary.infinite p negative).reading = .infinite negative := by
  cases p <;> cases negative <;> decide +kernel

/-- Converting to another precision rounds once. -/
theorem rounds_convert (x : Binary p) (target : Precision) :
    Rounds x.reading (x.convert target) := by
  by_cases h : p = target
  · subst h
    rw [Binary.convert_self]
    exact rounds_reading x
  · unfold Binary.convert
    rw [dif_neg h]
    cases x.reading with
    | undefined => exact .undefined (reading_undefined target)
    | infinite negative => exact .infinite (reading_infinite target negative)
    | finite negative m q => exact rounds_ofScaled target negative m q

theorem truncated?_eq (x : Binary p) : x.truncated? = x.reading.whole? := by
  unfold Binary.truncated?
  cases x.reading with
  | undefined => rfl
  | infinite negative => rfl
  | finite negative m q =>
      have hfloor : ⌊(m : ℚ) * 2 ^ q⌋ =
          ((if 0 ≤ q then m * 2 ^ q.toNat else m / 2 ^ (-q).toNat : Nat) : Int) := by
        split
        · next hq =>
          obtain ⟨n, rfl⟩ := Int.eq_ofNat_of_zero_le hq
          rw [Int.toNat_natCast, zpow_natCast]
          exact_mod_cast Int.floor_natCast (m * 2 ^ n)
        · next hq =>
          obtain ⟨n, rfl⟩ : ∃ n : Nat, q = -n := ⟨(-q).toNat, by omega⟩
          rw [neg_neg, Int.toNat_natCast, zpow_neg, zpow_natCast, ← div_eq_mul_inv]
          have hdivide := Rat.floor_intCast_div_natCast m (2 ^ n)
          push_cast at hdivide ⊢
          exact hdivide
      simp only [Reading.whole?, hfloor]

end Rounding

end KernelLaunch.Number
