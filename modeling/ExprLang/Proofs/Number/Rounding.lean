import ExprLang.Number.Binary64

/-! # Rounding to a double

The numbers of a binade are equally far apart: a place is a shift and a mantissa, and the next place is one mantissa
further (`exists_mantissa`, `units_mantissa`). `Rounds a b rank` says, by the midpoints to the two neighbours alone, that
the number at a place is the nearest to `a / b`; no other number is nearer, and one as near leaves an even place
(`Rounds.closest`). That is what `nearest` computes (`rounds_nearest`). Only one place has it (`Rounds.unique`), and
places have it in the order of the quotients (`Rounds.le`). -/

namespace ExprLang.Rank

/-! ### Units -/

theorem binade_pos : 0 < binade := by decide

theorem binade_even : binade % 2 = 0 := by decide

theorem one_pos : 0 < one := by decide +kernel

variable {shift mantissa rank lower higher : Nat}

/-- The number with a mantissa and a shift. The least mantissa of a binade is half the end of the one below. -/
theorem units_mantissa (normal : shift = 0 ∨ binade ≤ mantissa) (le : mantissa ≤ 2 * binade) :
    units (shift * binade + mantissa) = mantissa * Nat.pow 2 shift := by
  have pos := binade_pos
  rcases Nat.lt_or_ge mantissa binade with small | large
  · obtain rfl : shift = 0 := normal.resolve_right (by omega)
    simp [units, small]
  · have beyond : ¬shift * binade + mantissa < binade := by omega
    rw [units, if_neg beyond]
    rcases Nat.lt_or_ge mantissa (2 * binade) with inside | last
    · obtain ⟨rest, rfl⟩ := Nat.exists_eq_add_of_le large
      have place : shift * binade + (binade + rest) = rest + (shift + 1) * binade := by
        rw [Nat.succ_mul]
        omega
      rw [place, Nat.add_mul_mod_self_right, Nat.add_mul_div_right _ _ pos, Nat.mod_eq_of_lt (by omega),
        Nat.div_eq_of_lt (by omega), Nat.zero_add, Nat.add_sub_cancel]
    · obtain rfl : mantissa = 2 * binade := by omega
      have place : shift * binade + 2 * binade = (shift + 2) * binade := (Nat.add_mul ..).symm
      rw [place, Nat.mul_mod_left, Nat.mul_div_cancel _ pos, Nat.add_zero, Nat.mul_comm 2, Nat.mul_assoc]
      exact congrArg (binade * ·) (Nat.mul_comm ..)

theorem exists_mantissa (rank : Nat) :
    ∃ shift mantissa, rank = shift * binade + mantissa ∧ (shift = 0 ∨ binade ≤ mantissa) ∧ mantissa < 2 * binade := by
  have rest := Nat.mod_lt rank binade_pos
  have split := Nat.div_add_mod' rank binade
  rcases Nat.eq_zero_or_pos (rank / binade) with first | later
  · rw [first] at split
    exact ⟨0, rank, by omega, .inl rfl, by omega⟩
  · obtain ⟨shift, eq⟩ := Nat.exists_eq_add_of_le' later
    rw [eq, Nat.add_mul] at split
    exact ⟨shift, binade + rank % binade, by omega, .inr (Nat.le_add_right _ _), by omega⟩

theorem units_lt_succ (rank : Nat) : units rank < units (rank + 1) := by
  obtain ⟨shift, mantissa, rfl, normal, lt⟩ := exists_mantissa rank
  rw [units_mantissa normal (Nat.le_of_lt lt), Nat.add_assoc,
    units_mantissa (normal.imp_right fun h => Nat.le_succ_of_le h) lt]
  exact Nat.mul_lt_mul_of_pos_right (Nat.lt_succ_self _) (Nat.two_pow_pos _)

theorem units_lt_units (h : lower < higher) : units lower < units higher := by
  induction h with
  | refl => exact units_lt_succ lower
  | step _ ih => exact Nat.lt_trans ih (units_lt_succ _)

theorem units_le_units (h : lower ≤ higher) : units lower ≤ units higher := by
  rcases Nat.eq_or_lt_of_le h with rfl | lt
  · exact Nat.le_refl _
  · exact Nat.le_of_lt (units_lt_units lt)

theorem units_le_units_iff : units lower ≤ units higher ↔ lower ≤ higher :=
  ⟨fun h => Nat.le_of_not_lt fun lt => Nat.not_le_of_lt (units_lt_units lt) h, units_le_units⟩

theorem units_zero : units 0 = 0 := by decide

/-! ### Rounding by midpoints -/

/-- The place has the number nearest to `a / b`: the quotient is between the midpoints to the numbers next to it, and on
    a midpoint only if the place is even. -/
structure Rounds (a b rank : Nat) : Prop where
  above : 2 * (a * one) ≤ (units rank + units (rank + 1)) * b
  above_even : 2 * (a * one) = (units rank + units (rank + 1)) * b → rank % 2 = 0
  below : ∀ lower, rank = lower + 1 → (units lower + units rank) * b ≤ 2 * (a * one)
  below_even : ∀ lower, rank = lower + 1 → (units lower + units rank) * b = 2 * (a * one) → rank % 2 = 0

variable {a b c d rank rank' : Nat}

/-- How far the number at a place is from `a / b`, in the `b`-th part of a unit. -/
def distance (a b rank : Nat) : Nat := Int.natAbs ((a * one : Nat) - (units rank * b : Nat))

/-- No number is nearer to the quotient, and where another one is as near the place is even. -/
theorem Rounds.closest (h : Rounds a b rank) (pos : 0 < b) {other : Nat} (apart : other ≠ rank) :
    distance a b rank ≤ distance a b other ∧ (distance a b rank = distance a b other → rank % 2 = 0) := by
  unfold distance
  rcases Nat.lt_or_gt_of_ne apart with less | more
  · obtain ⟨lower, rfl⟩ : ∃ lower, rank = lower + 1 := ⟨rank - 1, by omega⟩
    have half := h.below lower rfl
    have even := h.below_even lower rfl
    have neighbour : units other * b ≤ units lower * b :=
      Nat.mul_le_mul_right b (units_le_units (Nat.le_of_lt_succ less))
    have gap := Nat.mul_lt_mul_of_pos_right (units_lt_succ lower) pos
    rw [Nat.add_mul] at half even
    exact ⟨by omega, fun same => even (by omega)⟩
  · have half := h.above
    have even := h.above_even
    have neighbour : units (rank + 1) * b ≤ units other * b := Nat.mul_le_mul_right b (units_le_units more)
    have gap := Nat.mul_lt_mul_of_pos_right (units_lt_succ rank) pos
    rw [Nat.add_mul] at half even
    exact ⟨by omega, fun same => even (by omega)⟩

/-- Of two quotients in order, the first at least half of `m` and the second at most half of a sum that is no greater,
    both are that half. -/
theorem eq_of_between {unit m m' : Nat} (pos : 0 < b) (pos' : 0 < d) (le : a * d ≤ c * b)
    (below : m * b ≤ 2 * (a * unit)) (above : 2 * (c * unit) ≤ m' * d) (sums : m' ≤ m) :
    m' = m ∧ m * b = 2 * (a * unit) ∧ 2 * (c * unit) = m' * d := by
  have lower : m * (b * d) ≤ 2 * (a * d * unit) := by
    have := Nat.mul_le_mul_right d below
    grind
  have between : 2 * (a * d * unit) ≤ 2 * (c * b * unit) := Nat.mul_le_mul_left 2 (Nat.mul_le_mul_right unit le)
  have upper : 2 * (c * b * unit) ≤ m' * (b * d) := by
    have := Nat.mul_le_mul_right b above
    grind
  have middle : m' * (b * d) ≤ m * (b * d) := Nat.mul_le_mul_right _ sums
  refine ⟨Nat.eq_of_mul_eq_mul_right (Nat.mul_pos pos pos') (by omega), ?_, ?_⟩
  · exact Nat.eq_of_mul_eq_mul_right pos' (by grind)
  · exact Nat.eq_of_mul_eq_mul_right pos (by grind)

/-- Rounding keeps the order. -/
theorem Rounds.le (h : Rounds a b rank) (h' : Rounds c d rank') (pos : 0 < b) (pos' : 0 < d) (le : a * d ≤ c * b) :
    rank ≤ rank' := by
  refine Nat.le_of_not_lt fun lt => ?_
  obtain ⟨lower, rfl⟩ : ∃ lower, rank = lower + 1 := ⟨rank - 1, by omega⟩
  have first : units rank' ≤ units lower := units_le_units (by omega)
  have second : units (rank' + 1) ≤ units (lower + 1) := units_le_units (by omega)
  -- Both midpoints lie between the quotients, so all four are the same, and one of two neighbours is odd.
  obtain ⟨sums, tie, tie'⟩ := eq_of_between pos pos' le (h.below lower rfl) h'.above (Nat.add_le_add first second)
  have even := h.below_even lower rfl tie
  have even' := h'.above_even tie'
  have neighbours : rank' = lower := by
    refine Nat.le_antisymm (by omega) (Nat.le_of_not_lt fun apart => ?_)
    have := units_lt_units apart
    omega
  omega

theorem Rounds.unique (h : Rounds a b rank) (h' : Rounds a b rank') (pos : 0 < b) : rank = rank' :=
  Nat.le_antisymm (h.le h' pos pos (Nat.le_refl _)) (h'.le h pos pos (Nat.le_refl _))

/-- The number at a place is rounded to that place. -/
theorem rounds_exact (pos : 0 < b) (exact : a * one = units rank * b) : Rounds a b rank := by
  have above : units rank * b < units (rank + 1) * b := Nat.mul_lt_mul_of_pos_right (units_lt_succ rank) pos
  have below : ∀ lower, rank = lower + 1 → units lower * b < units rank * b := by
    rintro lower rfl
    exact Nat.mul_lt_mul_of_pos_right (units_lt_succ lower) pos
  refine ⟨?_, fun tie => ?_, fun lower eq => ?_, fun lower eq tie => ?_⟩
  · rw [Nat.add_mul]
    omega
  · rw [Nat.add_mul] at tie
    omega
  · have := below lower eq
    rw [Nat.add_mul]
    omega
  · have := below lower eq
    rw [Nat.add_mul] at tie
    omega

/-! ### The rounding that is computed -/

/-- The nearest whole number is the quotient or the next one. -/
theorem roundedQuotient_cases {n m : Nat} :
    roundedQuotient n m = n / m ∧ (2 * (n % m) < m ∨ 2 * (n % m) = m ∧ n / m % 2 = 0) ∨
      roundedQuotient n m = n / m + 1 ∧ (m < 2 * (n % m) ∨ 2 * (n % m) = m ∧ n / m % 2 = 1) := by
  rw [roundedQuotient]
  split <;> omega

/-- Shifted as far as `nearest` does it, a quotient is a mantissa. -/
theorem quotient_mantissa {quotient : Nat} (eq : shift = Nat.log2 quotient - 52) :
    (shift = 0 ∨ binade ≤ quotient / Nat.pow 2 shift) ∧ quotient / Nat.pow 2 shift < 2 * binade := by
  have pos : 0 < Nat.pow 2 shift := Nat.two_pow_pos shift
  have scaled : ∀ k, Nat.pow 2 k * Nat.pow 2 shift = Nat.pow 2 (k + shift) := fun k => (Nat.pow_add ..).symm
  have upper : quotient < Nat.pow 2 53 * Nat.pow 2 shift := by
    rw [scaled]
    exact Nat.lt_of_lt_of_le Nat.lt_log2_self (Nat.pow_le_pow_right (by decide) (by omega))
  refine ⟨?_, (Nat.div_lt_iff_lt_mul pos).mpr upper⟩
  rcases Nat.eq_zero_or_pos shift with none | some
  · exact .inl none
  · refine .inr ((Nat.le_div_iff_mul_le pos).mpr ?_)
    have exponent : 52 + shift = Nat.log2 quotient := by omega
    have nonzero : quotient ≠ 0 := by
      rintro rfl
      rw [Nat.log2_zero] at exponent
      omega
    rw [binade, scaled, exponent]
    exact Nat.log2_self_le nonzero

theorem place_mod_two (shift mantissa : Nat) : (shift * binade + mantissa) % 2 = mantissa % 2 := by
  have even : shift * binade % 2 = 0 := by rw [Nat.mul_mod, binade_even, Nat.mul_zero]
  omega

theorem units_mul (b : Nat) (normal : shift = 0 ∨ binade ≤ mantissa) (le : mantissa ≤ 2 * binade) :
    units (shift * binade + mantissa) * b = mantissa * (b * Nat.pow 2 shift) := by
  rw [units_mantissa normal le, Nat.mul_assoc, Nat.mul_comm (Nat.pow 2 shift)]

theorem le_units_succ_mul (b : Nat) (normal : shift = 0 ∨ binade ≤ mantissa) (le : mantissa ≤ 2 * binade) :
    mantissa * (b * Nat.pow 2 shift) + b * Nat.pow 2 shift ≤ units (shift * binade + mantissa + 1) * b := by
  rw [← Nat.succ_mul]
  rcases Nat.lt_or_eq_of_le le with lt | rfl
  · refine Nat.le_of_eq ?_
    rw [Nat.add_assoc, units_mul b (by omega) lt]
  · have pos := binade_pos
    have place : shift * binade + 2 * binade + 1 = (shift + 1) * binade + (binade + 1) := by
      have := Nat.add_one_mul shift binade
      omega
    have double : b * Nat.pow 2 (shift + 1) = 2 * (b * Nat.pow 2 shift) := by
      rw [Nat.mul_left_comm, Nat.mul_comm 2]
      rfl
    rw [place, units_mul b (by omega) (by omega), double, ← Nat.mul_assoc (binade + 1)]
    exact Nat.mul_le_mul_right _ (by omega)

/-- Below a place the number is one mantissa less, or else the mantissa is the first one of its binade. -/
theorem units_pred_mul (b : Nat) (normal : shift = 0 ∨ binade ≤ mantissa) (le : mantissa ≤ 2 * binade)
    (eq : shift * binade + mantissa = lower + 1) :
    units lower * b + b * Nat.pow 2 shift = mantissa * (b * Nat.pow 2 shift) ∨ mantissa = binade ∧ shift ≠ 0 := by
  by_cases first : mantissa = binade ∧ shift ≠ 0
  · exact .inr first
  · have pos := binade_pos
    obtain ⟨less, rfl⟩ : ∃ less, mantissa = less + 1 := by
      refine ⟨mantissa - 1, ?_⟩
      rcases normal with rfl | normal <;> omega
    obtain rfl : lower = shift * binade + less := by omega
    rw [units_mul b (by omega) (by omega), Nat.succ_mul]
    exact .inl rfl

/-- A mantissa within half of one of the quotient is the right one. Below the first mantissa of a binade the numbers are
    nearer to each other, so that one must not be rounded up to. -/
theorem rounds_mantissa {size : Nat} (pos : 0 < b) (unit : b * Nat.pow 2 shift = size)
    (normal : shift = 0 ∨ binade ≤ mantissa) (le : mantissa ≤ 2 * binade)
    (above : 2 * (a * one) ≤ 2 * (mantissa * size) + size)
    (above_even : 2 * (a * one) = 2 * (mantissa * size) + size → mantissa % 2 = 0)
    (below : 2 * (mantissa * size) ≤ 2 * (a * one) + size)
    (below_even : 2 * (mantissa * size) = 2 * (a * one) + size → mantissa % 2 = 0)
    (first : mantissa = binade → shift ≠ 0 → mantissa * size ≤ a * one) :
    Rounds a b (shift * binade + mantissa) := by
  have here := units_mul b normal le
  have next := le_units_succ_mul b normal le
  have previous : ∀ lower, shift * binade + mantissa = lower + 1 →
      units lower * b + size = mantissa * size ∨ units lower * b + mantissa * size < 2 * (a * one) := by
    intro lower eq
    rcases units_pred_mul b normal le eq with less | ⟨mantissa_eq, shifted⟩
    · exact .inl (unit ▸ less)
    · have down := first mantissa_eq shifted
      have less : units lower * b < units (shift * binade + mantissa) * b := by
        rw [eq]
        exact Nat.mul_lt_mul_of_pos_right (units_lt_succ lower) pos
      rw [here, unit] at less
      omega
  rw [unit] at here next
  constructor
  · rw [Nat.add_mul]
    omega
  · rw [Nat.add_mul, place_mod_two]
    exact fun tie => above_even (by omega)
  · intro lower eq
    rw [Nat.add_mul]
    rcases previous lower eq with less | less <;> omega
  · intro lower eq
    rw [Nat.add_mul, place_mod_two]
    intro tie
    rcases previous lower eq with less | less
    · exact below_even (by omega)
    · omega

/-- `nearest` rounds. -/
theorem rounds_nearest (pos : 0 < b) : Rounds a b (nearest a b) := by
  generalize shifted : Nat.log2 (a * one / b) - 52 = shift
  generalize unit : b * Nat.pow 2 shift = size
  have positive : 0 < size := unit ▸ Nat.mul_pos pos (Nat.two_pow_pos shift)
  obtain ⟨normal, lt⟩ := quotient_mantissa shifted.symm
  rw [Nat.div_div_eq_div_mul, unit] at normal lt
  have split := Nat.div_add_mod' (a * one) size
  have rest := Nat.mod_lt (a * one) positive
  have place : nearest a b = shift * binade + roundedQuotient (a * one) size := by
    simp only [nearest, shifted, unit]
  rw [place]
  rcases roundedQuotient_cases (n := a * one) (m := size) with ⟨eq, near⟩ | ⟨eq, near⟩
  · rw [eq]
    refine rounds_mantissa pos unit normal (by omega) ?_ ?_ ?_ ?_ ?_ <;> omega
  · rw [eq]
    have up := Nat.add_one_mul (a * one / size) size
    refine rounds_mantissa pos unit ?_ ?_ ?_ ?_ ?_ ?_ ?_ <;> omega

end ExprLang.Rank
