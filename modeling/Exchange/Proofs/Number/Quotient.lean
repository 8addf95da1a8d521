import Mathlib.Algebra.Order.Field.Basic
import Mathlib.Data.Rat.Cast.Order
import Mathlib.Tactic.FieldSimp
import Mathlib.Tactic.Linarith
import Mathlib.Tactic.Positivity
import Mathlib.Tactic.Ring
import Exchange.Number.Decimal

/-!
# What a decimal quotient is worth

A decimal stands for the rational `±mantissa / 10^scale` (`Decimal.value`): its sign times its
magnitude. A quotient that division returns is zero for a zero dividend; or it is the quotient of
the magnitudes within half a unit of its last place, at scale 28 or at a scale whose next finer
one would not fit; or it is the one result made when rounding carries the mantissa over its bound,
which lies within half a unit of a place too (`Decimal.div_eq_ok_cases`).

`Decimal.RoundsQuotient` is the rounding contract of a decimal division, read on values alone: it
succeeds on a quotient under `2^95`, rounds to the nearest at the result's scale, and keeps the
finest scale up to 28 that a 96-bit mantissa allows. Main statement, `Decimal.roundsQuotient_div`:
the division of this library keeps it.
-/

namespace Exchange

namespace Decimal

/-- The size of a decimal, `mantissa / 10^scale`. -/
def magnitude (d : Decimal) : ℚ := (d.mantissa : ℚ) / 10 ^ d.scale

/-- The rational a decimal stands for. -/
def value (d : Decimal) : ℚ := (if d.negative then -1 else 1) * d.magnitude

theorem magnitude_nonneg (d : Decimal) : 0 ≤ d.magnitude := by
  unfold magnitude
  positivity

theorem magnitude_pos {d : Decimal} (h : 0 < d.mantissa) : 0 < d.magnitude := by
  unfold magnitude
  positivity

@[simp] theorem abs_value (d : Decimal) : |d.value| = d.magnitude := by
  unfold value
  cases d.negative <;> simp [abs_of_nonneg (magnitude_nonneg d)]

theorem magnitude_make (negative : Bool) (m s : Nat) :
    (make negative m s).magnitude = (m : ℚ) / 10 ^ s := rfl

theorem isNonPositive_iff (d : Decimal) : d.isNonPositive = true ↔ d.value ≤ 0 := by
  unfold isNonPositive value
  rcases Nat.eq_zero_or_pos d.mantissa with h | h
  · simp [h, magnitude]
  · have hpos := magnitude_pos h
    cases d.negative
    · simp only [Nat.pos_iff_ne_zero.1 h, decide_false, Bool.or_false, Bool.false_eq_true,
        if_false, one_mul, false_iff, not_le]
      exact hpos
    · simp only [Bool.or_true, if_true, true_iff]
      linarith

/-! ## Rounding and the choice of scale -/

theorem two_mul_abs_sub_round_le (n d : ℕ) (hd : 0 < d) :
    2 * |(n : ℚ) - ((if 2 * (n % d) > d ∨ (2 * (n % d) = d ∧ n / d % 2 = 1)
      then n / d + 1 else n / d : ℕ) : ℚ) * d| ≤ d := by
  have hn : (n : ℚ) = (n / d : ℕ) * d + (n % d : ℕ) := by
    exact_mod_cast (Nat.div_add_mod' n d).symm
  have hr : ((n % d : ℕ) : ℚ) < d := by exact_mod_cast Nat.mod_lt n hd
  have hr0 : (0 : ℚ) ≤ (n % d : ℕ) := by positivity
  split_ifs with hup
  · -- rounded up: twice the remainder is at least `d`
    have h2r : (d : ℚ) ≤ 2 * (n % d : ℕ) := by
      have : d ≤ 2 * (n % d) := by omega
      exact_mod_cast this
    have hdiff : (n : ℚ) - ((n / d + 1 : ℕ) : ℚ) * d = (n % d : ℕ) - d := by
      rw [hn]
      push_cast
      ring
    rw [hdiff, abs_of_nonpos (by linarith)]
    linarith
  · have h2r : 2 * ((n % d : ℕ) : ℚ) ≤ d := by
      have : 2 * (n % d) ≤ d := by omega
      exact_mod_cast this
    have hdiff : (n : ℚ) - ((n / d : ℕ) : ℚ) * d = (n % d : ℕ) := by
      rw [hn]
      ring
    rw [hdiff, abs_of_nonneg hr0]
    exact h2r

theorem carry_of_round {n d bound : ℕ} (hd : 0 < d) (hlt : n / d < bound)
    (hge : bound ≤ if 2 * (n % d) > d ∨ (2 * (n % d) = d ∧ n / d % 2 = 1) then n / d + 1 else n / d) :
    2 * bound * d ≤ 2 * n + d ∧ n < bound * d := by
  have hn := Nat.div_add_mod n d
  refine ⟨?_, (Nat.div_lt_iff_lt_mul hd).1 hlt⟩
  split_ifs at hge with hup
  · have hq : bound = n / d + 1 := by omega
    have hr : d ≤ 2 * (n % d) := by omega
    subst hq
    nlinarith
  · omega

section Scale

variable (n d : Nat)

theorem fitScale_stop : ∀ (s fuel : Nat), fitScale n d s fuel = s + fuel ∨
    mantissaBound ≤ n * Nat.pow 10 (fitScale n d s fuel + 1) / d
  | s, 0 => .inl rfl
  | s, fuel + 1 => by
    unfold fitScale
    split
    · rcases fitScale_stop (s + 1) fuel with h | h
      · exact .inl (by omega)
      · exact .inr h
    · exact .inr (by omega)

theorem fitScale_fits : ∀ (s fuel : Nat), n * Nat.pow 10 s / d < mantissaBound →
    n * Nat.pow 10 (fitScale n d s fuel) / d < mantissaBound
  | s, 0, h => h
  | s, fuel + 1, h => by
    unfold fitScale
    split
    · exact fitScale_fits (s + 1) fuel ‹_›
    · exact h

end Scale

/-! ## The quotient -/

section Quotient

variable (a b : Decimal)

theorem cast_dividend :
    ((a.mantissa * Nat.pow 10 b.scale : ℕ) : ℚ) = a.magnitude * (10 ^ a.scale * 10 ^ b.scale) := by
  unfold magnitude
  push_cast [Nat.pow_eq]
  field_simp

theorem cast_scaled_dividend (s : Nat) :
    ((a.mantissa * Nat.pow 10 b.scale * Nat.pow 10 s : ℕ) : ℚ) =
      a.magnitude * 10 ^ s * (10 ^ a.scale * 10 ^ b.scale) := by
  rw [Nat.cast_mul, cast_dividend, Nat.pow_eq, Nat.cast_pow]
  push_cast
  ring

theorem cast_scaled_divisor :
    ((b.mantissa * Nat.pow 10 a.scale : ℕ) : ℚ) = b.magnitude * (10 ^ a.scale * 10 ^ b.scale) := by
  unfold magnitude
  push_cast [Nat.pow_eq]
  field_simp

theorem near_of_scaled {s q : ℕ}
    (key : 2 * |((a.mantissa * Nat.pow 10 b.scale * Nat.pow 10 s : ℕ) : ℚ) -
      (q : ℚ) * ((b.mantissa * Nat.pow 10 a.scale : ℕ) : ℚ)| ≤
        ((b.mantissa * Nat.pow 10 a.scale : ℕ) : ℚ)) :
    2 * |a.magnitude * 10 ^ s - q * b.magnitude| ≤ b.magnitude := by
  have hc : (0 : ℚ) < 10 ^ a.scale * 10 ^ b.scale := by positivity
  rw [cast_scaled_dividend, cast_scaled_divisor,
    show ∀ x y q : ℚ, x * (10 ^ a.scale * 10 ^ b.scale) - q * (y * (10 ^ a.scale * 10 ^ b.scale)) =
      (x - q * y) * (10 ^ a.scale * 10 ^ b.scale) from fun _ _ _ => by ring,
    abs_mul, abs_of_pos hc, ← mul_assoc] at key
  exact le_of_mul_le_mul_right key hc

theorem stop_of_scaled {s : ℕ} (hden : 0 < b.mantissa * Nat.pow 10 a.scale)
    (hstop : mantissaBound ≤
      a.mantissa * Nat.pow 10 b.scale * Nat.pow 10 (s + 1) / (b.mantissa * Nat.pow 10 a.scale)) :
    (mantissaBound : ℚ) * b.magnitude ≤ a.magnitude * 10 ^ (s + 1) := by
  have hc : (0 : ℚ) < 10 ^ a.scale * 10 ^ b.scale := by positivity
  rw [Nat.le_div_iff_mul_le hden] at hstop
  have hcast : ((mantissaBound * (b.mantissa * Nat.pow 10 a.scale) : ℕ) : ℚ) ≤
      ((a.mantissa * Nat.pow 10 b.scale * Nat.pow 10 (s + 1) : ℕ) : ℚ) := by
    exact_mod_cast hstop
  rw [Nat.cast_mul, cast_scaled_divisor, cast_scaled_dividend, ← mul_assoc] at hcast
  exact le_of_mul_le_mul_right hcast hc

end Quotient

/-- **What a quotient is.** A quotient that division returns is zero, for a zero dividend; or the
quotient of the magnitudes rounded to within half a unit of its last place, at scale 28 or at a
scale whose next finer one would not fit; or the result made when rounding carries the mantissa
over its bound. -/
theorem div_eq_ok_cases {a b d : Decimal} (h : a.div b = .ok d) :
    (a.mantissa = 0 ∧ d = zero) ∨
    (∃ s q, d = make (a.negative != b.negative) q s ∧
      2 * |a.magnitude * 10 ^ s - q * b.magnitude| ≤ b.magnitude ∧
      (s = maxScale ∨ (mantissaBound : ℚ) * b.magnitude ≤ a.magnitude * 10 ^ (s + 1))) ∨
    (∃ s, d = make (a.negative != b.negative) (mantissaBound / 10 + 1) s ∧
      (2 * (mantissaBound : ℚ) - 1) * b.magnitude ≤ 2 * a.magnitude * 10 ^ (s + 1) ∧
      a.magnitude * 10 ^ (s + 1) < mantissaBound * b.magnitude) := by
  unfold div at h
  split at h
  · cases h
  rename_i hb
  split at h
  · cases h
    exact .inl ⟨‹_›, rfl⟩
  dsimp only at h
  split at h
  · cases h
  rename_i hover
  have hden : 0 < b.mantissa * Nat.pow 10 a.scale :=
    Nat.mul_pos (Nat.pos_of_ne_zero hb) (Nat.pow_pos (by decide))
  have hfits := fitScale_fits (a.mantissa * Nat.pow 10 b.scale) (b.mantissa * Nat.pow 10 a.scale) 0
    maxScale (by simpa using Nat.lt_of_not_le hover)
  generalize hs : fitScale (a.mantissa * Nat.pow 10 b.scale) (b.mantissa * Nat.pow 10 a.scale) 0
    maxScale = s at h hfits
  have key := two_mul_abs_sub_round_le (a.mantissa * Nat.pow 10 b.scale * Nat.pow 10 s) _ hden
  generalize hq : (if 2 * (a.mantissa * Nat.pow 10 b.scale * Nat.pow 10 s % (b.mantissa * Nat.pow 10 a.scale)) >
      b.mantissa * Nat.pow 10 a.scale ∨
      (2 * (a.mantissa * Nat.pow 10 b.scale * Nat.pow 10 s % (b.mantissa * Nat.pow 10 a.scale)) =
        b.mantissa * Nat.pow 10 a.scale ∧
      a.mantissa * Nat.pow 10 b.scale * Nat.pow 10 s / (b.mantissa * Nat.pow 10 a.scale) % 2 = 1)
    then a.mantissa * Nat.pow 10 b.scale * Nat.pow 10 s / (b.mantissa * Nat.pow 10 a.scale) + 1
    else a.mantissa * Nat.pow 10 b.scale * Nat.pow 10 s / (b.mantissa * Nat.pow 10 a.scale)) = q
    at h key
  split at h
  · -- the rounded mantissa fits
    cases h
    refine .inr (.inl ⟨s, q, rfl, near_of_scaled a b key, ?_⟩)
    rcases fitScale_stop (a.mantissa * Nat.pow 10 b.scale) (b.mantissa * Nat.pow 10 a.scale) 0
      maxScale with hstop | hstop
    · exact .inl (by omega)
    · rw [hs] at hstop
      exact .inr (stop_of_scaled a b hden hstop)
  · rename_i hcarry
    split at h
    · cases h
    · cases h
      rename_i hs0
      -- the rounding carried: the quotient at scale `s` lies within half a unit below the bound
      obtain ⟨hlo, hhi⟩ := carry_of_round hden hfits (hq ▸ Nat.le_of_not_lt hcarry)
      have hc : (0 : ℚ) < 10 ^ a.scale * 10 ^ b.scale := by positivity
      have hlo' : 2 * (mantissaBound : ℚ) * ((b.mantissa * Nat.pow 10 a.scale : ℕ) : ℚ) ≤
          2 * ((a.mantissa * Nat.pow 10 b.scale * Nat.pow 10 s : ℕ) : ℚ) +
            ((b.mantissa * Nat.pow 10 a.scale : ℕ) : ℚ) := by
        exact_mod_cast hlo
      have hhi' : ((a.mantissa * Nat.pow 10 b.scale * Nat.pow 10 s : ℕ) : ℚ) <
          (mantissaBound : ℚ) * ((b.mantissa * Nat.pow 10 a.scale : ℕ) : ℚ) := by
        exact_mod_cast hhi
      rw [cast_scaled_dividend, cast_scaled_divisor] at hlo' hhi'
      refine .inr (.inr ⟨s - 1, rfl, ?_, ?_⟩) <;> rw [show s - 1 + 1 = s by omega]
      · refine le_of_mul_le_mul_right ?_ hc
        linarith
      · refine lt_of_mul_lt_mul_right ?_ hc.le
        linarith

/-! ## The rounding contract -/

theorem value_make (negative : Bool) (m s : Nat) :
    (make negative m s).value = (if negative then -1 else 1) * ((m : ℚ) / 10 ^ s) := by
  unfold value
  rw [magnitude_make]
  rcases Nat.eq_zero_or_pos m with rfl | hm
  · simp
  · cases negative <;> simp [make, Nat.pos_iff_ne_zero.1 hm]

theorem value_of_not_negative {d : Decimal} (h : d.negative = false) : d.value = d.magnitude := by
  simp [value, h]

theorem pos_of_value_pos {d : Decimal} (h : 0 < d.value) : d.negative = false ∧ 0 < d.mantissa := by
  have hnp : d.isNonPositive = false := by
    cases hd : d.isNonPositive
    · rfl
    · exact absurd ((isNonPositive_iff d).1 hd) (not_le.2 h)
  simp only [isNonPositive, Bool.or_eq_false_iff, decide_eq_false_iff_not] at hnp
  exact ⟨hnp.2, Nat.pos_of_ne_zero hnp.1⟩

theorem scaled_sub_make {p t : Decimal} (ht : t.negative = false) (q s : ℕ) :
    10 ^ s * |p.value - (make (p.negative != t.negative) q s).value * t.value| =
      |p.magnitude * 10 ^ s - q * t.magnitude| := by
  have hpow : (0 : ℚ) < 10 ^ s := by positivity
  have hσ : |(if p.negative then -1 else 1 : ℚ)| = 1 := by
    cases p.negative <;> simp
  have hexpr : p.value - (make (p.negative != t.negative) q s).value * t.value =
      (if p.negative then -1 else 1) * ((p.magnitude * 10 ^ s - q * t.magnitude) / 10 ^ s) := by
    rw [value_make, ht, Bool.bne_false, value_of_not_negative ht]
    unfold value
    field_simp
  rw [hexpr, abs_mul, hσ, one_mul, abs_div, abs_of_pos hpow]
  field_simp

theorem div_ok_of_lt {a b : Decimal} (hb : 0 < b.mantissa) (h : a.magnitude < 2 ^ 95 * b.magnitude) :
    ∃ d, a.div b = .ok d := by
  have hden : 0 < b.mantissa * Nat.pow 10 a.scale := Nat.mul_pos hb (Nat.pow_pos (by decide))
  have hM : mantissaBound = 2 * 2 ^ 95 := by decide
  have hnum : a.mantissa * Nat.pow 10 b.scale < 2 ^ 95 * (b.mantissa * Nat.pow 10 a.scale) := by
    have hc : (0 : ℚ) < 10 ^ a.scale * 10 ^ b.scale := by positivity
    have hq : ((a.mantissa * Nat.pow 10 b.scale : ℕ) : ℚ) <
        2 ^ 95 * ((b.mantissa * Nat.pow 10 a.scale : ℕ) : ℚ) := by
      rw [cast_dividend, cast_scaled_divisor]
      linarith [mul_lt_mul_of_pos_right h hc]
    exact_mod_cast hq
  have hwhole : a.mantissa * Nat.pow 10 b.scale / (b.mantissa * Nat.pow 10 a.scale) < 2 ^ 95 :=
    (Nat.div_lt_iff_lt_mul hden).2 hnum
  cases hd : a.div b with
  | ok d => exact ⟨d, rfl⟩
  | error f =>
    exfalso
    unfold div at hd
    rw [if_neg (by omega)] at hd
    split at hd
    · cases hd
    dsimp only at hd
    rw [if_neg (by omega)] at hd
    generalize fitScale (a.mantissa * Nat.pow 10 b.scale) (b.mantissa * Nat.pow 10 a.scale) 0
      maxScale = s at hd
    -- only a quotient rounded at scale 0 can fail, and it is at most one past the whole quotient
    split_ifs at hd
    all_goals
      subst s
      simp only [Nat.pow_eq, Nat.pow_zero, Nat.mul_one] at *
      omega

/-- **The rounding contract of decimal division.** For a divisor above zero: the division
succeeds when the quotient is under `2^95` in size; its result is the exact quotient rounded to
the nearest at the result's own scale; and unless the result is exact, that scale is 28, or one
place finer the quotient would need a mantissa of at least `2^96`. -/
structure RoundsQuotient (div : Decimal → Decimal → Except Fault Decimal) : Prop where
  succeeds : ∀ {p t : Decimal}, 0 < t.value → |p.value| < 2 ^ 95 * t.value → ∃ d, div p t = .ok d
  nearest : ∀ {p t d : Decimal}, 0 < t.value → div p t = .ok d →
    2 * 10 ^ d.scale * |p.value - d.value * t.value| ≤ t.value
  finest : ∀ {p t d : Decimal}, 0 < t.value → div p t = .ok d →
    d.value * t.value = p.value ∨ d.scale = 28 ∨
      (2 * 2 ^ 96 - 1) * t.value ≤ 2 * |p.value| * 10 ^ (d.scale + 1)

theorem near_of_carry {A B X : ℚ} (hX : X = A * 10 ^ s)
    (hlo : (2 * (mantissaBound : ℚ) - 1) * B ≤ 2 * A * 10 ^ (s + 1))
    (hhi : A * 10 ^ (s + 1) < mantissaBound * B) :
    2 * |X - ((mantissaBound / 10 + 1 : ℕ) : ℚ) * B| ≤ B := by
  have hM : ((mantissaBound / 10 + 1 : ℕ) : ℚ) * 10 = mantissaBound + 4 := by
    have hn : (mantissaBound / 10 + 1) * 10 = mantissaBound + 4 := by decide
    exact_mod_cast hn
  have hMB : ((mantissaBound / 10 + 1 : ℕ) : ℚ) * B * 10 = (mantissaBound + 4) * B := by
    rw [mul_right_comm, hM]
  have hten : A * 10 ^ (s + 1) = X * 10 := by rw [hX, pow_succ, mul_assoc]
  have habs : |X - ((mantissaBound / 10 + 1 : ℕ) : ℚ) * B| ≤ B / 2 :=
    abs_le.2 ⟨by linarith, by linarith⟩
  linarith

theorem roundsQuotient_div : RoundsQuotient div where
  succeeds ht h := by
    obtain ⟨htn, htm⟩ := pos_of_value_pos ht
    apply div_ok_of_lt htm
    rwa [← abs_value, ← value_of_not_negative htn]
  nearest {p t d} ht h := by
    obtain ⟨htn, -⟩ := pos_of_value_pos ht
    rcases div_eq_ok_cases h with ⟨hp, rfl⟩ | ⟨s, q, rfl, hnear, -⟩ | ⟨s, rfl, hlo, hhi⟩
    · have hp0 : p.value = 0 := by simp [value, magnitude, hp]
      simp [hp0, zero, value_make, le_of_lt ht]
    · rw [mul_assoc, show (make (p.negative != t.negative) q s).scale = s from rfl,
        scaled_sub_make htn, value_of_not_negative htn]
      exact hnear
    · rw [mul_assoc, show (make (p.negative != t.negative) _ s).scale = s from rfl,
        scaled_sub_make htn, value_of_not_negative htn]
      exact near_of_carry rfl hlo hhi
  finest {p t d} ht h := by
    obtain ⟨htn, -⟩ := pos_of_value_pos ht
    have hM : (mantissaBound : ℚ) = 2 ^ 96 := by norm_num [mantissaBound]
    rw [abs_value, value_of_not_negative htn]
    rcases div_eq_ok_cases h with ⟨hp, rfl⟩ | ⟨s, q, rfl, -, hs | hstop⟩ | ⟨s, rfl, hlo, -⟩
    · left
      simp [value, magnitude, hp, zero, make]
    · exact .inr (.inl hs)
    · right; right
      rw [← hM]
      have hB := magnitude_nonneg t
      change (2 * (mantissaBound : ℚ) - 1) * t.magnitude ≤ 2 * p.magnitude * 10 ^ (s + 1)
      linarith
    · right; right
      rw [← hM]
      exact hlo

end Decimal

end Exchange
