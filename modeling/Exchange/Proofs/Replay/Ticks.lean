import Mathlib.Tactic.GCongr
import Mathlib.Tactic.NormNum
import Exchange.Proofs.Number.Quotient
import Exchange.Replay.Rows

/-!
# Prices in ticks

A replay row's price becomes a whole number of ticks by dividing it by the tick size
(`Replay.toTicksWith`, whose division is a parameter; `Replay.toTicks` divides with
`Decimal.div`). What the conversion promises rests only on the division's rounding contract
(`Decimal.RoundsQuotient`). A tick size of zero or below is refused. An exact multiple `k · t` of
the tick size `t`, for `k` in the 64-bit range short of its top value, becomes `k`. The other way
holds only up to the division's rounding: a price that becomes `k` ticks lies within
`t / (2 · 10^9)` of `k · t`, because the quotient keeps as many places after the point as fit its
96-bit mantissa, and next to `2^63` that is nine. Main statement,
`Replay.toTicksWith_within_rounding`; and an off-tick price that does become a tick count, `3` in
ticks of `3.0000000000000000000000000001` (`Replay.toTicks_off_tick`).
-/

namespace Exchange

namespace Decimal

theorem intPow_ten (s : Nat) : Int.pow 10 s = ((Nat.pow 10 s : ℕ) : ℤ) :=
  (Int.natCast_pow 10 s).symm

theorem value_eq_truncate {d : Decimal} (h : d.isWhole = true) : d.value = d.truncate := by
  have hdvd : Nat.pow 10 d.scale ∣ d.mantissa := Nat.dvd_of_mod_eq_zero (by simpa [isWhole] using h)
  obtain ⟨m, hm⟩ := hdvd
  have hpow : (0 : ℚ) < 10 ^ d.scale := by positivity
  have hq : (d.mantissa : ℚ) / 10 ^ d.scale = m := by
    rw [hm, Nat.cast_mul, Nat.pow_eq, Nat.cast_pow]
    push_cast
    field_simp
  have h10 : 0 < Nat.pow 10 d.scale := Nat.pow_pos (by decide)
  have ht : (d.mantissa : ℤ) / Int.pow 10 d.scale = m := by
    rw [intPow_ten, hm, Nat.cast_mul, Int.mul_ediv_cancel_left _ (by omega)]
  unfold value magnitude truncate
  rw [hq]
  simp only [ht]
  cases d.negative <;> simp

theorem whole_of_value_eq {d : Decimal} {k : ℤ} (h : d.value = k) :
    d.isWhole = true ∧ d.truncate = k := by
  have hpow : (0 : ℚ) < 10 ^ d.scale := by positivity
  have hm : d.mantissa = k.natAbs * Nat.pow 10 d.scale := by
    have hq : (d.mantissa : ℚ) = |(k : ℚ)| * 10 ^ d.scale := by
      rw [← h, abs_value, magnitude]
      field_simp
    have hq' : ((d.mantissa : ℕ) : ℚ) = ((k.natAbs * Nat.pow 10 d.scale : ℕ) : ℚ) := by
      rw [hq, Nat.cast_mul, Nat.cast_natAbs, Int.cast_abs, Nat.pow_eq, Nat.cast_pow]
      push_cast
      ring
    exact_mod_cast hq'
  have h10 : 0 < Nat.pow 10 d.scale := Nat.pow_pos (by decide)
  have hw : d.isWhole = true := by simp [isWhole, hm]
  refine ⟨hw, ?_⟩
  have htr := value_eq_truncate hw
  rw [h] at htr
  exact_mod_cast htr.symm

theorem value_eq_of_near {d : Decimal} {k : ℤ} (h : 2 * 10 ^ d.scale * |(k : ℚ) - d.value| ≤ 1) :
    d.value = k := by
  have hpow : (0 : ℚ) < 10 ^ d.scale := by positivity
  -- `10^scale` times the distance is an integer of size at most one half
  set z : ℤ := k * Nat.pow 10 d.scale - (if d.negative then -1 else 1) * d.mantissa with hz
  have hzq : (z : ℚ) = 10 ^ d.scale * ((k : ℚ) - d.value) := by
    rw [hz]
    unfold value magnitude
    push_cast [Nat.pow_eq]
    field_simp
  have hz0 : z = 0 := by
    have habs : |(z : ℚ)| < 1 := by
      rw [hzq, abs_mul, abs_of_pos hpow]
      linarith
    exact Int.abs_lt_one_iff.1 (by exact_mod_cast habs)
  have hsub : (k : ℚ) - d.value = 0 := by
    have : (10 : ℚ) ^ d.scale * ((k : ℚ) - d.value) = 0 := by rw [← hzq, hz0, Int.cast_zero]
    exact (mul_eq_zero.1 this).resolve_left hpow.ne'
  linarith

theorem toInt64?_eq_some {d : Decimal} {k : ℤ} (h : d.toInt64? = some k) :
    -Int.pow 2 63 ≤ k ∧ k < Int.pow 2 63 ∧ d.truncate = k := by
  unfold toInt64? at h
  dsimp only at h
  split at h
  · cases h
    exact ⟨‹_ ∧ _›.1, ‹_ ∧ _›.2, rfl⟩
  · cases h

theorem toInt64?_of_range {d : Decimal} (hlo : -Int.pow 2 63 ≤ d.truncate)
    (hhi : d.truncate < Int.pow 2 63) : d.toInt64? = some d.truncate := by
  unfold toInt64?
  exact if_pos ⟨hlo, hhi⟩

theorem abs_le_of_range {k : ℤ} (hlo : -Int.pow 2 63 ≤ k) (hhi : k < Int.pow 2 63) :
    |(k : ℚ)| ≤ 2 ^ 63 := by
  have h63 : Int.pow 2 63 = 9223372036854775808 := by decide
  rw [abs_le]
  constructor
  · have : (-9223372036854775808 : ℤ) ≤ k := by omega
    exact_mod_cast this
  · have : k ≤ (9223372036854775808 : ℤ) := by omega
    exact_mod_cast this

theorem value_pos_of_isNonPositive_eq_false {d : Decimal} (h : d.isNonPositive = false) :
    0 < d.value := by
  by_contra hle
  rw [(isNonPositive_iff d).2 (not_lt.1 hle)] at h
  cases h

/-! ## What the rounding contract gives -/

variable {div : Decimal → Decimal → Except Fault Decimal} {p t d : Decimal} {k : ℤ}

theorem near_of_nine_le (hs : 9 ≤ d.scale)
    (hnear : 2 * 10 ^ d.scale * |p.value - d.value * t.value| ≤ t.value) :
    2 * 10 ^ 9 * |p.value - d.value * t.value| ≤ t.value := by
  have hpow : (10 : ℚ) ^ 9 ≤ 10 ^ d.scale := pow_le_pow_right₀ (by norm_num) hs
  calc 2 * 10 ^ 9 * |p.value - d.value * t.value|
      ≤ 2 * 10 ^ d.scale * |p.value - d.value * t.value| := by gcongr
    _ ≤ t.value := hnear

/-- **The scale a rounded quotient near `2^63` keeps.** A quotient worth an integer of at most
`2^63` in size, rounded where one place finer would not fit 96 bits, has nine places or more. -/
theorem nine_le_scale (ht : 0 < t.value)
    (hnear : 2 * 10 ^ d.scale * |p.value - d.value * t.value| ≤ t.value)
    (hfine : (2 * 2 ^ 96 - 1) * t.value ≤ 2 * |p.value| * 10 ^ (d.scale + 1))
    (hk : d.value = k) (habs : |(k : ℚ)| ≤ 2 ^ 63) : 9 ≤ d.scale := by
  by_contra hs
  have hpow : (10 : ℚ) ^ (d.scale + 1) ≤ 10 ^ 9 := pow_le_pow_right₀ (by norm_num) (by omega)
  have hone : (1 : ℚ) ≤ 10 ^ d.scale := one_le_pow₀ (by norm_num)
  have hdist : 2 * |p.value - k * t.value| ≤ t.value := by
    rw [← hk]
    nlinarith [abs_nonneg (p.value - d.value * t.value)]
  have hP : |p.value| ≤ (2 ^ 63 + 1 / 2) * t.value := by
    have htri : |p.value| ≤ |p.value - k * t.value| + |(k : ℚ)| * t.value := by
      calc |p.value| = |(p.value - k * t.value) + k * t.value| := by rw [sub_add_cancel]
        _ ≤ |p.value - k * t.value| + |(k : ℚ) * t.value| := abs_add_le _ _
        _ = |p.value - k * t.value| + |(k : ℚ)| * t.value := by rw [abs_mul, abs_of_pos ht]
    nlinarith
  have hbig : (2 * 2 ^ 96 - 1) * t.value ≤ (2 * (2 ^ 63 + 1 / 2) * 10 ^ 9) * t.value := by
    calc (2 * 2 ^ 96 - 1) * t.value ≤ 2 * |p.value| * 10 ^ (d.scale + 1) := hfine
      _ ≤ 2 * ((2 ^ 63 + 1 / 2) * t.value) * 10 ^ 9 := by gcongr
      _ = (2 * (2 ^ 63 + 1 / 2) * 10 ^ 9) * t.value := by ring
  have := le_of_mul_le_mul_right hbig ht
  norm_num at this

end Decimal

namespace Replay

open Decimal

variable {div : Decimal → Decimal → Except Fault Decimal} {line : Nat} {p t : Decimal} {k : ℤ}

theorem toTicksWith_eq_ok (h : toTicksWith div line p t = .ok k) :
    t.isNonPositive = false ∧ ∃ d, div p t = .ok d ∧ d.isWhole = true ∧ d.toInt64? = some k ∧
      k ≠ Int.pow 2 63 - 1 := by
  unfold toTicksWith at h
  cases ht : t.isNonPositive
  · simp only [ht, Bool.false_eq_true, if_false] at h
    cases hd : div p t with
    | error f => simp [hd, Except.mapError, bind, Except.bind] at h
    | ok d =>
      simp only [hd, Except.mapError, bind, Except.bind] at h
      cases hw : d.isWhole
      · simp [hw, throw, throwThe, MonadExceptOf.throw] at h
      · cases hi : d.toInt64? with
        | none => simp [hw, hi, throw, throwThe, MonadExceptOf.throw] at h
        | some k' =>
          simp only [hw, hi, Bool.not_true, Bool.false_eq_true, if_false] at h
          split at h
          · cases h
          · cases h
            exact ⟨rfl, d, rfl, hw, hi, ‹_›⟩
  · simp [ht, bind, Except.bind, throw, throwThe, MonadExceptOf.throw] at h

/-- **A converted price is near its ticks.** A price that becomes `k` ticks of `t` is within
`t / (2 · 10^9)` of `k · t`, and `k` is in the 64-bit range short of its top value. -/
theorem toTicksWith_eq_ok_near (hdiv : RoundsQuotient div) (h : toTicksWith div line p t = .ok k) :
    -Int.pow 2 63 ≤ k ∧ k < Int.pow 2 63 - 1 ∧ 2 * 10 ^ 9 * |p.value - k * t.value| ≤ t.value := by
  obtain ⟨hnp, d, hd, hw, hi, hmax⟩ := toTicksWith_eq_ok h
  obtain ⟨hlo, hhi, htr⟩ := toInt64?_eq_some hi
  have ht := value_pos_of_isNonPositive_eq_false hnp
  have hk : d.value = k := by rw [value_eq_truncate hw, htr]
  refine ⟨hlo, lt_of_le_of_ne (by omega) hmax, ?_⟩
  have hnear := hdiv.nearest ht hd
  rw [← hk]
  rcases hdiv.finest ht hd with hexact | hs | hfine
  · rw [hexact, sub_self, abs_zero, mul_zero]
    exact ht.le
  · exact near_of_nine_le (by omega) hnear
  · exact near_of_nine_le (nine_le_scale ht hnear hfine hk (abs_le_of_range hlo hhi)) hnear

/-- **Exact multiples convert.** A price that is `k` times a positive tick size, for `k` in the
64-bit range short of its top value, becomes `k` ticks. -/
theorem toTicksWith_of_eq_mul (hdiv : RoundsQuotient div) (ht : 0 < t.value)
    (hlo : -Int.pow 2 63 ≤ k) (hhi : k < Int.pow 2 63 - 1) (h : p.value = k * t.value) :
    toTicksWith div line p t = .ok k := by
  have habs := abs_le_of_range hlo (by omega)
  obtain ⟨d, hd⟩ := hdiv.succeeds ht (by
    rw [h, abs_mul, abs_of_pos ht]
    nlinarith)
  -- the quotient lies within half a unit of its last place of `k`, so it is `k`
  have hnear := hdiv.nearest ht hd
  rw [h, ← sub_mul, abs_mul, abs_of_pos ht, ← mul_assoc] at hnear
  have hdk : d.value = k := value_eq_of_near (by
    have := le_of_mul_le_mul_right (by linarith : 2 * 10 ^ d.scale * |(k : ℚ) - d.value| * t.value ≤
      1 * t.value) ht
    exact this)
  obtain ⟨hw, htr⟩ := whole_of_value_eq hdk
  have hint : d.toInt64? = some k := by
    rw [toInt64?_of_range (by omega) (by omega), htr]
  have hnp : t.isNonPositive = false := by
    cases hnp : t.isNonPositive
    · rfl
    · exact absurd ((isNonPositive_iff t).1 hnp) (not_le.2 ht)
  unfold toTicksWith
  simp only [hnp, Bool.false_eq_true, if_false, hd, Except.mapError, bind, Except.bind, hw,
    Bool.not_true, hint]
  rw [if_neg (by omega)]
  rfl

/-- **Tick conversion is exact up to the division's rounding.** For any division that keeps the
rounding contract: a tick size of zero or below is refused; a price that becomes `k` ticks of
`t` lies within `t / (2 · 10^9)` of `k · t`, with `k` in the 64-bit range short of its top value;
and every exact multiple `k · t` of a positive tick size, for such `k`, becomes `k` ticks. -/
theorem toTicksWith_within_rounding (hdiv : RoundsQuotient div) (line : Nat) (p t : Decimal) :
    (t.value ≤ 0 →
      toTicksWith div line p t = .error (.row line s!"tick size must be positive, got {t.toText}")) ∧
    (∀ k, toTicksWith div line p t = .ok k →
      -Int.pow 2 63 ≤ k ∧ k < Int.pow 2 63 - 1 ∧ 2 * 10 ^ 9 * |p.value - k * t.value| ≤ t.value) ∧
    (∀ k : ℤ, 0 < t.value → -Int.pow 2 63 ≤ k → k < Int.pow 2 63 - 1 → p.value = k * t.value →
      toTicksWith div line p t = .ok k) := by
  refine ⟨fun ht => ?_, fun _ h => toTicksWith_eq_ok_near hdiv h,
    fun _ ht hlo hhi h => toTicksWith_of_eq_mul hdiv ht hlo hhi h⟩
  have hnp := (isNonPositive_iff t).2 ht
  unfold toTicksWith
  simp [hnp, bind, Except.bind, throw, throwThe, MonadExceptOf.throw]

/-- The decimal division keeps the contract, so the conversion the replay runs is exact up to
rounding; here on the price `3` and the tick size `3.0000000000000000000000000001`. -/
theorem toTicks_within_rounding_by_div :
    RoundsQuotient Decimal.div ∧
      let p : Decimal := ⟨false, 3, 0⟩
      let t : Decimal := ⟨false, 30000000000000000000000000001, 28⟩
      (t.value ≤ 0 →
        toTicksWith Decimal.div 2 p t = .error (.row 2 s!"tick size must be positive, got {t.toText}")) ∧
      (∀ k, toTicksWith Decimal.div 2 p t = .ok k →
        -Int.pow 2 63 ≤ k ∧ k < Int.pow 2 63 - 1 ∧ 2 * 10 ^ 9 * |p.value - k * t.value| ≤ t.value) ∧
      (∀ k : ℤ, 0 < t.value → -Int.pow 2 63 ≤ k → k < Int.pow 2 63 - 1 → p.value = k * t.value →
        toTicksWith Decimal.div 2 p t = .ok k) :=
  ⟨roundsQuotient_div, toTicksWith_within_rounding roundsQuotient_div 2 _ _⟩

/-- An off-tick price that converts: `3` is not a multiple of `3.0000000000000000000000000001`, yet
their quotient `0.99999999999999999999999999996…` rounds at scale 28 to a whole number, so the
price becomes one tick. -/
theorem toTicks_off_tick :
    toTicks 2 ⟨false, 3, 0⟩ ⟨false, 30000000000000000000000000001, 28⟩ = .ok 1 ∧
      (⟨false, 3, 0⟩ : Decimal).value ≠ 1 * (⟨false, 30000000000000000000000000001, 28⟩ : Decimal).value := by
  constructor
  · rfl
  · norm_num [Decimal.value, Decimal.magnitude]

end Replay

end Exchange
