import Mathlib.Data.Rat.Floor
import Mathlib.Tactic.Linarith

/-!
# Amounts of money

Amounts are exact rationals: the database columns are decimals, and the JavaScript numbers between
them are taken in exact arithmetic. `roundHalfUp` is `Math.round`, `cents` and `round2` round to the
cent.
-/

namespace Barbershop

/-- `Math.round`: to the nearest integer, halves up. -/
def roundHalfUp (x : ℚ) : ℤ := ⌊x + 1 / 2⌋

/-- An amount in whole cents. -/
def cents (v : ℚ) : ℤ := roundHalfUp (v * 100)

def round2 (v : ℚ) : ℚ := roundHalfUp (v * 100) / 100

/-- What two amounts of one sale may differ by and still agree. -/
def MONEY_TOLERANCE : ℚ := 1 / 100

/-- The currencies without decimals. -/
def ZERO_DECIMAL : List String :=
  ["BIF", "CLP", "DJF", "GNF", "JPY", "KMF", "KRW", "MGA", "PYG", "RWF", "UGX", "VND", "VUV", "XAF",
    "XOF", "XPF"]

def isZeroDecimal (currency : String) : Bool := ZERO_DECIMAL.contains currency.toUpper

/-- How many minor units there are in one unit of the currency. -/
def minorUnitFactor (currency : String) : ℤ := if isZeroDecimal currency then 1 else 100

def toMinorUnits (amount : ℚ) (currency : String) : ℤ :=
  roundHalfUp (amount * minorUnitFactor currency)

def fromMinorUnits (minor : ℤ) (currency : String) : ℚ := minor / minorUnitFactor currency

def roundMoney (amount : ℚ) (currency : String) : ℚ :=
  fromMinorUnits (toMinorUnits amount currency) currency

/-- `toFixed(2)` of an amount that is not negative. -/
def toFixed2 (v : ℚ) : String :=
  toString (cents v / 100) ++ "." ++ toString (cents v % 100 / 10) ++ toString (cents v % 10)

theorem roundHalfUp_mono {x y : ℚ} (h : x ≤ y) : roundHalfUp x ≤ roundHalfUp y :=
  Int.floor_mono (by linarith)

@[simp] theorem roundHalfUp_intCast (n : ℤ) : roundHalfUp n = n := by
  unfold roundHalfUp
  rw [Int.floor_eq_iff]
  constructor <;> linarith

theorem round2_eq_cents_div (v : ℚ) : round2 v = cents v / 100 := rfl

theorem round2_mono {x y : ℚ} (h : x ≤ y) : round2 x ≤ round2 y := by
  unfold round2
  have : (roundHalfUp (x * 100) : ℚ) ≤ roundHalfUp (y * 100) :=
    Int.cast_le.2 (roundHalfUp_mono (by linarith))
  linarith

@[simp] theorem round2_intCast_div (n : ℤ) : round2 ((n : ℚ) / 100) = n / 100 := by
  unfold round2
  rw [div_mul_cancel₀ _ (by norm_num), roundHalfUp_intCast]

@[simp] theorem round2_round2 (v : ℚ) : round2 (round2 v) = round2 v :=
  round2_intCast_div _

@[simp] theorem round2_zero : round2 0 = 0 := by
  simpa using round2_intCast_div 0

theorem round2_nonneg {v : ℚ} (h : 0 ≤ v) : 0 ≤ round2 v := by
  simpa using round2_mono h

theorem round2_add_intCast_div (v : ℚ) (n : ℤ) : round2 (v + n / 100) = round2 v + n / 100 := by
  unfold round2 roundHalfUp
  have e : (v + n / 100) * 100 + 1 / 2 = v * 100 + 1 / 2 + (n : ℚ) := by ring
  rw [e, Int.floor_add_intCast]
  push_cast
  ring

theorem round2_sub_le (v : ℚ) : round2 v - v ≤ 1 / 200 := by
  unfold round2 roundHalfUp
  have := Int.floor_le (v * 100 + 1 / 2)
  linarith

theorem lt_round2_sub (v : ℚ) : -(1 / 200) < round2 v - v := by
  unfold round2 roundHalfUp
  have := Int.lt_floor_add_one (v * 100 + 1 / 2)
  linarith

/-- To the cent, halves down: what is left of a whole number of cents when an amount is kept back
and rounded. -/
def round2Down (v : ℚ) : ℚ := -round2 (-v)

@[simp] theorem round2Down_zero : round2Down 0 = 0 := by
  simp [round2Down]

theorem round2_sub_round2 (n : ℤ) (v : ℚ) : (n : ℚ) / 100 - round2 (n / 100 - v) = round2Down v := by
  have e : (n : ℚ) / 100 - v = -v + n / 100 := by ring
  rw [e, round2_add_intCast_div, round2Down]
  ring

theorem round2Down_add_intCast_div (v : ℚ) (n : ℤ) :
    round2Down (v + n / 100) = round2Down v + n / 100 := by
  have e : -(v + n / 100) = -v + ((-n : ℤ) : ℚ) / 100 := by
    push_cast
    ring
  unfold round2Down
  rw [e, round2_add_intCast_div]
  push_cast
  ring

theorem round2Down_mono {x y : ℚ} (h : x ≤ y) : round2Down x ≤ round2Down y :=
  neg_le_neg (round2_mono (neg_le_neg h))

theorem round2Down_le_round2 (v : ℚ) : round2Down v ≤ round2 v := by
  have hfloor := Int.floor_le (-v * 100 + 1 / 2)
  have hlt := Int.lt_floor_add_one (-v * 100 + 1 / 2)
  have hfloor' := Int.floor_le (v * 100 + 1 / 2)
  have hlt' := Int.lt_floor_add_one (v * 100 + 1 / 2)
  have hsum : (0 : ℤ) ≤ ⌊v * 100 + 1 / 2⌋ + ⌊-v * 100 + 1 / 2⌋ := by
    have : (-1 : ℚ) < ((⌊v * 100 + 1 / 2⌋ + ⌊-v * 100 + 1 / 2⌋ : ℤ) : ℚ) := by
      push_cast
      linarith
    exact Int.lt_iff_add_one_le.1 (by exact_mod_cast this)
  have hcast : (0 : ℚ) ≤ (⌊v * 100 + 1 / 2⌋ : ℚ) + (⌊-v * 100 + 1 / 2⌋ : ℚ) := by
    exact_mod_cast hsum
  unfold round2Down round2 roundHalfUp
  linarith

/-- A whole number of cents. -/
def IsCents (v : ℚ) : Prop := ∃ n : ℤ, v = (n : ℚ) / 100

theorem IsCents.add {v w : ℚ} (hv : IsCents v) (hw : IsCents w) : IsCents (v + w) := by
  obtain ⟨n, rfl⟩ := hv
  obtain ⟨m, rfl⟩ := hw
  exact ⟨n + m, by push_cast; ring⟩

theorem IsCents.sub {v w : ℚ} (hv : IsCents v) (hw : IsCents w) : IsCents (v - w) := by
  obtain ⟨n, rfl⟩ := hv
  obtain ⟨m, rfl⟩ := hw
  exact ⟨n - m, by push_cast; ring⟩

theorem isCents_zero : IsCents 0 := ⟨0, by norm_num⟩

theorem isCents_round2 (v : ℚ) : IsCents (round2 v) := ⟨_, rfl⟩

theorem IsCents.round2_eq {v : ℚ} (hv : IsCents v) : round2 v = v := by
  obtain ⟨n, rfl⟩ := hv
  exact round2_intCast_div n

/-- A whole number of cents comes out of the rounding. -/
theorem IsCents.round2_add {w : ℚ} (hw : IsCents w) (v : ℚ) : round2 (v + w) = round2 v + w := by
  obtain ⟨n, rfl⟩ := hw
  exact round2_add_intCast_div v n

theorem IsCents.neg {v : ℚ} (hv : IsCents v) : IsCents (-v) := by
  simpa using isCents_zero.sub hv

theorem IsCents.sum {l : List ℚ} (h : ∀ v ∈ l, IsCents v) : IsCents l.sum := by
  induction l with
  | nil => exact isCents_zero
  | cons v l ih =>
    rw [List.sum_cons]
    exact (h v (by simp)).add (ih fun w hw => h w (by simp [hw]))

theorem isCents_iff {v : ℚ} : IsCents v ↔ round2 v = v :=
  ⟨IsCents.round2_eq, fun h => h ▸ isCents_round2 v⟩

instance (v : ℚ) : Decidable (IsCents v) := decidable_of_iff _ isCents_iff.symm

/-- Nothing lies between zero and one cent. -/
theorem IsCents.nonpos_of_lt {v : ℚ} (hv : IsCents v) (h : v < 1 / 100) : v ≤ 0 := by
  obtain ⟨n, rfl⟩ := hv
  have hn : n < 1 := by
    have : (n : ℚ) < 1 := by linarith
    exact_mod_cast this
  have hn' : (n : ℚ) ≤ 0 := by exact_mod_cast Int.lt_add_one_iff.1 hn
  linarith

theorem IsCents.nonneg_of_lt {v : ℚ} (hv : IsCents v) (h : -(1 / 100) < v) : 0 ≤ v := by
  have := hv.neg.nonpos_of_lt (by linarith)
  linarith

/-- The amounts that round to `T`. -/
theorem round2_eq_iff {v T : ℚ} :
    round2 v = T ↔ IsCents T ∧ T - 1 / 200 ≤ v ∧ v < T + 1 / 200 := by
  constructor
  · rintro rfl
    have hle := round2_sub_le v
    have hlt := lt_round2_sub v
    exact ⟨isCents_round2 v, by linarith, by linarith⟩
  · rintro ⟨⟨n, rfl⟩, hle, hlt⟩
    have hn : roundHalfUp (v * 100) = n := by
      unfold roundHalfUp
      rw [Int.floor_eq_iff]
      constructor <;> linarith
    rw [round2, hn]

/-- The amounts that round to `T` once cut off at zero. -/
theorem round2_max_eq_iff {v T : ℚ} :
    round2 (max 0 v) = T ↔ IsCents T ∧ 0 ≤ T ∧ (T = 0 ∨ T - 1 / 200 ≤ v) ∧ v < T + 1 / 200 := by
  rw [round2_eq_iff, le_max_iff, max_lt_iff]
  constructor
  · rintro ⟨hT, hle, hpos, hlt⟩
    have hnonneg := hT.nonneg_of_lt (by linarith)
    refine ⟨hT, hnonneg, ?_, hlt⟩
    rcases hle with hzero | hle
    · exact .inl (le_antisymm (hT.nonpos_of_lt (by linarith)) hnonneg)
    · exact .inr hle
  · rintro ⟨hT, hnonneg, hle, hlt⟩
    refine ⟨hT, ?_, by linarith, hlt⟩
    rcases hle with rfl | hle
    · exact .inl (by norm_num)
    · exact .inr hle

/-! ## Minor units -/

theorem minorUnitFactor_pos (currency : String) : 0 < minorUnitFactor currency := by
  unfold minorUnitFactor
  split <;> norm_num

@[simp] theorem fromMinorUnits_zero (currency : String) : fromMinorUnits 0 currency = 0 := by
  simp [fromMinorUnits]

theorem fromMinorUnits_add (m n : ℤ) (currency : String) :
    fromMinorUnits (m + n) currency = fromMinorUnits m currency + fromMinorUnits n currency := by
  unfold fromMinorUnits
  push_cast
  exact add_div ..

@[simp] theorem toMinorUnits_fromMinorUnits (n : ℤ) (currency : String) :
    toMinorUnits (fromMinorUnits n currency) currency = n := by
  have hpos : (minorUnitFactor currency : ℚ) ≠ 0 := by
    exact_mod_cast (minorUnitFactor_pos currency).ne'
  rw [toMinorUnits, fromMinorUnits, div_mul_cancel₀ _ hpos, roundHalfUp_intCast]

theorem fromMinorUnits_le {m n : ℤ} {currency : String} :
    fromMinorUnits m currency ≤ fromMinorUnits n currency ↔ m ≤ n := by
  have hpos : (0 : ℚ) < minorUnitFactor currency := by exact_mod_cast minorUnitFactor_pos currency
  rw [fromMinorUnits, fromMinorUnits, div_le_div_iff_of_pos_right hpos, Int.cast_le]

/-- A whole number of the minor units of a currency. -/
def IsMinor (currency : String) (v : ℚ) : Prop :=
  fromMinorUnits (toMinorUnits v currency) currency = v

instance (currency : String) (v : ℚ) : Decidable (IsMinor currency v) :=
  inferInstanceAs (Decidable (_ = _))

theorem isMinor_fromMinorUnits (n : ℤ) (currency : String) :
    IsMinor currency (fromMinorUnits n currency) := by
  rw [IsMinor, toMinorUnits_fromMinorUnits]

theorem isMinor_roundMoney (v : ℚ) (currency : String) : IsMinor currency (roundMoney v currency) :=
  isMinor_fromMinorUnits ..

theorem isMinor_zero (currency : String) : IsMinor currency 0 := by
  simpa using isMinor_fromMinorUnits 0 currency

namespace IsMinor

variable {currency : String} {v w : ℚ}

theorem add (hv : IsMinor currency v) (hw : IsMinor currency w) : IsMinor currency (v + w) := by
  rw [← hv, ← hw, ← fromMinorUnits_add]
  exact isMinor_fromMinorUnits ..

theorem sub (hv : IsMinor currency v) (hw : IsMinor currency w) : IsMinor currency (v - w) := by
  have hsub : v - w =
      fromMinorUnits (toMinorUnits v currency - toMinorUnits w currency) currency := by
    have hadd := fromMinorUnits_add (toMinorUnits v currency - toMinorUnits w currency)
      (toMinorUnits w currency) currency
    rw [sub_add_cancel, hv, hw] at hadd
    linarith
  rw [hsub]
  exact isMinor_fromMinorUnits ..

theorem sum {l : List ℚ} (h : ∀ v ∈ l, IsMinor currency v) : IsMinor currency l.sum := by
  induction l with
  | nil => exact isMinor_zero currency
  | cons v l ih =>
    rw [List.sum_cons]
    exact (h v (by simp)).add (ih fun w hw => h w (by simp [hw]))

theorem roundMoney_eq (hv : IsMinor currency v) : roundMoney v currency = v := hv

/-- Every minor unit is a whole number of cents. -/
theorem isCents (hv : IsMinor currency v) : IsCents v := by
  rw [← hv]
  unfold fromMinorUnits minorUnitFactor
  split
  · exact ⟨toMinorUnits v currency * 100, by push_cast; ring⟩
  · exact ⟨toMinorUnits v currency, by norm_num⟩

theorem toMinorUnits_pos (hv : IsMinor currency v) (h : 0 < v) : 0 < toMinorUnits v currency := by
  by_contra hle
  have := (@fromMinorUnits_le _ _ currency).2 (not_lt.1 hle)
  rw [hv, fromMinorUnits_zero] at this
  linarith

end IsMinor

theorem IsCents.cents_div {v : ℚ} (hv : IsCents v) : (cents v : ℚ) / 100 = v := hv.round2_eq

end Barbershop
