import Mathlib.Algebra.Order.Ring.Int
import Mathlib.Tactic.Common

/-!
# Time zones

A zone gives the offset of its local time from UTC at each instant, both in milliseconds. A wall time is
what a clock of the zone shows, written as the instant it would be in UTC. `instant` finds an instant for
a wall time by two guesses of the offset: it is right whenever the wall time is shown at all
(`wall_instant`). As a boundary between the instants that show an earlier time and the others it fails
only near a change of the offset, where `Late` and `Early` say (`late_iff`, `early_iff`).
-/

namespace Lib.LocalTime

/-- Milliseconds of an hour. -/
abbrev hour : ℤ := 3600000

/-- Milliseconds of a day. -/
abbrev day : ℤ := 86400000

/-- A time zone. -/
structure Zone where
  offset : ℤ → ℤ
  /-- Offsets are whole seconds. -/
  seconds : ∀ t, offset t % 1000 = 0
  bound : ∀ t, -(14 * hour) ≤ offset t ∧ offset t ≤ 14 * hour
  /-- In 48 hours the offset changes once at most. -/
  sparse : ∀ t, ∃ c, ∀ u, t ≤ u → u ≤ t + 2 * day →
    offset u = if u < c then offset t else offset (t + 2 * day)

namespace Zone

/-- The zone with one offset at all instants. -/
def constant (offset : ℤ) (hseconds : offset % 1000 = 0)
    (hbound : -(14 * hour) ≤ offset ∧ offset ≤ 14 * hour) : Zone where
  offset _ := offset
  seconds _ := hseconds
  bound _ := hbound
  sparse t := ⟨t, fun _ _ _ => (ite_self offset).symm⟩

/-- The zone whose offset changes once, at `c`. -/
def changing (c a b : ℤ) (hseconds : a % 1000 = 0 ∧ b % 1000 = 0)
    (ha : -(14 * hour) ≤ a ∧ a ≤ 14 * hour) (hb : -(14 * hour) ≤ b ∧ b ≤ 14 * hour) : Zone where
  offset t := if t < c then a else b
  seconds t := by
    split
    · exact hseconds.1
    · exact hseconds.2
  bound t := by
    split
    · exact ha
    · exact hb
  sparse t := by
    refine ⟨c, fun u hu hu' => ?_⟩
    by_cases h : u < c
    · rw [if_pos h, if_pos h, if_pos (lt_of_le_of_lt hu h)]
    · rw [if_neg h, if_neg h, if_neg fun h' => h (lt_of_le_of_lt hu' h')]

variable (z : Zone)

/-- What the zone's clocks show. -/
def wall (t : ℤ) : ℤ := t + z.offset t

/-- The instant of a wall time: a guess with the offset in force when UTC shows it, and a second one
with the offset at the first. -/
def instant (w : ℤ) : ℤ := w - z.offset (w - z.offset w)

/-- The day the zone's clocks show. -/
def localDay (t : ℤ) : ℤ := z.wall t / day

/-- The offset never jumps by more than `d`. -/
def StepsWithin (d : ℤ) : Prop :=
  ∀ t, z.offset (t - 1) - d ≤ z.offset t ∧ z.offset t ≤ z.offset (t - 1) + d

theorem constant_stepsWithin {offset d : ℤ} (hseconds hbound) (hd : 0 ≤ d) :
    (constant offset hseconds hbound).StepsWithin d := by
  intro t
  unfold constant
  dsimp only
  omega

theorem changing_stepsWithin {c a b d : ℤ} (hseconds ha hb) (hlow : a - d ≤ b) (hhigh : b ≤ a + d)
    (hd : 0 ≤ d) : (changing c a b hseconds ha hb).StepsWithin d := by
  intro t
  unfold changing
  dsimp only
  split <;> split <;> omega

theorem bounds (t : ℤ) : -50400000 ≤ z.offset t ∧ z.offset t ≤ 50400000 := z.bound t

/-- Around a wall time the offset is one, or it changes once from one to another. -/
theorem around (w : ℤ) :
    (∃ a, ∀ u, w - 86400000 ≤ u → u ≤ w + 86400000 → z.offset u = a) ∨
    ∃ c, z.offset (c - 1) ≠ z.offset c ∧ w - 86400000 < c ∧ c ≤ w + 86400000 ∧
      ∀ u, w - 86400000 ≤ u → u ≤ w + 86400000 →
        z.offset u = if u < c then z.offset (c - 1) else z.offset c := by
  obtain ⟨c, hc⟩ := z.sparse (w - 86400000)
  have hc : ∀ u, w - 86400000 ≤ u → u ≤ w + 86400000 → z.offset u =
      if u < c then z.offset (w - 86400000) else z.offset (w + 86400000) := by
    intro u hu hu'
    have hend : w - 86400000 + 2 * day = w + 86400000 := by
      unfold day
      omega
    rw [hc u hu (by rwa [hend]), hend]
  by_cases hlow : c ≤ w - 86400000
  · refine .inl ⟨z.offset (w + 86400000), fun u hu hu' => ?_⟩
    rw [hc u hu hu', if_neg (by omega)]
  by_cases hhigh : w + 86400000 < c
  · refine .inl ⟨z.offset (w - 86400000), fun u hu hu' => ?_⟩
    rw [hc u hu hu', if_pos (by omega)]
  have hbefore := hc (c - 1) (by omega) (by omega)
  have hafter := hc c (by omega) (by omega)
  rw [if_pos (by omega)] at hbefore
  rw [if_neg (by omega)] at hafter
  by_cases hsame : z.offset (c - 1) = z.offset c
  · refine .inl ⟨z.offset c, fun u hu hu' => ?_⟩
    rw [hc u hu hu', ← hbefore, ← hafter, hsame, ite_self]
  · refine .inr ⟨c, hsame, by omega, by omega, fun u hu hu' => ?_⟩
    rw [hc u hu hu', hbefore, hafter]

/-- A change within a day of a wall time is the only one there. -/
theorem around_change {w c : ℤ} (hc : z.offset (c - 1) ≠ z.offset c) (hlow : w - 86400000 < c)
    (hhigh : c ≤ w + 86400000) : ∀ u, w - 86400000 ≤ u → u ≤ w + 86400000 →
      z.offset u = if u < c then z.offset (c - 1) else z.offset c := by
  rcases z.around w with ⟨a, ha⟩ | ⟨c', hc', hlov, hhigh', h⟩
  · exact absurd ((ha _ (by omega) (by omega)).trans (ha _ (by omega) (by omega)).symm) hc
  · have hbefore := h (c - 1) (by omega) (by omega)
    have hafter := h c (by omega) (by omega)
    obtain rfl : c = c' := by
      split at hbefore <;> split at hafter
      · exact absurd (hbefore.trans hafter.symm) hc
      · omega
      · omega
      · exact absurd (hbefore.trans hafter.symm) hc
    exact h

theorem instant_near (w : ℤ) : w - 50400000 ≤ z.instant w ∧ z.instant w ≤ w + 50400000 := by
  have := z.bounds (w - z.offset w)
  unfold instant
  omega

theorem wall_near (t : ℤ) : t - 50400000 ≤ z.wall t ∧ z.wall t ≤ t + 50400000 := by
  have := z.bounds t
  unfold wall
  omega

/-- Where the offset is one around a wall time, its instant is exact. -/
theorem instant_of_constant {z : Zone} {w a : ℤ}
    (h : ∀ u, w - 86400000 ≤ u → u ≤ w + 86400000 → z.offset u = a) : z.instant w = w - a := by
  have := z.bounds w
  unfold instant
  rw [h _ (by omega) (by omega)]

/-- The two guesses beside a change at `c`. -/
theorem instant_of_change {z : Zone} {w c a b : ℤ}
    (h : ∀ u, w - 86400000 ≤ u → u ≤ w + 86400000 → z.offset u = if u < c then a else b) :
    z.instant w = w - if w < c + (if w < c then a else b) then a else b := by
  have hw := z.bounds w
  unfold instant
  rw [h (w - z.offset w) (by omega) (by omega), h w (by omega) (by omega)]
  congr 1
  exact if_congr (by omega) rfl rfl

/-- A wall time that the zone shows is shown at its instant. -/
theorem wall_instant (t : ℤ) : z.wall (z.instant (z.wall t)) = z.wall t := by
  generalize hw : z.wall t = w
  have ht := z.wall_near t
  have hz := z.instant_near w
  rcases z.around w with ⟨a, h⟩ | ⟨c, -, -, -, h⟩
  · have hinstant := instant_of_constant h
    have hthere := h (z.instant w) (by omega) (by omega)
    unfold wall
    omega
  · have hinstant := instant_of_change h
    have hthere := h (z.instant w) (by omega) (by omega)
    have hshown := h t (by omega) (by omega)
    unfold wall at hw ⊢
    split at hshown <;> split at hinstant <;> split at hthere <;> omega

/-- The instant of a wall time that is skipped shows one as much later or earlier as the clocks jump. -/
theorem wall_instant_of_skipped {w c : ℤ} (hfrom : c + z.offset (c - 1) ≤ w) (hto : w < c + z.offset c) :
    z.wall (z.instant w) =
      if c ≤ w then w + (z.offset c - z.offset (c - 1)) else w - (z.offset c - z.offset (c - 1)) := by
  have hbefore := z.bounds (c - 1)
  have hafter := z.bounds c
  have h := z.around_change (w := w) (c := c) (by omega) (by omega) (by omega)
  have hinstant := instant_of_change h
  have hnear := z.instant_near w
  have hthere := h (z.instant w) (by omega) (by omega)
  unfold wall
  by_cases hc : w < c
  · rw [if_pos hc, if_neg (by omega)] at hinstant
    rw [if_pos (by omega)] at hthere
    rw [if_neg (by omega)]
    omega
  · rw [if_neg hc, if_pos (by omega)] at hinstant
    rw [if_neg (by omega)] at hthere
    rw [if_pos (by omega)]
    omega

/-- A wall time is shown at its instant or skipped. -/
theorem shown_or_skipped (w : ℤ) : z.wall (z.instant w) = w ∨
    ∃ c, c + z.offset (c - 1) ≤ w ∧ w < c + z.offset c := by
  have hnear := z.instant_near w
  rcases z.around w with ⟨a, h⟩ | ⟨c, -, -, -, h⟩
  · have hinstant := instant_of_constant h
    have hthere := h (z.instant w) (by omega) (by omega)
    left
    unfold wall
    omega
  · have hinstant := instant_of_change h
    have hthere := h (z.instant w) (by omega) (by omega)
    by_cases hshown : z.wall (z.instant w) = w
    · exact .inl hshown
    · refine .inr ⟨c, ?_⟩
      unfold wall at hshown
      split at hinstant <;> split at hthere <;> omega

/-! ## The instant of a wall time as a boundary -/

/-- The instant of `w` comes after others that show `w` or later. That is so after a change at `c` for a
wall time shown twice, and for one skipped that is not the first to be. -/
def Late (w : ℤ) : Prop := ∃ c ≤ w,
  (c + z.offset c ≤ w ∧ w < c + z.offset (c - 1)) ∨ (c + z.offset (c - 1) < w ∧ w < c + z.offset c)

/-- The instant of `w` comes before others that show an earlier time. That is so before a change at `c`
for a wall time skipped, and for one shown twice that is not the first to be. -/
def Early (w : ℤ) : Prop := ∃ c, w < c ∧
  ((c + z.offset (c - 1) ≤ w ∧ w < c + z.offset c) ∨ (c + z.offset c < w ∧ w < c + z.offset (c - 1)))

variable {z} {w d : ℤ}

theorem Late.exists (h : z.Late w) : ∃ t < z.instant w, w ≤ z.wall t := by
  obtain ⟨c, hc, hchange⟩ := h
  have hne : z.offset (c - 1) ≠ z.offset c := by omega
  have hbefore := z.bounds (c - 1)
  have hafter := z.bounds c
  have h := z.around_change hne (w := w) (by omega) (by omega)
  have hinstant := instant_of_change h
  rw [if_neg (not_lt.2 hc)] at hinstant
  rcases hchange with hback | hforth
  · rw [if_neg (by omega)] at hinstant
    refine ⟨w - z.offset (c - 1), by omega, ?_⟩
    have ht := h (w - z.offset (c - 1)) (by omega) (by omega)
    rw [if_pos (by omega)] at ht
    unfold wall
    omega
  · rw [if_pos (by omega)] at hinstant
    refine ⟨c, by omega, ?_⟩
    unfold wall
    omega

theorem Late.of_exists {t : ℤ} (ht : t < z.instant w) (hwall : w ≤ z.wall t) : z.Late w := by
  have hz := z.instant_near w
  have hnear := z.wall_near t
  rcases z.around w with ⟨a, h⟩ | ⟨c, -, -, -, h⟩
  · have hinstant := instant_of_constant h
    have hshown := h t (by omega) (by omega)
    unfold wall at hwall
    omega
  · have hinstant := instant_of_change h
    have hshown := h t (by omega) (by omega)
    unfold wall at hwall
    refine ⟨c, ?_⟩
    split at hshown <;> split at hinstant <;> omega

theorem Early.exists (h : z.Early w) : ∃ t, z.instant w ≤ t ∧ z.wall t < w := by
  obtain ⟨c, hc, hchange⟩ := h
  have hne : z.offset (c - 1) ≠ z.offset c := by omega
  have hbefore := z.bounds (c - 1)
  have hafter := z.bounds c
  have h := z.around_change hne (w := w) (by omega) (by omega)
  have hinstant := instant_of_change h
  rw [if_pos hc] at hinstant
  rcases hchange with hforth | hback
  · rw [if_neg (by omega)] at hinstant
    refine ⟨c - 1, by omega, ?_⟩
    unfold wall
    omega
  · rw [if_pos (by omega)] at hinstant
    refine ⟨w - 1 - z.offset c, by omega, ?_⟩
    have ht := h (w - 1 - z.offset c) (by omega) (by omega)
    rw [if_neg (by omega)] at ht
    unfold wall
    omega

theorem Early.of_exists {t : ℤ} (ht : z.instant w ≤ t) (hwall : z.wall t < w) : z.Early w := by
  have hz := z.instant_near w
  have hnear := z.wall_near t
  rcases z.around w with ⟨a, h⟩ | ⟨c, -, -, -, h⟩
  · have hinstant := instant_of_constant h
    have hshown := h t (by omega) (by omega)
    unfold wall at hwall
    omega
  · have hinstant := instant_of_change h
    have hshown := h t (by omega) (by omega)
    unfold wall at hwall
    refine ⟨c, ?_⟩
    split at hshown <;> split at hinstant <;> omega

theorem not_late_iff : ¬ z.Late w ↔ ∀ t, w ≤ z.wall t → z.instant w ≤ t := by
  constructor
  · intro h t hwall
    by_contra ht
    exact h (.of_exists (not_le.1 ht) hwall)
  · intro h hlate
    obtain ⟨t, ht, hwall⟩ := hlate.exists
    exact absurd (h t hwall) (not_le.2 ht)

theorem not_early_iff : ¬ z.Early w ↔ ∀ t, z.wall t < w → t < z.instant w := by
  constructor
  · intro h t hwall
    by_contra ht
    exact h (.of_exists (not_lt.1 ht) hwall)
  · intro h hearly
    obtain ⟨t, ht, hwall⟩ := hearly.exists
    exact absurd (h t hwall) (not_lt.2 ht)

/-! ## Boundaries under bounded jumps -/

section Steps

variable (hd : z.StepsWithin d) {t v : ℤ}
include hd

theorem wall_lt_of_lt_instant (ht : t < z.instant w) : z.wall t < w + d := by
  have hz := z.instant_near w
  by_cases hfar : t < w - 86400000
  · have hnear := z.wall_near t
    have hstep := hd w
    omega
  rcases z.around w with ⟨a, h⟩ | ⟨c, -, -, -, h⟩
  · have hinstant := instant_of_constant h
    have hshown := h t (by omega) (by omega)
    have hstep := hd w
    unfold wall
    omega
  · have hinstant := instant_of_change h
    have hshown := h t (by omega) (by omega)
    have hstep := hd c
    unfold wall
    split at hshown <;> split at hinstant <;> omega

theorem le_wall_of_instant_le (ht : z.instant w ≤ t) : w - d ≤ z.wall t := by
  have hz := z.instant_near w
  by_cases hfar : w + 86400000 < t
  · have hnear := z.wall_near t
    have hstep := hd w
    omega
  rcases z.around w with ⟨a, h⟩ | ⟨c, -, -, -, h⟩
  · have hinstant := instant_of_constant h
    have hshown := h t (by omega) (by omega)
    have hstep := hd w
    unfold wall
    omega
  · have hinstant := instant_of_change h
    have hshown := h t (by omega) (by omega)
    have hstep := hd c
    unfold wall
    split at hshown <;> split at hinstant <;> omega

/-- Offsets of a day do not differ by more than a jump. -/
theorem offset_near (hlow : w - 86400000 ≤ t) (hhigh : t ≤ w + 86400000) :
    z.offset w - d ≤ z.offset t ∧ z.offset t ≤ z.offset w + d := by
  rcases z.around w with ⟨a, h⟩ | ⟨c, -, -, -, h⟩
  · have hthere := h t hlow hhigh
    have hhere := h w (by omega) (by omega)
    have hstep := hd w
    omega
  · have hthere := h t hlow hhigh
    have hhere := h w (by omega) (by omega)
    have hstep := hd c
    split at hthere <;> split at hhere <;> omega

/-- The instants that show a time from `w` to `v` lie between the two boundaries exactly when the first
is not late and the second not early. -/
theorem between_of_shown_iff (hwv : w + d ≤ v) :
    (∀ t, w ≤ z.wall t → z.wall t < v → z.instant w ≤ t ∧ t < z.instant v) ↔
      ¬ z.Late w ∧ ¬ z.Early v := by
  constructor
  · intro h
    refine ⟨fun hlate => ?_, fun hearly => ?_⟩
    · obtain ⟨t, ht, hwall⟩ := hlate.exists
      have := wall_lt_of_lt_instant hd ht
      exact absurd (h t hwall (by omega)).1 (not_le.2 ht)
    · obtain ⟨t, ht, hwall⟩ := hearly.exists
      have := le_wall_of_instant_le hd ht
      exact absurd (h t (by omega) hwall).2 (not_lt.2 ht)
  · rintro ⟨hlate, hearly⟩ t hwall hwall'
    exact ⟨not_late_iff.1 hlate t hwall, not_early_iff.1 hearly t hwall'⟩

/-- The two boundaries hold exactly the instants that show a time from `w` to `v` when each is neither
late nor early. -/
theorem between_iff_shown_iff (hwv : w + d ≤ v) :
    (∀ t, (z.instant w ≤ t ∧ t < z.instant v) ↔ w ≤ z.wall t ∧ z.wall t < v) ↔
      (¬ z.Late w ∧ ¬ z.Early w) ∧ ¬ z.Late v ∧ ¬ z.Early v := by
  constructor
  · intro h
    obtain ⟨hlate, hearly⟩ := (between_of_shown_iff hd hwv).1
      fun t hwall hwall' => (h t).2 ⟨hwall, hwall'⟩
    refine ⟨⟨hlate, fun hearly => ?_⟩, fun hlate => ?_, hearly⟩
    · obtain ⟨t, ht, hwall⟩ := hearly.exists
      have hbefore : t < z.instant v := by
        by_contra hlt
        have := le_wall_of_instant_le hd (not_lt.1 hlt)
        omega
      exact absurd ((h t).1 ⟨ht, hbefore⟩).1 (not_le.2 hwall)
    · obtain ⟨t, ht, hwall⟩ := hlate.exists
      have hfrom : z.instant w ≤ t := by
        by_contra hlt
        have := wall_lt_of_lt_instant hd (not_le.1 hlt)
        omega
      exact absurd ((h t).1 ⟨hfrom, ht⟩).2 (not_lt.2 hwall)
  · rintro ⟨⟨hlate, hearly⟩, hlate', hearly'⟩ t
    constructor
    · rintro ⟨ht, ht'⟩
      refine ⟨not_lt.1 fun hwall => ?_, not_le.1 fun hwall => ?_⟩
      · exact absurd (not_early_iff.1 hearly t hwall) (not_lt.2 ht)
      · exact absurd (not_late_iff.1 hlate' t hwall) (not_le.2 ht')
    · rintro ⟨hwall, hwall'⟩
      exact ⟨not_late_iff.1 hlate t hwall, not_early_iff.1 hearly' t hwall'⟩

/-- Every time is shown, give or take a jump of the offset. -/
theorem wall_instant_near (w : ℤ) :
    w - d ≤ z.wall (z.instant w) ∧ z.wall (z.instant w) ≤ w + d := by
  have hz := z.instant_near w
  rcases z.around w with ⟨a, h⟩ | ⟨c, -, -, -, h⟩
  · have hinstant := instant_of_constant h
    have hthere := h (z.instant w) (by omega) (by omega)
    have hstep := hd w
    unfold wall
    omega
  · have hinstant := instant_of_change h
    have hthere := h (z.instant w) (by omega) (by omega)
    have hstep := hd c
    unfold wall
    split at hinstant <;> split at hthere <;> omega

end Steps

/-! ## Days of one offset -/

variable (z) in
/-- A jump of more than `e` over a wall time, with clocks behind UTC, or up to it. -/
def CutShort (e w : ℤ) : Prop := ∃ c, z.offset (c - 1) + e < z.offset c ∧
  c + z.offset (c - 1) ≤ w ∧ w ≤ c + z.offset c ∧ (w < c ∨ w = c + z.offset c)

section OneOffset

variable {o e : ℤ}

variable (hd : z.StepsWithin d) (hday : d < 86400000)
include hd hday

/-- Before a day of one offset ends, its instants come before the end. -/
theorem le_instant_iff (he : 0 ≤ e)
    (ho : ∀ t, w - 86400000 ≤ z.wall t → z.wall t < w → z.offset t = o) :
    w - e - o ≤ z.instant w ↔ ¬ z.CutShort e w := by
  constructor
  · rintro hle ⟨c, hjump, hfrom, hto, hside⟩
    have hbefore := z.bounds (c - 1)
    have hafter := z.bounds c
    have hstep := hd c
    have h := z.around_change (w := w) (c := c) (by omega) (by omega) (by omega)
    have hinstant := instant_of_change h
    have hlast := ho (c - 1) (by unfold wall; omega) (by unfold wall; omega)
    split at hinstant <;> split at hinstant <;> omega
  · intro hcut
    rcases z.around w with ⟨a, h⟩ | ⟨c, hne, -, -, h⟩
    · have hinstant := instant_of_constant h
      have hbound := z.bounds w
      have hw := h w (by omega) (by omega)
      have hthere := h (w - 1 - a) (by omega) (by omega)
      have hlast := ho (w - 1 - a) (by unfold wall; omega) (by unfold wall; omega)
      omega
    · have hinstant := instant_of_change h
      have hbefore := z.bounds (c - 1)
      have hafter := z.bounds c
      have hstep := hd c
      have hcut : ¬ (z.offset (c - 1) + e < z.offset c ∧ c + z.offset (c - 1) ≤ w ∧
          w ≤ c + z.offset c ∧ (w < c ∨ w = c + z.offset c)) := fun h => hcut ⟨c, h⟩
      -- the last instant of the day, by the offset before the change or by the one after it
      have hlast : w - 1 - z.offset (c - 1) < c → z.offset (c - 1) = o := by
        intro hlt
        have hthere := h (w - 1 - z.offset (c - 1)) (by omega) (by omega)
        rw [if_pos hlt] at hthere
        rw [← hthere]
        exact ho _ (by unfold wall; omega) (by unfold wall; omega)
      have hlast' : c ≤ w - 1 - z.offset c → z.offset c = o := by
        intro hle
        have hthere := h (w - 1 - z.offset c) (by omega) (by omega)
        rw [if_neg (by omega)] at hthere
        rw [← hthere]
        exact ho _ (by unfold wall; omega) (by unfold wall; omega)
      have hskipped : c + z.offset (c - 1) ≤ w → w ≤ c + z.offset c → z.offset (c - 1) = o :=
        fun _ _ => ho (c - 1) (by unfold wall; omega) (by unfold wall; omega)
      split at hinstant <;> split at hinstant <;> omega

end OneOffset

end Zone

end Lib.LocalTime
