import Barbershop.Plan.Checkout

/-!
# Changes of plans that run alone

`changePlan` from its first read to its last write, with nothing in between.
-/

namespace Barbershop

open Lib

namespace ChangePlan

/-- How many steps a call still has at most, this one aside. -/
def rank : ChangePlan → ℕ
  | reading .. => 4
  | charging _ => 3
  | recording _ => 2
  | creating _ => 1
  | keeping _ | scheduling .. | switching .. => 0

variable {cat : PlanCatalog} {k : PlanChance}

theorem plan_rank {id : ℕ} {sub : PlatformSubscription} {newPlanId : ℕ} {c : ChangePlan}
    (h : plan cat k id sub newPlanId = some c) : c.rank < 4 := by
  unfold plan at h
  dsimp only at h
  repeat' split at h
  all_goals first
    | obtain ⟨_, -, rfl⟩ := Option.map_eq_some_iff.1 h
      simp [rank]
    | cases h
      try simp [rank]

theorem step_rank {c c' : ChangePlan} {s s' : Plans} (h : step cat k c s = (s', .next c')) :
    c'.rank < c.rank := by
  cases c with
  | reading userId newPlanId =>
    simp only [step] at h
    split at h
    · cases h
    · next hplan =>
      obtain ⟨-, hnext⟩ := Prod.mk.inj h
      obtain rfl := Progress.next.inj hnext
      obtain ⟨row, -, hplan⟩ := Option.bind_eq_some_iff.1 hplan
      exact plan_rank hplan
  | charging u =>
    simp only [step] at h
    split at h
    · cases h
      simp [rank]
    · split at h
      · cases h
        exact Nat.lt_succ_self _
      · cases h
  | recording u =>
    simp only [step] at h
    split at h
    · cases h
      simp [rank]
    · cases h
      exact Nat.lt_succ_self _
  | creating u =>
    cases h
    simp [rank]
  | _ => cases h

end ChangePlan

/-- `changePlan`, alone. -/
def changePlan (cat : PlanCatalog) (k : PlanChance) (userId newPlanId : ℕ) (s : Plans) : Plans :=
  Progress.toEnd (ChangePlan.step cat k) 5 (.reading userId newPlanId) s

/-- Five steps are all that it takes. -/
theorem changePlan_eq_toEnd (cat : PlanCatalog) (k : PlanChance) (userId newPlanId : ℕ) (s : Plans)
    {n : ℕ} (hn : 4 < n) : changePlan cat k userId newPlanId s =
      Progress.toEnd (ChangePlan.step cat k) n (.reading userId newPlanId) s :=
  Progress.toEnd_eq _ ChangePlan.step_rank (Nat.lt_succ_self 4) hn

/-- The statuses of subscriptions are not changed. -/
theorem changePlan_status {cat : PlanCatalog} {k : PlanChance} {userId newPlanId : ℕ} {s : Plans}
    (id : ℕ) : ((changePlan cat k userId newPlanId s).subscriptions.get? id).map (·.status) =
      (s.subscriptions.get? id).map (·.status) := by
  have hmodify : ∀ {t : Table PlatformSubscription} (key : ℕ)
      (f : PlatformSubscription → PlatformSubscription), (∀ sub, (f sub).status = sub.status) →
        ((t.modify key f).get? id).map (·.status) = (t.get? id).map (·.status) := by
    intro t key f hf
    rw [Table.get?_modify]
    split
    · rw [Option.map_map]
      exact congrArg (fun g => Option.map g _) (funext hf)
    · rfl
  refine Progress.toEnd_inv _ (I := fun s' : Plans =>
    (s'.subscriptions.get? id).map (·.status) = (s.subscriptions.get? id).map (·.status)) ?_ rfl
  intro c s' hs
  cases c with
  | reading =>
    simp only [ChangePlan.step]
    split
    · exact hs
    · exact hs
  | keeping key => exact (hmodify key ChangePlan.keep fun _ => rfl).trans hs
  | scheduling key planId => exact (hmodify key (ChangePlan.schedule planId) fun _ => rfl).trans hs
  | charging =>
    simp only [ChangePlan.step]
    split
    · exact hs
    · split
      · exact hs
      · exact hs
  | recording =>
    simp only [ChangePlan.step]
    split
    · exact hs
    · exact hs
  | creating => exact hs
  | switching key planId periodEnd =>
    exact (hmodify key (ChangePlan.switch planId periodEnd) fun _ => rfl).trans hs

end Barbershop
