import Barbershop.Club.Uses
import Barbershop.Lib.Machine
import Barbershop.Service

/-!
# The club counter and its rows

One request at a time, with each cycle later than the one before. `ClubCounted` is the invariant:
the counter of every membership is the number of its rows in its cycle, no row is of a later cycle,
and a sale with a club session has one row. Renewing, using and undoing at the desk keep it. Deleting
a sale keeps it when the session goes back exactly if its row is of the current cycle
(`GivesBackItsOwn`); the source goes by the instant of the sale instead.
-/

namespace Barbershop

open Lib

inductive ClubStep where
  | subscribe (clientAccountId : ℕ) (plan : ClientSubscriptionPlan)
      (stripeSubscription : StripeSubscription)
  /-- A new cycle, later than the last. -/
  | renew (subscriptionId : ℕ) (start : ℤ)
  | redeem (ctx : Caller) (subscriptionId : ℕ)
  | undo (ctx : Caller) (useId : ℕ)
  | createSale (ctx : Caller) (data : SaleInput)
  | deleteSale (ctx : Caller) (saleId : ℕ)
  /-- Anything else that writes no sale, membership or use. -/
  | elsewhere (other : Db)

def ClubStep.exec (cat : Catalog) (a : ClubStep) (db : Db) : Result Db :=
  match a with
  | .subscribe clientAccountId plan stripeSubscription =>
    return { db with
      subscriptions := db.subscriptions.insert
        (subscribeToPlan clientAccountId plan stripeSubscription) }
  | .renew id start => do
    let subscriptions ← orRefuse (db.subscriptions.tryModify id
      (fun s => s.currentPeriodStart.all fun c => decide (c < start)) (·.renew start))
      (.notFound "")
    return { db with subscriptions := subscriptions }
  | .redeem ctx id => redeemClientSubscriptionSession ctx id db db
  | .undo ctx useId => undoClientSubscriptionUse ctx useId db db
  | .createSale ctx data => Barbershop.createSale cat ctx data (fun _ => db) db
  | .deleteSale ctx saleId => Barbershop.deleteSale ctx saleId (fun _ => db) db
  | .elsewhere other => return { other with
      sales := db.sales
      subscriptions := db.subscriptions
      subscriptionUses := db.subscriptionUses }

def clubCounter (cat : Catalog) : Machine Db ClubStep where
  step db a := (a.exec cat db).toOption

/-- The deletion of a sale gives its session back exactly if the session is of the current cycle. -/
def GivesBackItsOwn (db : Db) : ClubStep → Prop
  | .deleteSale _ saleId => ∀ sale ∈ db.sales.get? saleId, ∀ k ∈ sale.clientSubscriptionId,
      ∀ s ∈ db.subscriptions.get? k, sale.restores s = db.subscriptionUses.any fun _ u =>
        u.activeIn k s.currentPeriodStart && u.saleId == some saleId
  | _ => True

instance (db : Db) (a : ClubStep) : Decidable (GivesBackItsOwn db a) := by
  cases a <;> unfold GivesBackItsOwn <;> infer_instance

/-! ## The invariant -/

/-- The one row of the club session of a sale. -/
structure SoldUse (uses : Table ClientSubscriptionUse) (x k i : ℕ) (u : ClientSubscriptionUse) :
    Prop where
  row : uses.get? i = some u
  subscription : u.clientSubscriptionId = k
  sale : u.saleId = some x
  active : u.undoneAt = none
  unique : ∀ j v, uses.get? j = some v → v.saleId = some x → j = i

structure ClubCounted (db : Db) : Prop where
  counted : ∀ k s, db.subscriptions.get? k = some s →
    s.usedThisCycle = usedIn db.subscriptionUses k s.currentPeriodStart
  older : ∀ i u s, db.subscriptionUses.get? i = some u →
    db.subscriptions.get? u.clientSubscriptionId = some s →
    ∀ p ∈ u.periodStart, ∃ c ∈ s.currentPeriodStart, p ≤ c
  known : ∀ i u, db.subscriptionUses.get? i = some u →
    u.clientSubscriptionId < db.subscriptions.next ∧ ∀ x ∈ u.saleId, x < db.sales.next
  sold : ∀ x sale k, db.sales.get? x = some sale → sale.clientSubscriptionId = some k →
    ∃ i u, SoldUse db.subscriptionUses x k i u

/-- A platform before its first membership and sale. -/
def Db.beforeClub (db : Db) : Db :=
  { db with sales := .empty, subscriptions := .empty, subscriptionUses := .empty }

theorem clubCounted_beforeClub (db : Db) : ClubCounted db.beforeClub where
  counted _ _ h := by cases h
  older _ _ _ h := by cases h
  known _ _ h := by cases h
  sold _ _ _ h := by cases h

/-- A membership without rows in a cycle. -/
theorem usedIn_eq_zero_of {uses : Table ClientSubscriptionUse} {k : ℕ} {p : Option ℤ}
    (h : ∀ i u, uses.get? i = some u → u.clientSubscriptionId = k → u.periodStart ≠ p) :
    usedIn uses k p = 0 := by
  refine Table.sum_eq_zero fun i u hi => if_neg ?_
  rw [ClientSubscriptionUse.activeIn_iff]
  rintro ⟨hk, -, hp⟩
  exact h i u hi hk hp

section Steps

variable {cat : Catalog} {ctx : Caller} {db db' : Db}

namespace ClubCounted

theorem subscribe (h : ClubCounted db) (clientAccountId : ℕ) (plan : ClientSubscriptionPlan)
    (stripeSubscription : StripeSubscription) :
    ClubCounted { db with
      subscriptions := db.subscriptions.insert
        (subscribeToPlan clientAccountId plan stripeSubscription) } where
  counted k s hk := by
    dsimp only at hk
    rw [Table.get?_insert] at hk
    split at hk
    · next hnew =>
      obtain rfl := Option.some.inj hk
      refine (usedIn_eq_zero_of fun i u hi hu => ?_).symm
      exact absurd (hu.trans hnew) (Nat.ne_of_lt (h.known i u hi).1)
    · exact h.counted k s hk
  older i u s hi hs := by
    dsimp only at hs
    rw [Table.get?_insert, if_neg (Nat.ne_of_lt (h.known i u hi).1)] at hs
    exact h.older i u s hi hs
  known i u hi := ⟨Nat.lt_succ_of_lt (h.known i u hi).1, (h.known i u hi).2⟩
  sold := h.sold

theorem renew (h : ClubCounted db) {id : ℕ} {s : ClientSubscription} {start : ℤ}
    (hid : db.subscriptions.get? id = some s) (hlater : ∀ c ∈ s.currentPeriodStart, c < start) :
    ClubCounted { db with subscriptions := db.subscriptions.modify id (·.renew start) } where
  counted k t hk := by
    dsimp only at hk
    rw [Table.get?_modify] at hk
    split at hk
    · next hkid =>
      subst hkid
      rw [hid] at hk
      obtain rfl := Option.some.inj hk
      refine (usedIn_eq_zero_of fun i u hi hu hp => ?_).symm
      obtain ⟨c, hc, hle⟩ := h.older i u s hi (hu ▸ hid) start hp
      exact absurd hle (not_le.2 (hlater c hc))
    · exact h.counted k t hk
  older i u t hi ht := by
    dsimp only at ht
    rw [Table.get?_modify] at ht
    split at ht
    · next hu =>
      rw [hu, hid] at ht
      obtain rfl := Option.some.inj ht
      intro p hp
      obtain ⟨c, hc, hle⟩ := h.older i u s hi (hu ▸ hid) p hp
      exact ⟨start, rfl, hle.trans (hlater c hc).le⟩
    · exact h.older i u t hi ht
  known := h.known
  sold := h.sold

/-- A session used: at the desk, or by a new sale. -/
theorem redeem (h : ClubCounted db) {id : ℕ} {limit : Option ℕ} {userId : ℕ} {saleId : Option ℕ}
    {club : Table ClientSubscription × Table ClientSubscriptionUse}
    (hredeem : redeemSession id limit userId saleId db.subscriptions db.subscriptionUses = .ok club)
    {sales : Table Sale} (hnext : db.sales.next ≤ sales.next)
    (hsale : ∀ x ∈ saleId, db.sales.next ≤ x ∧ x < sales.next)
    (hsold : ∀ x sale k, sales.get? x = some sale → sale.clientSubscriptionId = some k →
      db.sales.get? x = some sale ∨ (saleId = some x ∧ k = id)) :
    ClubCounted { db with
      sales := sales
      subscriptions := club.1
      subscriptionUses := club.2 } := by
  obtain ⟨s, u, hs, -, hu, rfl⟩ := redeemSession_ok hredeem
  constructor
  · intro k t hk
    dsimp only at hk ⊢
    rw [usedIn_insert hu]
    rw [Table.get?_modify] at hk
    split at hk
    · next hkid =>
      subst hkid
      rw [hs] at hk
      obtain rfl := Option.some.inj hk
      rw [if_pos ⟨rfl, rfl⟩]
      exact congrArg (· + 1) (h.counted k s hs)
    · next hkid =>
      rw [if_neg fun e => hkid e.1.symm, add_zero]
      exact h.counted k t hk
  · intro i v t hi ht p hp
    dsimp only at hi ht
    have hstart : ∃ t', db.subscriptions.get? v.clientSubscriptionId = some t' ∧
        t'.currentPeriodStart = t.currentPeriodStart := by
      rw [Table.get?_modify] at ht
      split at ht
      · obtain ⟨t', ht', rfl⟩ := Option.map_eq_some_iff.1 ht
        exact ⟨t', ht', rfl⟩
      · exact ⟨t, ht, rfl⟩
    obtain ⟨t', ht', hsame⟩ := hstart
    rw [Table.get?_insert] at hi
    split at hi
    · obtain rfl := Option.some.inj hi
      rw [hu.subscription, hs] at ht'
      obtain rfl := Option.some.inj ht'
      exact ⟨p, hsame ▸ hu.period ▸ hp, le_rfl⟩
    · exact hsame ▸ h.older i v t' hi ht' p hp
  · intro i v hi
    dsimp only at hi
    rw [Table.get?_insert] at hi
    split at hi
    · obtain rfl := Option.some.inj hi
      rw [hu.subscription, hu.sale]
      have hlt : id < db.subscriptions.next := Table.lt_next_of_get? hs
      exact ⟨hlt, fun x hx => (hsale x hx).2⟩
    · obtain ⟨hlt, hx⟩ := h.known i v hi
      exact ⟨hlt, fun x hm => (hx x hm).trans_le hnext⟩
  · intro x sale k hx hk
    dsimp only at hx ⊢
    rcases hsold x sale k hx hk with hold | ⟨hnew, rfl⟩
    · obtain ⟨i, v, hv⟩ := h.sold x sale k hold hk
      refine ⟨i, v, Table.get?_insert_of_some _ hv.row, hv.subscription, hv.sale, hv.active, ?_⟩
      intro j w hj hw
      rw [Table.get?_insert] at hj
      split at hj
      · obtain rfl := Option.some.inj hj
        have hlt := Table.lt_next_of_get? hold
        have hle := (hsale x (hu.sale.symm.trans hw)).1
        exact absurd hlt (not_lt.2 hle)
      · exact hv.unique j w hj hw
    · refine ⟨db.subscriptionUses.next, u, Table.get?_insert_self _ _, hu.subscription,
        hu.sale.trans hnew, hu.active, ?_⟩
      intro j w hj hw
      rw [Table.get?_insert] at hj
      split at hj
      · next hj' => exact hj'
      · have hlt := (h.known j w hj).2 x hw
        exact absurd hlt (not_lt.2 (hsale x hnew).1)

/-- Nothing happened to memberships and uses. -/
theorem of_sales (h : ClubCounted db) {sales : Table Sale} (hnext : db.sales.next ≤ sales.next)
    (hsold : ∀ x sale k, sales.get? x = some sale → sale.clientSubscriptionId = some k →
      db.sales.get? x = some sale) :
    ClubCounted { db with sales := sales } where
  counted := h.counted
  older := h.older
  known i u hi := ⟨(h.known i u hi).1, fun x hx => ((h.known i u hi).2 x hx).trans_le hnext⟩
  sold x sale k hx hk := h.sold x sale k (hsold x sale k hx hk) hk

/-- Only the three tables count. -/
theorem of_tables (h : ClubCounted db) (hsales : db'.sales = db.sales)
    (hsubs : db'.subscriptions = db.subscriptions)
    (huses : db'.subscriptionUses = db.subscriptionUses) : ClubCounted db' where
  counted := by
    rw [hsubs, huses]
    exact h.counted
  older := by
    rw [hsubs, huses]
    exact h.older
  known := by
    rw [hsales, hsubs, huses]
    exact h.known
  sold := by
    rw [hsales, huses]
    exact h.sold

theorem undo (h : ClubCounted db) {useId : ℕ}
    (hundo : undoClientSubscriptionUse ctx useId db db = .ok db') : ClubCounted db' := by
  obtain ⟨use, u, hcheck, hu, hactive, rfl⟩ := undoClientSubscriptionUse_ok hundo
  obtain ⟨huse, hsale, hperiod⟩ := checkClubUndo_ok hcheck
  obtain rfl : u = use := Option.some.inj (hu.symm.trans huse)
  constructor
  · intro k t hk
    obtain ⟨s, hs, rfl⟩ := get?_giveBack hk
    have hcount := usedIn_undo hu hactive ctx.now ctx.userId k s.currentPeriodStart
    have hcounted := h.counted k s hs
    have hcycle : u.clientSubscriptionId = k → u.periodStart = s.currentPeriodStart := by
      rintro rfl
      rw [hperiod, hs]
      rfl
    simp only [ClientSubscription.less]
    by_cases huk : u.clientSubscriptionId = k
    · rw [if_pos ⟨huk, hcycle huk⟩] at hcount
      rw [if_pos huk]
      omega
    · rw [if_neg fun e => huk e.1] at hcount
      rw [if_neg huk]
      omega
  · intro i v t hi ht p hp
    obtain ⟨w, hw, hkeep⟩ := ClientSubscriptionUse.Keeps.undo hi
    obtain ⟨s, hs, rfl⟩ := get?_giveBack ht
    rw [hkeep.subscription] at hs
    exact h.older i w s hw hs p (hkeep.period ▸ hp)
  · intro i v hi
    obtain ⟨w, hw, hkeep⟩ := ClientSubscriptionUse.Keeps.undo hi
    rw [hkeep.subscription, hkeep.sale]
    exact h.known i w hw
  · intro x sale k hx hk
    obtain ⟨i, v, hv⟩ := h.sold x sale k hx hk
    have hne : i ≠ useId := by
      rintro rfl
      obtain rfl := Option.some.inj (hu.symm.trans hv.row)
      have := hsale.symm.trans hv.sale
      cases this
    refine ⟨i, v, (Table.get?_modify_of_ne _ _ hne).trans hv.row, hv.subscription, hv.sale,
      hv.active, ?_⟩
    intro j w hj hw
    obtain ⟨w', hw', hkeep⟩ := ClientSubscriptionUse.Keeps.undo hj
    exact hv.unique j w' hw' (hkeep.sale ▸ hw)

theorem createSale (h : ClubCounted db) {data : SaleInput}
    (hsale : createSale cat ctx data (fun _ => db) db = .ok db') : ClubCounted db' := by
  obtain ⟨plan, -, hcommit⟩ := createSale_ok hsale
  obtain ⟨hsales, hclub⟩ := commitSale_club hcommit
  have hrow : ∀ x sale, db'.sales.get? x = some sale →
      db.sales.get? x = some sale ∨ (x = db.sales.next ∧ sale = plan.sale ctx) := by
    intro x sale hx
    rw [hsales, Table.get?_insert] at hx
    split at hx
    · next hnew => exact .inr ⟨hnew, (Option.some.inj hx).symm⟩
    · exact .inl hx
  have hnext : db.sales.next ≤ db'.sales.next := by
    rw [hsales]
    exact Nat.le_succ _
  rcases hclub with ⟨hnone, hsubs, huses⟩ | ⟨id, limit, hsome, hredeem⟩
  · refine (h.of_sales hnext fun x sale k hx hk => ?_).of_tables rfl hsubs huses
    rcases hrow x sale hx with hold | ⟨-, rfl⟩
    · exact hold
    · simp [SalePlan.sale, hnone] at hk
  · refine (h.redeem hredeem hnext ?_ fun x sale k hx hk => ?_).of_tables rfl rfl rfl
    · rintro x ⟨⟩
      exact ⟨le_rfl, by rw [hsales]; exact Nat.lt_succ_self _⟩
    · rcases hrow x sale hx with hold | ⟨rfl, rfl⟩
      · exact .inl hold
      · obtain rfl : id = k := by simpa [SalePlan.sale, hsome] using hk
        exact .inr ⟨rfl, rfl⟩

theorem deleteSale (h : ClubCounted db) {saleId : ℕ}
    (hown : GivesBackItsOwn db (.deleteSale ctx saleId))
    (hdelete : deleteSale ctx saleId (fun _ => db) db = .ok db') : ClubCounted db' := by
  obtain ⟨existing, _, _, _, hcheck, -, -, -, rfl⟩ := deleteSale_ok hdelete
  obtain ⟨hexisting, -⟩ := checkDelete_ok hcheck
  have herase : ∀ x sale, (db.sales.erase saleId).get? x = some sale →
      x ≠ saleId ∧ db.sales.get? x = some sale := by
    intro x sale hx
    rw [Table.get?_erase] at hx
    split at hx
    · cases hx
    · next hne => exact ⟨hne, hx⟩
  cases hclub : existing.clientSubscriptionId with
  | none =>
    have hnext : db.sales.next ≤ (db.sales.erase saleId).next := le_rfl
    refine (h.of_sales hnext fun x sale k hx _ => (herase x sale hx).2).of_tables rfl ?_ ?_
    · exact restoreClub_none hclub _
    · exact undoClubUses_none hclub _ _ _
  | some id =>
    obtain ⟨i, u, hu⟩ := h.sold saleId existing id hexisting hclub
    have hgives : ∀ {s}, db.subscriptions.get? id = some s →
        (existing.restores s = true ↔ u.periodStart = s.currentPeriodStart) := by
      intro s hs
      rw [hown existing hexisting id hclub s hs, Table.any_eq_true]
      simp only [Bool.and_eq_true, beq_iff_eq, ClientSubscriptionUse.activeIn_iff]
      constructor
      · rintro ⟨j, v, hj, ⟨-, -, hp⟩, hx⟩
        obtain rfl := hu.unique j v hj hx
        obtain rfl := Option.some.inj (hu.row.symm.trans hj)
        exact hp
      · intro hp
        exact ⟨i, u, hu.row, ⟨hu.subscription, hu.active, hp⟩, hu.sale⟩
    constructor
    · intro k t hk
      obtain ⟨s, hs, rfl⟩ := get?_restoreClub hclub hk
      have hcount := usedIn_undoClubUses (Option.isSome_of_eq_some hclub) db.subscriptionUses saleId
        ctx.now ctx.userId k s.currentPeriodStart
      rw [soldIn_of_unique hu.row hu.sale hu.active hu.unique, hu.subscription] at hcount
      have hcounted := h.counted k s hs
      have hsame : (id = k ∧ existing.restores s = true) ↔
          (id = k ∧ u.periodStart = s.currentPeriodStart) := by
        refine and_congr_right ?_
        rintro rfl
        exact hgives hs
      simp only [ClientSubscription.less, hsame]
      omega
    · intro j v t hj ht p hp
      obtain ⟨w, hw, hkeep⟩ := ClientSubscriptionUse.Keeps.undoClubUses hj
      obtain ⟨s, hs, rfl⟩ := get?_restoreClub hclub ht
      rw [hkeep.subscription] at hs
      exact h.older j w s hw hs p (hkeep.period ▸ hp)
    · intro j v hj
      obtain ⟨w, hw, hkeep⟩ := ClientSubscriptionUse.Keeps.undoClubUses hj
      rw [hkeep.subscription, hkeep.sale]
      have hsame : (restoreClub existing db.subscriptions).next = db.subscriptions.next := by
        rw [restoreClub_some hclub]
        rfl
      dsimp only
      rw [hsame]
      exact h.known j w hw
    · intro x sale k hx hk
      obtain ⟨hne, hold⟩ := herase x sale hx
      obtain ⟨j, v, hv⟩ := h.sold x sale k hold hk
      have hother : v.saleId ≠ some saleId := by
        rw [hv.sale]
        exact fun e => hne (Option.some.inj e)
      refine ⟨j, v, undoClubUses_of_ne _ _ hv.row hother, hv.subscription, hv.sale, hv.active, ?_⟩
      intro j' w hj' hw
      obtain ⟨w', hw', hkeep⟩ := ClientSubscriptionUse.Keeps.undoClubUses hj'
      exact hv.unique j' w' hw' (hkeep.sale ▸ hw)

end ClubCounted

theorem clubCounted_step {a : ClubStep} (h : ClubCounted db) (hown : GivesBackItsOwn db a)
    (hs : (clubCounter cat).step db a = some db') : ClubCounted db' := by
  have hexec := toOption_eq_some.1 hs
  cases a with
  | subscribe clientAccountId plan stripeSubscription =>
    obtain rfl := pure_eq_ok.1 hexec
    exact h.subscribe clientAccountId plan stripeSubscription
  | renew id start =>
    simp only [ClubStep.exec, bind_eq_ok, orRefuse_eq_ok, pure_eq_ok] at hexec
    obtain ⟨_, hmod, rfl⟩ := hexec
    obtain ⟨s, hid, hlater, rfl⟩ := Table.tryModify_eq_some.1 hmod
    refine h.renew hid ?_
    simpa [Option.all_eq_true] using hlater
  | redeem ctx id =>
    obtain ⟨s, club, -, hclub, rfl⟩ := redeemClientSubscriptionSession_ok hexec
    exact h.redeem hclub le_rfl (by rintro _ ⟨⟩) fun _ _ _ hx _ => .inl hx
  | undo ctx useId => exact h.undo hexec
  | createSale ctx data => exact h.createSale hexec
  | deleteSale ctx saleId => exact h.deleteSale hown hexec
  | elsewhere other =>
    obtain rfl := pure_eq_ok.1 hexec
    exact h.of_tables rfl rfl rfl

end Steps

/-- In every run in which a deleted sale gives its club session back exactly if the session is of
the current cycle, the counter of every membership is the number of its rows in its cycle. -/
theorem club_counter_counts {cat : Catalog} {db db' : Db} {as : List ClubStep}
    (hmeets : (clubCounter cat).Meets GivesBackItsOwn db.beforeClub as)
    (hrun : (clubCounter cat).run db.beforeClub as = some db') {k : ℕ} {s : ClientSubscription}
    (hk : db'.subscriptions.get? k = some s) :
    s.usedThisCycle = (usesIn db'.subscriptionUses k s.currentPeriodStart).length := by
  have h := (clubCounter cat).run_inv_of_meets clubCounted_step (clubCounted_beforeClub db) hmeets
    hrun
  rw [length_usesIn]
  exact h.counted k s hk

/-- A catalog with one service. -/
def oneService : Catalog where
  services k := if k = 1 then some { barbershopId := 1, isActive := true, unit := "UNIT" } else none
  products _ := none
  serviceHistories _ := none
  barbers := .empty

/-- A customer with an account on the platform. -/
def oneMember : Db :=
  { Db.empty with
    customers := Table.empty.insert
      { networkId := 1, loyaltyPoints := 0, clientAccountId := some 1, deletedAt := none } }

/-- A plan of so many sessions a cycle. -/
def monthly (sessions : ℕ) : ClientSubscriptionPlan where
  barbershopId := 1
  serviceId := 1
  sessionsPerCycle := some sessions

/-- A haircut covered by the club. -/
def clubSale : SaleInput :=
  { haircutSale (some 1) 0 with
    items := [{ haircut 0 with serviceId := some 1 }]
    clientSubscriptionId := some 1 }

/-- A haircut in the first cycle, deleted in the same cycle, and one at the desk in the next. -/
def deletedInCycle : List ClubStep :=
  [.subscribe 1 (monthly 4) ⟨true, 0⟩, .createSale (owner 100) clubSale, .deleteSale (owner 150) 1,
    .renew 1 200, .redeem (owner 300) 1]

theorem deletedInCycle_counts : ∃ db s,
    (clubCounter oneService).run oneMember.beforeClub deletedInCycle = some db ∧
      db.subscriptions.get? 1 = some s ∧ s.usedThisCycle = 1 ∧
        s.usedThisCycle = (usesIn db.subscriptionUses 1 s.currentPeriodStart).length := by
  have hmeets : (clubCounter oneService).Meets GivesBackItsOwn oneMember.beforeClub
      deletedInCycle := by
    decide +kernel
  have hsome : ((clubCounter oneService).run oneMember.beforeClub deletedInCycle).any
      (fun db => (db.subscriptions.get? 1).any fun s => s.usedThisCycle == 1) = true := by
    decide +kernel
  obtain ⟨db, hrun, hout⟩ := (Option.any_eq_true _ _).1 hsome
  obtain ⟨s, hs, hused⟩ := (Option.any_eq_true _ _).1 hout
  exact ⟨db, s, hrun, hs, by simpa using hused, club_counter_counts hmeets hrun hs⟩

/-- The new cycle starts at 200 and is recorded after the sale at 250, whose session is of the old
one; then the sale is deleted. -/
def deletedAfterRenewal : List ClubStep :=
  [.subscribe 1 (monthly 4) ⟨true, 0⟩, .createSale (owner 250) clubSale, .renew 1 200,
    .redeem (owner 300) 1, .deleteSale (owner 400) 1]

theorem deletedAfterRenewal_drifts : ∃ db s,
    (clubCounter oneService).run oneMember.beforeClub deletedAfterRenewal = some db ∧
      db.subscriptions.get? 1 = some s ∧ s.usedThisCycle = 0 ∧
        (usesIn db.subscriptionUses 1 s.currentPeriodStart).length = 1 := by
  have hrun : ((clubCounter oneService).run oneMember.beforeClub deletedAfterRenewal).any
      (fun db => (db.subscriptions.get? 1).any fun s => s.usedThisCycle == 0 &&
        (usesIn db.subscriptionUses 1 s.currentPeriodStart).length == 1) = true := by
    decide +kernel
  obtain ⟨db, hdb, hout⟩ := (Option.any_eq_true _ _).1 hrun
  simp only [Option.any_eq_true, Bool.and_eq_true, beq_iff_eq] at hout
  obtain ⟨s, hs, hused, hrows⟩ := hout
  exact ⟨db, s, hdb, hs, hused, hrows⟩

end Barbershop
