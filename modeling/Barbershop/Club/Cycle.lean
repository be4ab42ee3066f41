import Barbershop.Club.Counter
import Barbershop.Lib.History

/-!
# Sessions of one Stripe billing period

The requests on the club beside Stripe's events, in any order and any number of times, with reads of
any earlier state. Stripe's billing period goes on by itself, and a handler asks for it when it runs.

`ClubWithin` bounds the sessions of every cycle by the limit: in the current one through the counter,
in the others because nothing is added to them. Three steps can break it: a reset to a cycle that has
sessions already, a session undone after its cycle, and a deleted sale that gives back a session of
another cycle (`InItsCycle` rules them out).
-/

namespace Barbershop

open Lib

inductive ClubRequest where
  | subscribe (clientAccountId : ℕ) (plan : ClientSubscriptionPlan)
      (stripeSubscription : StripeSubscription)
  /-- Stripe begins the next billing period. -/
  | advance (subscriptionId : ℕ) (current_period_start : ℤ)
  | invoiceSucceeded (invoice : ClubInvoice) (age : ClubInvoice.Read → ℕ)
  | invoiceFailed (subscriptionId : ℕ)
  | subscriptionUpdated (subscriptionId : ℕ) (status : StripeSubscriptionStatus)
  | redeem (ctx : Caller) (subscriptionId : ℕ) (age : ℕ)
  | undo (ctx : Caller) (useId : ℕ) (age : ℕ)
  | createSale (ctx : Caller) (data : SaleInput) (age : SaleRead → ℕ)
  | deleteSale (ctx : Caller) (saleId : ℕ) (age : DeleteRead → ℕ)
  /-- Anything else that writes no sale, membership or use. -/
  | elsewhere (other : Db)

def ClubRequest.exec (cat : Catalog) (r : ClubRequest) (seen : ℕ → ClubBooks) (b : ClubBooks) :
    Result ClubBooks :=
  match r with
  | .subscribe clientAccountId plan stripeSubscription =>
    return { b with
      db := { b.db with
        subscriptions := b.db.subscriptions.insert
          (subscribeToPlan clientAccountId plan stripeSubscription) }
      current_period_start := Function.update b.current_period_start b.db.subscriptions.next
        stripeSubscription.current_period_start }
  | .advance id start => do
    refuseIf (start ≤ b.current_period_start id) (.badRequest "")
    return { b with current_period_start := Function.update b.current_period_start id start }
  | .invoiceSucceeded invoice age =>
    handleClientSubscriptionInvoiceSucceeded invoice (fun r => seen (age r)) b
  | .invoiceFailed id =>
    return { b with
      db := { b.db with
        subscriptions := handleClientSubscriptionInvoiceFailed id b.db.subscriptions } }
  | .subscriptionUpdated id status =>
    return { b with
      db := { b.db with subscriptions := syncClientClub id status b.db.subscriptions } }
  | .redeem ctx id age => do
    return { b with db := ← redeemClientSubscriptionSession ctx id (seen age).db b.db }
  | .undo ctx useId age => do
    return { b with db := ← undoClientSubscriptionUse ctx useId (seen age).db b.db }
  | .createSale ctx data age => do
    return { b with db := ← Barbershop.createSale cat ctx data (fun r => (seen (age r)).db) b.db }
  | .deleteSale ctx saleId age => do
    return { b with db := ← Barbershop.deleteSale ctx saleId (fun r => (seen (age r)).db) b.db }
  | .elsewhere other =>
    return { b with
      db := { other with
        sales := b.db.sales
        subscriptions := b.db.subscriptions
        subscriptionUses := b.db.subscriptionUses } }

def clubService (cat : Catalog) : Machine (History ClubBooks) ClubRequest :=
  concurrent (ClubRequest.exec cat)

/-- A reset finds no session of the cycle it begins, and a session that comes back is of the current
cycle. -/
def InItsCycle (h : History ClubBooks) : ClubRequest → Prop
  | .invoiceSucceeded invoice age =>
    ∀ start ∈ invoice.resets (fun r => h.seen (age r)) h.now,
      usedIn h.now.db.subscriptionUses invoice.subscriptionId (some start) = 0
  | .undo _ useId _ => ∀ u ∈ h.now.db.subscriptionUses.get? useId, u.undoneAt = none →
      ∀ s ∈ h.now.db.subscriptions.get? u.clientSubscriptionId, 0 < s.usedThisCycle →
        u.periodStart = s.currentPeriodStart
  | .deleteSale _ saleId _ => ∀ sale ∈ h.now.db.sales.get? saleId,
      ∀ k ∈ sale.clientSubscriptionId, ∀ s ∈ h.now.db.subscriptions.get? k,
        sale.restores s = true → h.now.db.subscriptionUses.any (fun _ u =>
          u.activeIn k s.currentPeriodStart && u.saleId == some saleId) = true
  | _ => True

instance (h : History ClubBooks) (r : ClubRequest) : Decidable (InItsCycle h r) := by
  cases r <;> unfold InItsCycle <;> infer_instance

/-! ## What holds of every committed state -/

/-- No cycle of a membership has more sessions than its limit. -/
structure ClubWithin (subscriptions : Table ClientSubscription)
    (uses : Table ClientSubscriptionUse) : Prop where
  used : ∀ {k s n}, subscriptions.get? k = some s → s.sessionsPerCycle = some n →
    usedIn uses k s.currentPeriodStart ≤ s.usedThisCycle ∧ s.usedThisCycle ≤ n
  cycles : ∀ {k s n}, subscriptions.get? k = some s → s.sessionsPerCycle = some n →
    ∀ p, usedIn uses k p ≤ n
  known : ∀ {i u}, uses.get? i = some u → u.clientSubscriptionId < subscriptions.next

/-- The limit of a membership never changes. -/
structure ClientSubscription.SameLimit (s s' : ClientSubscription) : Prop where
  limit : s'.sessionsPerCycle = s.sessionsPerCycle

theorem sameLimit_refl (t : Table ClientSubscription) :
    t.Evolves ClientSubscription.SameLimit t := .refl (fun _ => ⟨rfl⟩) t

/-- What later states keep: the limits, the cycles of the uses, and the sales. -/
structure ClubLater (b b' : ClubBooks) : Prop where
  subscriptions : b.db.subscriptions.Evolves ClientSubscription.SameLimit b'.db.subscriptions
  uses : b.db.subscriptionUses.Evolves ClientSubscriptionUse.Keeps b'.db.subscriptionUses
  sales : b.db.sales.Evolves Eq b'.db.sales

theorem ClubLater.refl (b : ClubBooks) : ClubLater b b where
  subscriptions := sameLimit_refl _
  uses := .refl .refl _
  sales := .refl (fun _ => rfl) _

theorem ClubLater.trans {a b c : ClubBooks} (h : ClubLater a b) (h' : ClubLater b c) :
    ClubLater a c where
  subscriptions := h.subscriptions.trans (fun e e' => ⟨e'.limit.trans e.limit⟩) h'.subscriptions
  uses := h.uses.trans .trans h'.uses
  sales := h.sales.trans Eq.trans h'.sales

section Steps

variable {subscriptions : Table ClientSubscription} {uses : Table ClientSubscriptionUse}

namespace ClubWithin

theorem subscribe (h : ClubWithin subscriptions uses) (clientAccountId : ℕ)
    (plan : ClientSubscriptionPlan) (stripeSubscription : StripeSubscription) :
    ClubWithin (subscriptions.insert (subscribeToPlan clientAccountId plan stripeSubscription))
      uses := by
  have hnew : ∀ p, usedIn uses subscriptions.next p = 0 := fun p =>
    usedIn_eq_zero_of fun i u hi hu => absurd hu (Nat.ne_of_lt (h.known hi))
  constructor
  · intro k s n hk hn
    rw [Table.get?_insert] at hk
    split at hk
    · next hkn =>
      obtain rfl := Option.some.inj hk
      rw [hkn, hnew]
      exact ⟨le_rfl, Nat.zero_le n⟩
    · exact h.used hk hn
  · intro k s n hk hn p
    rw [Table.get?_insert] at hk
    split at hk
    · next hkn =>
      rw [hkn, hnew]
      exact Nat.zero_le n
    · exact h.cycles hk hn p
  · intro i u hi
    exact Nat.lt_succ_of_lt (h.known hi)

/-- A write of one membership that leaves its limit, its counter and its cycle alone. -/
theorem modify (h : ClubWithin subscriptions uses) (id : ℕ)
    {f : ClientSubscription → ClientSubscription}
    (hlimit : ∀ s, (f s).sessionsPerCycle = s.sessionsPerCycle)
    (hused : ∀ s n, subscriptions.get? id = some s → s.sessionsPerCycle = some n →
      usedIn uses id (f s).currentPeriodStart ≤ (f s).usedThisCycle ∧ (f s).usedThisCycle ≤ n) :
    ClubWithin (subscriptions.modify id f) uses := by
  constructor
  · intro k t n hk hn
    rw [Table.get?_modify] at hk
    split at hk
    · next hkid =>
      subst hkid
      obtain ⟨s, hs, rfl⟩ := Option.map_eq_some_iff.1 hk
      exact hused s n hs (hlimit s ▸ hn)
    · exact h.used hk hn
  · intro k t n hk hn p
    rw [Table.get?_modify] at hk
    split at hk
    · obtain ⟨s, hs, rfl⟩ := Option.map_eq_some_iff.1 hk
      exact h.cycles hs (hlimit s ▸ hn) p
    · exact h.cycles hk hn p
  · exact h.known

theorem status (h : ClubWithin subscriptions uses) (id : ℕ) (status : SubscriptionStatus) :
    ClubWithin (subscriptions.modify id (·.withStatus status)) uses :=
  h.modify id (fun _ => rfl) fun s _ hs hn => h.used (s := s) hs hn

/-- A reset to a cycle without sessions. -/
theorem renew (h : ClubWithin subscriptions uses) {id : ℕ} {start : ℤ}
    (hfresh : usedIn uses id (some start) = 0) :
    ClubWithin (subscriptions.modify id (·.renew start)) uses :=
  h.modify id (fun _ => rfl) fun _ n _ _ => ⟨hfresh.le, Nat.zero_le n⟩

/-- A session used under the limit of the membership. -/
theorem redeem (h : ClubWithin subscriptions uses) {id : ℕ} {limit : Option ℕ} {userId : ℕ}
    {saleId : Option ℕ} {club : Table ClientSubscription × Table ClientSubscriptionUse}
    (hlimit : ∀ s, subscriptions.get? id = some s → s.sessionsPerCycle = limit)
    (hredeem : redeemSession id limit userId saleId subscriptions uses = .ok club) :
    ClubWithin club.1 club.2 := by
  obtain ⟨s, u, hs, hfree, hu, rfl⟩ := redeemSession_ok hredeem
  dsimp only
  have hroom : ∀ n, s.sessionsPerCycle = some n → s.usedThisCycle + 1 ≤ n := fun n hn =>
    hfree n ((hlimit s hs).symm.trans hn)
  constructor
  · intro k t n hk hn
    rw [usedIn_insert hu]
    rw [Table.get?_modify] at hk
    split at hk
    · next hkid =>
      subst hkid
      rw [hs] at hk
      obtain rfl := Option.some.inj hk
      rw [if_pos ⟨rfl, rfl⟩]
      exact ⟨Nat.succ_le_succ (h.used hs hn).1, hroom n hn⟩
    · next hkid =>
      rw [if_neg fun e => hkid e.1.symm]
      exact h.used hk hn
  · intro k t n hk hn p
    rw [usedIn_insert hu]
    rw [Table.get?_modify] at hk
    split at hk
    · next hkid =>
      subst hkid
      rw [hs] at hk
      obtain rfl := Option.some.inj hk
      have hcycle := h.cycles hs hn p
      by_cases hp : s.currentPeriodStart = p
      · have hused := (h.used hs hn).1
        have := hroom n hn
        rw [if_pos ⟨rfl, hp⟩]
        rw [hp] at hused
        omega
      · rw [if_neg fun e => hp e.2]
        exact hcycle
    · next hkid =>
      rw [if_neg fun e => hkid e.1.symm]
      exact h.cycles hk hn p
  · intro i v hi
    rw [Table.get?_insert] at hi
    split at hi
    · obtain rfl := Option.some.inj hi
      have hlt := Table.lt_next_of_get? hs
      rwa [← hu.subscription] at hlt
    · exact h.known hi

/-- Sessions that come back: every count of rows goes down, and the counter by at most what the rows
of its cycle go down by. -/
theorem back (h : ClubWithin subscriptions uses) {subscriptions' : Table ClientSubscription}
    {uses' : Table ClientSubscriptionUse} (hnext : subscriptions'.next = subscriptions.next)
    (hrow : ∀ {k t}, subscriptions'.get? k = some t →
      ∃ s d, subscriptions.get? k = some s ∧ t = s.less d ∧
        usedIn uses' k s.currentPeriodStart + d ≤ usedIn uses k s.currentPeriodStart)
    (hcount : ∀ k p, usedIn uses' k p ≤ usedIn uses k p)
    (hkeep : ∀ {i v}, uses'.get? i = some v → ∃ u, uses.get? i = some u ∧ u.Keeps v) :
    ClubWithin subscriptions' uses' := by
  constructor
  · intro k t n hk hn
    obtain ⟨s, d, hs, rfl, hd⟩ := hrow hk
    obtain ⟨hused, hle⟩ := h.used hs hn
    simp only [ClientSubscription.less]
    omega
  · intro k t n hk hn p
    obtain ⟨s, d, hs, rfl, -⟩ := hrow hk
    exact (hcount k p).trans (h.cycles hs hn p)
  · intro i v hi
    obtain ⟨u, hu, hkeeps⟩ := hkeep hi
    rw [hnext, hkeeps.subscription]
    exact h.known hu

theorem undo (h : ClubWithin subscriptions uses) {i : ℕ} {u : ClientSubscriptionUse}
    (hi : uses.get? i = some u) (hactive : u.undoneAt = none)
    (hcycle : ∀ s, subscriptions.get? u.clientSubscriptionId = some s → 0 < s.usedThisCycle →
      u.periodStart = s.currentPeriodStart) (now : ℤ) (userId : ℕ) :
    ClubWithin (subscriptions.modify u.clientSubscriptionId (·.giveBack))
      (uses.modify i (·.undo now userId)) := by
  have hcount := usedIn_undo hi hactive now userId
  refine h.back rfl (fun {k t} hk => ?_) (fun k p => ?_) ClientSubscriptionUse.Keeps.undo
  · obtain ⟨s, hs, rfl⟩ := get?_giveBack hk
    by_cases hpos : 0 < s.usedThisCycle
    · refine ⟨s, _, hs, rfl, ?_⟩
      have hk := hcount k s.currentPeriodStart
      have hsame : u.clientSubscriptionId = k → u.periodStart = s.currentPeriodStart := by
        rintro rfl
        exact hcycle s hs hpos
      by_cases huk : u.clientSubscriptionId = k
      · rw [if_pos ⟨huk, hsame huk⟩] at hk
        rw [if_pos huk]
        omega
      · rw [if_neg huk]
        omega
    · refine ⟨s, 0, hs, ?_, ?_⟩
      · unfold ClientSubscription.less
        rw [Nat.eq_zero_of_not_pos hpos, Nat.zero_sub, Nat.zero_sub]
      · have := hcount k s.currentPeriodStart
        omega
  · have := hcount k p
    omega

theorem deleteSale (h : ClubWithin subscriptions uses) {existing : Sale} {x : ℕ}
    (hcycle : ∀ k s, existing.clientSubscriptionId = some k → subscriptions.get? k = some s →
      existing.restores s = true → 0 < soldIn uses x k s.currentPeriodStart) (now : ℤ)
    (userId : ℕ) :
    ClubWithin (restoreClub existing subscriptions) (undoClubUses existing x now userId uses) := by
  cases hclub : existing.clientSubscriptionId with
  | none =>
    rw [restoreClub_none hclub, undoClubUses_none hclub]
    exact h
  | some id =>
    have hcount := usedIn_undoClubUses (Option.isSome_of_eq_some hclub) uses x now userId
    have hnext : (restoreClub existing subscriptions).next = subscriptions.next := by
      rw [restoreClub_some hclub, Table.next_modify]
    refine h.back hnext (fun {k t} hk => ?_) (fun k p => ?_)
      ClientSubscriptionUse.Keeps.undoClubUses
    · obtain ⟨s, hs, rfl⟩ := get?_restoreClub hclub hk
      refine ⟨s, _, hs, rfl, ?_⟩
      have hk := hcount k s.currentPeriodStart
      split
      · next hr =>
        obtain ⟨rfl, hr⟩ := hr
        have := hcycle id s hclub hs hr
        omega
      · omega
    · have := hcount k p
      omega

end ClubWithin

end Steps

/-! ## Later states -/

theorem ClubLater.of_subscriptions {b b' : ClubBooks}
    (hsubs : b.db.subscriptions.Evolves ClientSubscription.SameLimit b'.db.subscriptions)
    (huses : b'.db.subscriptionUses = b.db.subscriptionUses) (hsales : b'.db.sales = b.db.sales) :
    ClubLater b b' where
  subscriptions := hsubs
  uses := huses ▸ .refl .refl _
  sales := hsales ▸ .refl (fun _ => rfl) _

section Limits

variable {subscriptions : Table ClientSubscription} {uses : Table ClientSubscriptionUse}

/-- A write of one membership that leaves its limit alone. -/
theorem evolves_limit (id : ℕ) {f : ClientSubscription → ClientSubscription}
    (hf : ∀ s, (f s).sessionsPerCycle = s.sessionsPerCycle) :
    subscriptions.Evolves ClientSubscription.SameLimit (subscriptions.modify id f) :=
  .modify (fun e e' => ⟨e'.limit.trans e.limit⟩) (sameLimit_refl _) fun s _ => ⟨hf s⟩

/-- Rows of uses that are only undone. -/
theorem evolves_keeps {uses' : Table ClientSubscriptionUse} (hnext : uses'.next = uses.next)
    (h : ∀ {i v}, uses'.get? i = some v → ∃ u, uses.get? i = some u ∧ u.Keeps v) :
    uses.Evolves ClientSubscriptionUse.Keeps uses' :=
  ⟨hnext.ge, fun _ _ hi _ => h hi⟩

theorem evolves_redeem {id : ℕ} {limit : Option ℕ} {userId : ℕ} {saleId : Option ℕ}
    {club : Table ClientSubscription × Table ClientSubscriptionUse}
    (h : redeemSession id limit userId saleId subscriptions uses = .ok club) :
    subscriptions.Evolves ClientSubscription.SameLimit club.1 ∧
      uses.Evolves ClientSubscriptionUse.Keeps club.2 := by
  obtain ⟨s, u, -, -, -, rfl⟩ := redeemSession_ok h
  have hlimits := @evolves_limit subscriptions id
    (fun s => { s with usedThisCycle := s.usedThisCycle + 1 }) fun _ => rfl
  exact ⟨hlimits, (Table.Evolves.refl .refl _).insert u⟩

end Limits

/-- The limit that was read is the limit of the membership by now. -/
theorem ClubLater.limit {b b' : ClubBooks} (h : ClubLater b b') {id : ℕ} {s s' : ClientSubscription}
    (hs : b.db.subscriptions.get? id = some s) (hs' : b'.db.subscriptions.get? id = some s') :
    s'.sessionsPerCycle = s.sessionsPerCycle := by
  obtain ⟨t, ht, hsame⟩ := h.subscriptions.row id s' hs' (Table.lt_next_of_get? hs)
  obtain rfl := Option.some.inj (hs.symm.trans ht)
  exact hsame.limit

/-- What a step owes: the bounds, and a later state. -/
structure ClubKept (b b' : ClubBooks) : Prop where
  within : ClubWithin b'.db.subscriptions b'.db.subscriptionUses
  later : ClubLater b b'

section Requests

variable {cat : Catalog} {ctx : Caller} {b : ClubBooks} {db' : Db}

theorem club_redeem (h : ClubWithin b.db.subscriptions b.db.subscriptionUses) {id : ℕ}
    {seen : ClubBooks} (hseen : ClubLater seen b)
    (hredeem : redeemClientSubscriptionSession ctx id seen.db b.db = .ok db') :
    ClubKept b { b with db := db' } := by
  obtain ⟨s, club, hs, hclub, rfl⟩ := redeemClientSubscriptionSession_ok hredeem
  obtain ⟨hsubs, huses⟩ := evolves_redeem hclub
  exact {
    within := h.redeem (fun s' hs' => hseen.limit hs hs') hclub
    later := ⟨hsubs, huses, .refl (fun _ => rfl) _⟩ }

theorem club_undo (h : ClubWithin b.db.subscriptions b.db.subscriptionUses) {useId : ℕ}
    {seen : ClubBooks} (hseen : ClubLater seen b)
    (hcycle : ∀ u ∈ b.db.subscriptionUses.get? useId, u.undoneAt = none →
      ∀ s ∈ b.db.subscriptions.get? u.clientSubscriptionId, 0 < s.usedThisCycle →
        u.periodStart = s.currentPeriodStart)
    (hundo : undoClientSubscriptionUse ctx useId seen.db b.db = .ok db') :
    ClubKept b { b with db := db' } := by
  obtain ⟨use, u, hcheck, hu, hactive, rfl⟩ := undoClientSubscriptionUse_ok hundo
  obtain ⟨huse, -⟩ := checkClubUndo_ok hcheck
  obtain ⟨w, hw, hkeep⟩ := hseen.uses.row useId u hu (Table.lt_next_of_get? huse)
  obtain rfl := Option.some.inj (huse.symm.trans hw)
  rw [← hkeep.subscription]
  exact {
    within := h.undo hu hactive (hcycle u hu hactive) ctx.now ctx.userId
    later := {
      subscriptions := evolves_limit _ fun s => by rw [ClientSubscription.giveBack_eq]; rfl
      uses := evolves_keeps rfl ClientSubscriptionUse.Keeps.undo
      sales := .refl (fun _ => rfl) _ } }

theorem club_createSale (h : ClubWithin b.db.subscriptions b.db.subscriptionUses)
    {data : SaleInput} {reads : SaleRead → ClubBooks} (hseen : ClubLater (reads .club) b)
    (hsale : createSale cat ctx data (fun r => (reads r).db) b.db = .ok db') :
    ClubKept b { b with db := db' } := by
  simp only [createSale, bind_eq_ok] at hsale
  obtain ⟨plan, hplan, hcommit⟩ := hsale
  obtain ⟨hsales, hclub⟩ := commitSale_club hcommit
  have hevolves : b.db.sales.Evolves Eq db'.sales := by
    rw [hsales]
    exact (Table.Evolves.refl (fun _ => rfl) _).insert _
  rcases hclub with ⟨-, hsubs, huses⟩ | ⟨id, limit, hsome, hredeem⟩
  · constructor
    · rw [hsubs, huses]
      exact h
    · exact ⟨hsubs ▸ sameLimit_refl _, huses ▸ .refl .refl _, hevolves⟩
  · obtain ⟨s, hs, rfl⟩ := prepareSale_club hplan hsome
    obtain ⟨hsubs, huses⟩ := evolves_redeem hredeem
    exact {
      within := h.redeem (fun s' hs' => hseen.limit hs hs') hredeem
      later := ⟨hsubs, huses, hevolves⟩ }

theorem club_deleteSale (h : ClubWithin b.db.subscriptions b.db.subscriptionUses) {saleId : ℕ}
    {reads : DeleteRead → ClubBooks} (hseen : ClubLater (reads .existing) b)
    (hcycle : ∀ sale ∈ b.db.sales.get? saleId, ∀ k ∈ sale.clientSubscriptionId,
      ∀ s ∈ b.db.subscriptions.get? k, sale.restores s = true →
        b.db.subscriptionUses.any (fun _ u =>
          u.activeIn k s.currentPeriodStart && u.saleId == some saleId) = true)
    (hdelete : deleteSale ctx saleId (fun r => (reads r).db) b.db = .ok db') :
    ClubKept b { b with db := db' } := by
  obtain ⟨existing, _, _, sale, hcheck, -, -, hsale, rfl⟩ := deleteSale_ok hdelete
  obtain ⟨hexisting, -⟩ := checkDelete_ok hcheck
  obtain ⟨found, hfound, rfl⟩ := hseen.sales.row saleId sale hsale (Table.lt_next_of_get? hexisting)
  obtain rfl := Option.some.inj (hexisting.symm.trans hfound)
  constructor
  · refine h.deleteSale (fun k s hk hs hr => ?_) ctx.now ctx.userId
    obtain ⟨i, u, hu, hout⟩ := Table.any_eq_true.1 (hcycle existing hsale k hk s hs hr)
    simp only [Bool.and_eq_true, beq_iff_eq] at hout
    exact soldIn_pos hu hout.1 hout.2
  · constructor
    · dsimp only
      cases hclub : existing.clientSubscriptionId with
      | none =>
        rw [restoreClub_none hclub]
        exact sameLimit_refl _
      | some k =>
        rw [restoreClub_some hclub]
        refine evolves_limit k fun s => ?_
        split <;> rfl
    · refine evolves_keeps ?_ ClientSubscriptionUse.Keeps.undoClubUses
      unfold undoClubUses
      split <;> rfl
    · exact (Table.Evolves.refl (fun _ => rfl) _).erase saleId

theorem club_invoice (h : ClubWithin b.db.subscriptions b.db.subscriptionUses)
    {invoice : ClubInvoice} {reads : ClubInvoice.Read → ClubBooks} {b' : ClubBooks}
    (hfresh : ∀ start ∈ invoice.resets reads b,
      usedIn b.db.subscriptionUses invoice.subscriptionId (some start) = 0)
    (hinvoice : handleClientSubscriptionInvoiceSucceeded invoice reads b = .ok b') :
    ClubKept b b' := by
  rcases handleInvoice_ok hinvoice with rfl | ⟨payments, rfl⟩
  · exact ⟨h, .refl b'⟩
  · cases hr : invoice.resets reads b with
    | none => exact ⟨h, .of_subscriptions (sameLimit_refl _) rfl rfl⟩
    | some start =>
      exact ⟨h.renew (hfresh start hr), .of_subscriptions (evolves_limit _ fun _ => rfl) rfl rfl⟩

theorem clubGood_step {h h' : History ClubBooks} {r : ClubRequest}
    (hh : h.Good (fun b => ClubWithin b.db.subscriptions b.db.subscriptionUses) ClubLater)
    (hr : InItsCycle h r) (hs : (clubService cat).step h r = some h') :
    h'.Good (fun b => ClubWithin b.db.subscriptions b.db.subscriptionUses) ClubLater := by
  obtain ⟨b', hexec, rfl⟩ := concurrent_step.1 hs
  have hseen : ∀ n, ClubLater (h.seen n) h.now := fun n => (hh.seen .refl n).2
  have hkept : ClubKept h.now b' := by
    cases r with
    | subscribe clientAccountId plan stripeSubscription =>
      obtain rfl := pure_eq_ok.1 hexec
      exact ⟨hh.now.subscribe clientAccountId plan stripeSubscription,
        .of_subscriptions ((sameLimit_refl _).insert _) rfl rfl⟩
    | advance id start =>
      simp only [ClubRequest.exec, bind_eq_ok, exists_punit, pure_eq_ok] at hexec
      obtain ⟨-, rfl⟩ := hexec
      exact ⟨hh.now, .of_subscriptions (sameLimit_refl _) rfl rfl⟩
    | invoiceSucceeded invoice age => exact club_invoice hh.now hr hexec
    | invoiceFailed id =>
      obtain rfl := pure_eq_ok.1 hexec
      exact ⟨hh.now.status id .pastDue, .of_subscriptions (evolves_limit id fun _ => rfl) rfl rfl⟩
    | subscriptionUpdated id status =>
      obtain rfl := pure_eq_ok.1 hexec
      cases hstatus : status.club with
      | none =>
        simp only [syncClientClub, hstatus, Option.elim_none]
        exact ⟨hh.now, .of_subscriptions (sameLimit_refl _) rfl rfl⟩
      | some status =>
        simp only [syncClientClub, hstatus, Option.elim_some]
        exact ⟨hh.now.status id status, .of_subscriptions (evolves_limit id fun _ => rfl) rfl rfl⟩
    | redeem ctx id age =>
      simp only [ClubRequest.exec, bind_eq_ok, pure_eq_ok] at hexec
      obtain ⟨db', hdb, rfl⟩ := hexec
      exact club_redeem hh.now (hseen _) hdb
    | undo ctx useId age =>
      simp only [ClubRequest.exec, bind_eq_ok, pure_eq_ok] at hexec
      obtain ⟨db', hdb, rfl⟩ := hexec
      exact club_undo hh.now (hseen _) hr hdb
    | createSale ctx data age =>
      simp only [ClubRequest.exec, bind_eq_ok, pure_eq_ok] at hexec
      obtain ⟨db', hdb, rfl⟩ := hexec
      exact @club_createSale _ _ _ _ hh.now _ (fun r => h.seen (age r)) (hseen _) hdb
    | deleteSale ctx saleId age =>
      simp only [ClubRequest.exec, bind_eq_ok, pure_eq_ok] at hexec
      obtain ⟨db', hdb, rfl⟩ := hexec
      exact @club_deleteSale _ _ _ hh.now _ (fun r => h.seen (age r)) (hseen _) hr hdb
    | elsewhere other =>
      obtain rfl := pure_eq_ok.1 hexec
      exact ⟨hh.now, .of_subscriptions (sameLimit_refl _) rfl rfl⟩
  exact hh.commit ClubLater.trans hkept.within hkept.later

end Requests

/-- The books of a platform before its first membership and sale. -/
def ClubBooks.start (db : Db) : ClubBooks where
  db := db.beforeClub
  payments := .empty
  current_period_start _ := 0

theorem clubWithin_start (db : Db) : ClubWithin (ClubBooks.start db).db.subscriptions
    (ClubBooks.start db).db.subscriptionUses where
  used hk := by cases hk
  cycles hk := by cases hk
  known hi := by cases hi

/-- In every run whose resets find no session of the cycle they begin, and whose sessions come back
in their own cycle, no cycle of a membership has more sessions than its limit. -/
theorem club_sessions_within_limit {cat : Catalog} {db : Db} {rs : List ClubRequest}
    {h : History ClubBooks}
    (hmeets : (clubService cat).Meets InItsCycle (.start (ClubBooks.start db)) rs)
    (hrun : (clubService cat).run (.start (ClubBooks.start db)) rs = some h) {k n : ℕ}
    {s : ClientSubscription} (hk : h.now.db.subscriptions.get? k = some s)
    (hlimit : s.sessionsPerCycle = some n) (p : Option ℤ) :
    (usesIn h.now.db.subscriptionUses k p).length ≤ n := by
  have hgood := (clubService cat).run_inv_of_meets clubGood_step
    (History.good_start (clubWithin_start db)) hmeets hrun
  rw [length_usesIn]
  exact hgood.now.cycles hk hlimit p

/-- The invoice of a month that ends at an instant. -/
def monthInvoice (id : String) (sec : ℤ) : ClubInvoice where
  id := id
  subscriptionId := 1
  lines := [some sec]
  period_end := some sec
  amount_paid := 5000
  currency := "brl"

/-- One session a month: each month's invoice is paid in its month, and each session used. -/
def twoMonths : List ClubRequest :=
  [.subscribe 1 (monthly 1) ⟨true, 0⟩, .invoiceSucceeded (monthInvoice "in_1" 100) fun _ => 0,
    .redeem (owner 10) 1 0, .advance 1 100, .invoiceSucceeded (monthInvoice "in_2" 200) fun _ => 0,
    .redeem (owner 110000) 1 0]

theorem twoMonths_within_limit : ∃ h s,
    (clubService oneService).run (.start (ClubBooks.start oneMember)) twoMonths = some h ∧
      h.now.db.subscriptions.get? 1 = some s ∧ s.sessionsPerCycle = some 1 ∧
        (usesIn h.now.db.subscriptionUses 1 (some 100000)).length ≤ 1 := by
  have hmeets : (clubService oneService).Meets InItsCycle (.start (ClubBooks.start oneMember))
      twoMonths := by
    decide +kernel
  have hsome : ((clubService oneService).run (.start (ClubBooks.start oneMember)) twoMonths).any
      (fun h => (h.now.db.subscriptions.get? 1).any fun s => s.sessionsPerCycle == some 1) =
        true := by
    decide +kernel
  obtain ⟨h, hrun, hout⟩ := (Option.any_eq_true _ _).1 hsome
  obtain ⟨s, hs, hlimit⟩ := (Option.any_eq_true _ _).1 hout
  have hlimit := beq_iff_eq.1 hlimit
  exact ⟨h, s, hrun, hs, hlimit, club_sessions_within_limit hmeets hrun hs hlimit (some 100000)⟩

/-- The second invoice fails and is paid in the third month, before the third one. -/
def paidLate : List ClubRequest :=
  [.subscribe 1 (monthly 1) ⟨true, 0⟩, .invoiceSucceeded (monthInvoice "in_1" 100) fun _ => 0,
    .redeem (owner 10) 1 0, .advance 1 100, .invoiceFailed 1, .advance 1 200,
    .invoiceSucceeded (monthInvoice "in_2" 200) fun _ => 0, .redeem (owner 210000) 1 0,
    .invoiceSucceeded (monthInvoice "in_3" 300) fun _ => 0, .redeem (owner 220000) 1 0]

theorem paidLate_exceeds_limit : ∃ h s,
    (clubService oneService).run (.start (ClubBooks.start oneMember)) paidLate = some h ∧
      h.now.db.subscriptions.get? 1 = some s ∧ s.sessionsPerCycle = some 1 ∧
        (usesIn h.now.db.subscriptionUses 1 (some 200000)).length = 2 := by
  have hrun : ((clubService oneService).run (.start (ClubBooks.start oneMember)) paidLate).any
      (fun h => (h.now.db.subscriptions.get? 1).any (fun s => s.sessionsPerCycle == some 1) &&
        (usesIn h.now.db.subscriptionUses 1 (some 200000)).length == 2) = true := by
    decide +kernel
  obtain ⟨h, hh, hout⟩ := (Option.any_eq_true _ _).1 hrun
  simp only [Option.any_eq_true, Bool.and_eq_true, beq_iff_eq] at hout
  obtain ⟨⟨s, hs, hlimit⟩, hrows⟩ := hout
  exact ⟨h, s, hh, hs, hlimit, hrows⟩

end Barbershop
