import Barbershop.Package.Concurrent
import Barbershop.Payroll.Commission
import Barbershop.Service

/-!
# The worth of a package session

A service covered by a package is on the sale at price zero; the commission on it goes by what one
session of the package is worth (`coveredSessionValues`): the total of the sale that issued the
package over the sessions the package has. `refundIssuedRemainder` lowers the sessions to those that
were used. On a pending sale it lowers the total with them; a paid sale keeps its total and the refund
is a sale of its own, so there the used sessions are worth the whole price.
-/

namespace Barbershop

open Lib

/-! ## `coveredSessionValues` -/

/-- The sale that issued the package, unless it was deleted. -/
def ClientPackage.issuing (sales : Table Sale) (p : ClientPackage) : Option Sale :=
  p.saleId.bind sales.get?

/-- `sessions` -/
def ClientPackage.soldSessions (offer : ServicePackage) (sales : Table Sale) (p : ClientPackage) :
    ℕ :=
  (p.issuing sales).elim offer.totalSessions fun _ => p.totalSessions

/-- `paid / sessions` -/
def ClientPackage.sessionValue (offer : ServicePackage) (sales : Table Sale) (p : ClientPackage) :
    ℚ :=
  (p.issuing sales).elim offer.price (·.total) / p.soldSessions offer sales

namespace Db

variable (offers : ℕ → ServicePackage) (db : Db)

/-- What one session of package `k` is worth; `offers` are the offers that packages were bought
from. -/
def sessionValue (k : ℕ) : Option ℚ :=
  (db.packages.get? k).map (·.sessionValue (offers k) db.sales)

/-- The service and the worth of the session that a sale used: of several uses, the last one. -/
def bySale (saleId : ℕ) : Option (ℕ × ℚ) :=
  ((db.activeUses saleId).filterMap fun u =>
    ((db.packages.get? u.2.clientPackageId).filter fun p =>
        decide (0 < p.soldSessions (offers u.2.clientPackageId) db.sales)).map fun p =>
      (p.serviceId, p.sessionValue (offers u.2.clientPackageId) db.sales)).getLast?

/-- The price of a service that the club of the sale covers. -/
def clubValue (prices : ℕ → Option ℚ) (saleId : ℕ) (item : SaleItem) : ℚ :=
  let plan := ((db.sales.get? saleId).bind (·.clientSubscriptionId)).bind db.subscriptions.get?
  if plan.isSome ∧ plan.map (·.serviceId) = item.serviceId then
    (item.serviceId.bind prices).getD 0
  else 0

/-- `coveredSessionValues`; `prices` are those of the services. -/
def coveredSessionValues (prices : ℕ → Option ℚ) (saleId : ℕ) (item : SaleItem) : ℚ :=
  match db.bySale offers saleId with
  | none => db.clubValue prices saleId item
  | some (service, value) =>
    if some service = item.serviceId then value else db.clubValue prices saleId item

end Db

/-- What commissions go by in a state of the database. -/
def Db.commissionTerms (offers : ℕ → ServicePackage) (prices : ℕ → Option ℚ)
    (rules : List CommissionRule) (db : Db) : CommissionTerms where
  rules := rules
  session := db.coveredSessionValues offers prices

/-! ## What was paid and what the sessions are worth -/

/-- The refund of the remainder of sale `x`. -/
def Sale.refunds (x : ℕ) (s : Sale) : Bool :=
  s.saleType == .refund && s.items.any fun i => i.notes == some (.remainderOf x)

namespace Db

variable (offers : ℕ → ServicePackage) (db : Db)

/-- What was refunded of sale `x` by refunds of their own. -/
def refundedOf (x : ℕ) : ℚ := db.sales.sum fun _ s => if s.refunds x then -s.total else 0

/-- What the sessions of package `k` that were used are worth together. -/
def coveredOf (k : ℕ) : ℚ :=
  db.packageUses.sum fun _ u => if u.activeFor k then (db.sessionValue offers k).getD 0 else 0

/-- The used sessions of every package that a sale issued are worth no more together than the client
paid less what was refunded. -/
structure CoveredWithin : Prop where
  within : ∀ k p x s, db.packages.get? k = some p → p.saleId = some x →
    db.sales.get? x = some s → db.coveredOf offers k ≤ s.total - db.refundedOf x

end Db

theorem coveredOf_eq (offers : ℕ → ServicePackage) (db : Db) (k : ℕ) :
    db.coveredOf offers k = activeCount db.packageUses k * (db.sessionValue offers k).getD 0 := by
  unfold Db.coveredOf activeCount
  generalize (db.sessionValue offers k).getD 0 = v
  rw [Table.sum, Table.sum]
  induction db.packageUses.rows with
  | nil => simp
  | cons row rows ih =>
    simp only [List.map_cons, List.sum_cons, ih]
    split
    · push_cast
      ring
    · push_cast
      ring

/-! ## The condition -/

/-- The refund of the remainder of sale `saleId` leaves the worth of a session: a package that was
paid cost nothing, or one that was not paid has whole cents for the sessions that were used. -/
def Db.RefundKeepsSession (db : Db) (saleId : ℕ) : Prop :=
  ∀ found ∈ db.packageOfSale saleId, ∀ s ∈ db.sales.get? saleId,
    if s.paymentStatus = .paid then s.total = 0
    else IsCents (s.total * found.2.usedSessions / found.2.totalSessions)

instance (db : Db) (saleId : ℕ) : Decidable (db.RefundKeepsSession saleId) := by
  unfold Db.RefundKeepsSession
  infer_instance

/-- The sale whose remainder a request refunds. -/
def Request.refundedSale : Request → Option ℕ
  | .refundIssuedRemainder _ saleId => some saleId
  | _ => none

/-- The condition on a request. -/
def Db.KeepsSession (db : Db) (r : Request) : Prop :=
  ∀ saleId ∈ r.refundedSale, db.RefundKeepsSession saleId

instance (db : Db) (r : Request) : Decidable (db.KeepsSession r) := by
  unfold Db.KeepsSession
  infer_instance

/-- An offer has a price. -/
def Request.Priced : Request → Prop
  | .purchaseClientPackage _ _ pkg _ => 0 ≤ pkg.price
  | _ => True

/-! ## What a refund does to the worth of a session -/

section Refund

variable {offers : ℕ → ServicePackage} {db : Db} {saleId : ℕ}

theorem sessionValue_of_sale {k x : ℕ} {p : ClientPackage} {s : Sale}
    (hk : db.packages.get? k = some p) (hx : p.saleId = some x) (hs : db.sales.get? x = some s) :
    db.sessionValue offers k = some (s.total / p.totalSessions) := by
  simp [Db.sessionValue, ClientPackage.sessionValue, ClientPackage.soldSessions,
    ClientPackage.issuing, hk, hx, hs]

/-- The worth of a session moves only with the package and the sale that issued it. -/
theorem sessionValue_congr {db' : Db} {k : ℕ} (hk : db'.packages.get? k = db.packages.get? k)
    (hs : ∀ p x, db.packages.get? k = some p → p.saleId = some x →
      (db'.sales.get? x).map (·.total) = (db.sales.get? x).map (·.total)) :
    db'.sessionValue offers k = db.sessionValue offers k := by
  unfold Db.sessionValue
  rw [hk]
  cases hp : db.packages.get? k with
  | none => rfl
  | some p =>
    simp only [Option.map_some, Option.some.injEq, ClientPackage.sessionValue,
      ClientPackage.soldSessions, ClientPackage.issuing]
    cases hx : p.saleId with
    | none => rfl
    | some x =>
      have htotal := hs p x hp hx
      cases hsale : db.sales.get? x with
      | none =>
        rw [hsale] at htotal
        rw [Option.bind_some, Option.bind_some, hsale, Option.map_eq_none_iff.1 htotal]
      | some s =>
        rw [hsale] at htotal
        obtain ⟨s', hs', hst⟩ := Option.map_eq_some_iff.1 htotal
        rw [Option.bind_some, Option.bind_some, hsale, hs', Option.elim_some, Option.elim_some, hst]
        rfl

namespace Refund

variable {r : Refund} {ctx : Caller} {openSession : Option ℕ} {sales : Table Sale}

@[simp] theorem total_lowerEarned (network : Network) (s : Sale) :
    (r.lowerEarned network s).total = s.total := by
  unfold lowerEarned
  split <;> rfl

/-- The row of a sale after the refund of its remainder. -/
theorem get?_sales {sales' : Table Sale} (h : sales' = r.sales ctx saleId openSession sales) {x : ℕ}
    {s : Sale} (hs : sales.get? x = some s) :
    sales'.get? x = some
      (if x = saleId then
        if r.paid then r.lowerEarned ctx.shop.network s else r.lower ctx.shop.network s
      else s) := by
  subst h
  unfold Refund.sales
  by_cases hpaid : r.paid = true
  · simp only [hpaid, if_true, Table.get?_modify]
    have hkept : (if 0 < r.amount then sales.insert (r.sale ctx saleId openSession)
        else sales).get? x = some s := by
      split
      · exact Table.get?_insert_of_some _ hs
      · exact hs
    rw [hkept]
    split <;> rfl
  · simp only [hpaid, if_false, Table.get?_modify, hs, Bool.false_eq_true]
    split <;> rfl

theorem next_sales : sales.next ≤ (r.sales ctx saleId openSession sales).next := by
  unfold Refund.sales
  split
  · simp only [Table.next_modify]
    split
    · exact Nat.le_succ _
    · exact le_rfl
  · exact le_rfl

end Refund

/-- The state after a refund of a package's remainder. -/
theorem refundOfPackage {ctx : Caller} {db' : Db}
    (h : refundIssuedRemainder ctx saleId (fun _ => db) db = .ok db') {found : ℕ × ClientPackage}
    (hfound : db.packageOfSale saleId = some found) :
    ∃ existing r, db.sales.get? saleId = some existing ∧
      db.packages.get? found.1 = some found.2 ∧ found.2.saleId = some saleId ∧
      0 < found.2.usedSessions ∧ found.2.usedSessions < found.2.totalSessions ∧
      r = { existing := existing, itemType := .package,
            newTotal := round2 (existing.total * found.2.usedSessions / found.2.totalSessions) } ∧
      db.packages.tryModify found.1 (found.2.sameSessions saleId) (found.2.closeAt ctx.now) =
        some db'.packages ∧
      db'.packageUses = db.packageUses ∧
      db'.sales = Refund.sales r ctx saleId (db.openSession ctx.shop.id) db.sales := by
  obtain ⟨existing, s, hexisting, -, -, -, r, packages, cards, rfl, hr, rfl⟩ :=
    refundIssuedRemainder_ok h
  obtain ⟨hk, hx⟩ := Db.packageOfSale_some (k := found.1) (p := found.2) hfound
  rcases hr with ⟨found', hfound', hr, -⟩ | ⟨-, hnone, -⟩
  · obtain rfl : found = found' := Option.some.inj (hfound.symm.trans hfound')
    obtain ⟨hused, -, hleft, heq, hmod⟩ := refundPackage_ok hr
    exact ⟨r.existing, r, hexisting, hk, hx, hused, hleft, heq, hmod, rfl, rfl⟩
  · rw [hfound] at hnone
    cases hnone

/-- The state after a refund of what is no package. -/
theorem refundOfCard {ctx : Caller} {db' : Db}
    (h : refundIssuedRemainder ctx saleId (fun _ => db) db = .ok db')
    (hnone : db.packageOfSale saleId = none) :
    ∃ r, saleId < db.sales.next ∧ db'.packages = db.packages ∧
      db'.packageUses = db.packageUses ∧
      db'.sales = Refund.sales r ctx saleId (db.openSession ctx.shop.id) db.sales := by
  obtain ⟨existing, s, -, -, -, hs, r, packages, cards, -, hr, rfl⟩ := refundIssuedRemainder_ok h
  rcases hr with ⟨found, hfound, -⟩ | ⟨found, -, -, -, rfl⟩
  · rw [hnone] at hfound
    cases hfound
  · exact ⟨r, Table.lt_next_of_get? hs, rfl, rfl, rfl⟩

/-- The worth of a session of the refunded package, before and after. -/
theorem sessionValue_refunded (offers : ℕ → ServicePackage) {ctx : Caller} {db' : Db}
    (h : refundIssuedRemainder ctx saleId (fun _ => db) db = .ok db') {found : ℕ × ClientPackage}
    (hfound : db.packageOfSale saleId = some found) :
    ∃ s, db.sales.get? saleId = some s ∧
      db.sessionValue offers found.1 = some (s.total / found.2.totalSessions) ∧
      db'.sessionValue offers found.1 = some
        ((if s.paymentStatus = .paid then s.total
          else round2 (s.total * found.2.usedSessions / found.2.totalSessions)) /
            found.2.usedSessions) := by
  obtain ⟨s, r, hs, hk, hx, -, -, hr, hmod, -, hsales⟩ := refundOfPackage h hfound
  obtain ⟨-, -, -, hpackages⟩ := Table.tryModify_eq_some.1 hmod
  refine ⟨s, hs, sessionValue_of_sale hk hx hs, ?_⟩
  have hk' : db'.packages.get? found.1 = some (found.2.closeAt ctx.now found.2) := by
    rw [hpackages, Table.get?_modify_self, hk, Option.map_some]
  have hs' := Refund.get?_sales hsales hs
  rw [if_pos rfl] at hs'
  rw [sessionValue_of_sale hk' hx hs']
  subst hr
  simp only [Refund.paid, beq_iff_eq, ClientPackage.closeAt]
  split <;> simp [Refund.lower]

/-- A refund of a package's remainder leaves the worth of its sessions exactly under the
condition. -/
theorem refund_keeps_iff {ctx : Caller} {db' : Db}
    (h : refundIssuedRemainder ctx saleId (fun _ => db) db = .ok db') {found : ℕ × ClientPackage}
    (hfound : db.packageOfSale saleId = some found) :
    db'.sessionValue offers found.1 = db.sessionValue offers found.1 ↔
      db.RefundKeepsSession saleId := by
  obtain ⟨s, hs, hbefore, hafter⟩ := sessionValue_refunded offers h hfound
  obtain ⟨_, _, -, -, -, hused, hleft, -⟩ := refundOfPackage h hfound
  have hu : (0 : ℚ) < found.2.usedSessions := by exact_mod_cast hused
  have hn : (found.2.usedSessions : ℚ) < found.2.totalSessions := by exact_mod_cast hleft
  have hn₀ : (found.2.totalSessions : ℚ) ≠ 0 := (hu.trans hn).ne'
  rw [hbefore, hafter, Option.some.injEq]
  simp only [Db.RefundKeepsSession, hfound, hs, Option.mem_some_iff, forall_eq']
  split
  · rw [div_eq_div_iff hu.ne' hn₀]
    constructor
    · intro heq
      have hzero : s.total * (found.2.totalSessions - found.2.usedSessions) = 0 := by linarith
      exact (mul_eq_zero.1 hzero).resolve_right (sub_ne_zero.2 hn.ne')
    · intro hzero
      rw [hzero, zero_mul, zero_mul]
  · rw [isCents_iff, div_eq_div_iff hu.ne' hn₀, eq_div_iff hn₀]

end Refund

/-! ## The law -/

/-- A sale that issued a package: no edit moves its total, and nothing was paid before it. -/
structure Sale.SellsPackage (s : Sale) : Prop where
  type : s.saleType = .package
  total : IsCents s.total
  nonneg : 0 ≤ s.total
  applied : s.applied = 0

/-- What holds of packages, their uses and the sales that issued them while no refund breaks the
condition. -/
structure SessionLaw (db : Db) : Prop where
  within : PackagesWithin db.packages
  counted : ∀ k, sessionsOf db.packages k = activeCount db.packageUses k
  issued : ∀ k p x, db.packages.get? k = some p → p.saleId = some x →
    ∃ s, db.sales.get? x = some s ∧ s.SellsPackage
  unique : ∀ k k' p p' x, db.packages.get? k = some p → db.packages.get? k' = some p' →
    p.saleId = some x → p'.saleId = some x → k = k'
  /-- No refund of its own is of the sale of a package. -/
  refunds : ∀ i s x, db.sales.get? i = some s → s.refunds x = true →
    x < db.sales.next ∧ ∀ k p, db.packages.get? k = some p → p.saleId ≠ some x

/-- No package is linked to a sale that it was not linked to before. -/
def LinksKept (packages packages' : Table ClientPackage) : Prop :=
  ∀ k q x, packages'.get? k = some q → q.saleId = some x →
    ∃ p, packages.get? k = some p ∧ p.saleId = some x

namespace LinksKept

variable {packages packages' packages'' : Table ClientPackage}

theorem refl (packages : Table ClientPackage) : LinksKept packages packages :=
  fun _ q _ hk hx => ⟨q, hk, hx⟩

theorem trans (h : LinksKept packages packages') (h' : LinksKept packages' packages'') :
    LinksKept packages packages'' := by
  intro k q x hk hx
  obtain ⟨p, hp, hpx⟩ := h' k q x hk hx
  exact h k p x hp hpx

theorem modify (j : ℕ) {f : ClientPackage → ClientPackage} (hf : ∀ p, (f p).saleId = p.saleId) :
    LinksKept packages (packages.modify j f) := by
  intro k q x hk hx
  rw [Table.get?_modify] at hk
  split at hk
  · obtain ⟨p, hp, rfl⟩ := Option.map_eq_some_iff.1 hk
    exact ⟨p, hp, (hf p).symm.trans hx⟩
  · exact ⟨q, hk, hx⟩

theorem tryModify {j : ℕ} {c : ClientPackage → Bool} {f : ClientPackage → ClientPackage}
    (hf : ∀ p, (f p).saleId = p.saleId) (h : packages.tryModify j c f = some packages') :
    LinksKept packages packages' := by
  obtain ⟨p, -, -, rfl⟩ := Table.tryModify_eq_some.1 h
  exact .modify j hf

theorem restoreUses (now : ℤ) (userId : ℕ) (found : List (ℕ × ClientPackageUse))
    (t : Table ClientPackage × Table ClientPackageUse) :
    LinksKept t.1 (restorePackageUses now userId found t).1 := by
  induction found generalizing t with
  | nil => exact .refl t.1
  | cons u found ih =>
    rw [restorePackageUses_cons]
    refine .trans ?_ (ih _)
    rcases restorePackageUse_cases now userId u.1 u.2.clientPackageId t with
      he | ⟨packages, hmod, he⟩
    · rw [he]
      exact .refl t.1
    · rw [he]
      exact .tryModify (f := ClientPackage.restore) (fun _ => rfl) hmod

/-- A deleted sale is linked to no package. -/
theorem unlink (saleId : ℕ) {k x : ℕ} {q : ClientPackage}
    (hk : (unlinkPackages saleId packages).get? k = some q) (hx : q.saleId = some x) :
    x ≠ saleId ∧ ∃ p, packages.get? k = some p ∧ p.saleId = some x := by
  rw [unlinkPackages, Table.get?_modifyAll] at hk
  obtain ⟨p, hp, rfl⟩ := Option.map_eq_some_iff.1 hk
  by_cases hlinked : p.saleId = some saleId
  · rw [if_pos hlinked] at hx
    cases hx
  · rw [if_neg hlinked] at hx
    exact ⟨fun e => hlinked (e ▸ hx), p, hp, hx⟩

end LinksKept

namespace SessionLaw

variable {db db' : Db}

/-- What a request that issues no package has to keep. -/
theorem of_kept (hI : SessionLaw db) (hwithin : PackagesWithin db'.packages)
    (hcounted : ∀ k, sessionsOf db'.packages k = activeCount db'.packageUses k)
    (hlinks : LinksKept db.packages db'.packages) (hnext : db.sales.next ≤ db'.sales.next)
    (hsells : ∀ k q x a, db'.packages.get? k = some q → q.saleId = some x →
      db.sales.get? x = some a → a.SellsPackage → ∃ b, db'.sales.get? x = some b ∧ b.SellsPackage)
    (hrefunds : ∀ i b x, db'.sales.get? i = some b → b.refunds x = true →
      (∃ a, db.sales.get? i = some a ∧ a.refunds x = true) ∨
        (x < db.sales.next ∧ ∀ k p, db.packages.get? k = some p → p.saleId ≠ some x)) :
    SessionLaw db' where
  within := hwithin
  counted := hcounted
  issued k q x hk hx := by
    obtain ⟨p, hp, hpx⟩ := hlinks k q x hk hx
    obtain ⟨a, ha, hsells'⟩ := hI.issued k p x hp hpx
    exact hsells k q x a hk hx ha hsells'
  unique k k' q q' x hk hk' hx hx' := by
    obtain ⟨p, hp, hpx⟩ := hlinks k q x hk hx
    obtain ⟨p', hp', hpx'⟩ := hlinks k' q' x hk' hx'
    exact hI.unique k k' p p' x hp hp' hpx hpx'
  refunds i b x hi hb := by
    have hold : x < db.sales.next ∧ ∀ k p, db.packages.get? k = some p → p.saleId ≠ some x := by
      rcases hrefunds i b x hi hb with ⟨a, ha, hax⟩ | hnew
      · exact hI.refunds i a x ha hax
      · exact hnew
    refine ⟨hold.1.trans_le hnext, fun k q hk hx => ?_⟩
    obtain ⟨p, hp, hpx⟩ := hlinks k q x hk hx
    exact hold.2 k p hp hpx

/-- Sales that stay, up to a new one that is no refund. -/
theorem of_sales (hI : SessionLaw db) (hwithin : PackagesWithin db'.packages)
    (hcounted : ∀ k, sessionsOf db'.packages k = activeCount db'.packageUses k)
    (hlinks : LinksKept db.packages db'.packages)
    (hsales : db'.sales = db.sales ∨ ∃ s, s.saleType ≠ .refund ∧ db'.sales = db.sales.insert s) :
    SessionLaw db' := by
  rcases hsales with hsales | ⟨s, htype, hsales⟩
  · refine hI.of_kept hwithin hcounted hlinks (by rw [hsales]) ?_ ?_
    · exact fun _ _ x a _ _ ha hsells => ⟨a, by rw [hsales, ha], hsells⟩
    · exact fun i b x hi hb => .inl ⟨b, by rw [← hsales, hi], hb⟩
  · refine hI.of_kept hwithin hcounted hlinks (by rw [hsales]; exact Nat.le_succ _) ?_ ?_
    · exact fun _ _ x a _ _ ha hsells =>
        ⟨a, by rw [hsales, Table.get?_insert_of_some _ ha], hsells⟩
    · intro i b x hi hb
      rw [hsales] at hi
      rcases Table.get?_insert_cases hi with ⟨-, rfl⟩ | hold
      · simp [Sale.refunds, htype] at hb
      · exact .inl ⟨b, hold, hb⟩

/-- A request that moves neither packages nor their uses. -/
theorem of_same (hI : SessionLaw db) (hpackages : db'.packages = db.packages)
    (huses : db'.packageUses = db.packageUses)
    (hsales : db'.sales = db.sales ∨ ∃ s, s.saleType ≠ .refund ∧ db'.sales = db.sales.insert s) :
    SessionLaw db' :=
  hI.of_sales (by rw [hpackages]; exact hI.within) (by rw [hpackages, huses]; exact hI.counted)
    (by rw [hpackages]; exact .refl _) hsales

/-! ### Requests -/

variable {cat : Catalog} {ctx : Caller}

/-- The package of a purchase is linked to its own new sale. -/
theorem purchase (hI : SessionLaw db) {customerId : ℕ} {pkg : ServicePackage}
    {method : Option PaymentMethod} (hprice : 0 ≤ pkg.price)
    (h : purchaseClientPackage ctx customerId pkg method db = .ok db') : SessionLaw db' := by
  obtain rfl := purchaseClientPackage_ok h
  have hpos := pkg.pos
  have hnew : ∀ k q x, (db.packages.insert
      (newClientPackage ctx customerId pkg db.sales.next)).get? k = some q → q.saleId = some x →
      (k = db.packages.next ∧ x = db.sales.next) ∨ (db.packages.get? k = some q ∧
        x < db.sales.next) := by
    intro k q x hk hx
    rcases Table.get?_insert_cases hk with ⟨rfl, rfl⟩ | hold
    · exact .inl ⟨rfl, (Option.some.inj hx).symm⟩
    · obtain ⟨s, hs, -⟩ := hI.issued k q x hold hx
      exact .inr ⟨hold, Table.lt_next_of_get? hs⟩
  constructor
  · refine hI.within.insert ⟨Nat.zero_le _, fun _ => ⟨fun h => (by cases h), fun h => ?_⟩⟩
    simp only [newClientPackage] at h
    omega
  · intro k
    change sessionsOf (db.packages.insert _) k = _
    rw [← hI.counted k, sessionsOf, Table.value_insert]
    split
    · next hk =>
      rw [hk, sessionsOf, Table.value_of_none _ (Table.get?_next _)]
      rfl
    · rfl
  · intro k q x hk hx
    rcases hnew k q x hk hx with ⟨-, rfl⟩ | ⟨hold, -⟩
    · refine ⟨_, Table.get?_insert_self .., rfl, isCents_round2 _, round2_nonneg hprice, ?_⟩
      simp [Sale.applied, standaloneSale]
    · obtain ⟨s, hs, hsells⟩ := hI.issued k q x hold hx
      exact ⟨s, Table.get?_insert_of_some _ hs, hsells⟩
  · intro k k' q q' x hk hk' hx hx'
    rcases hnew k q x hk hx with ⟨rfl, hnext⟩ | ⟨hold, hlt⟩ <;>
      rcases hnew k' q' x hk' hx' with ⟨rfl, hnext'⟩ | ⟨hold', hlt'⟩
    · rfl
    · omega
    · omega
    · exact hI.unique k k' q q' x hold hold' hx hx'
  · intro i s x hi hs
    rcases Table.get?_insert_cases hi with ⟨-, rfl⟩ | hold
    · simp [Sale.refunds, standaloneSale] at hs
    · obtain ⟨hlt, hnone⟩ := hI.refunds i s x hold hs
      refine ⟨hlt.trans (Nat.lt_succ_self _), fun k q hk hx => ?_⟩
      rcases hnew k q x hk hx with ⟨-, rfl⟩ | ⟨hk', -⟩
      · exact absurd hlt (lt_irrefl _)
      · exact hnone k q hk' hx

/-- A debit writes the session and its row. -/
theorem counted_debit (hI : SessionLaw db) {id : ℕ} {now : ℤ} {packages : Table ClientPackage}
    (hp : debitPackage id now db.packages = .ok packages) {u : ClientPackageUse}
    (hu : u.undoneAt = none) (hk : u.clientPackageId = id) (k : ℕ) :
    sessionsOf packages k = activeCount (db.packageUses.insert u) k := by
  rw [sessionsOf_debit hp, activeCount_insert hu, hI.counted k, hk]

theorem debit (hI : SessionLaw db) {id : ℕ}
    (h : debitClientPackageSession ctx id db = .ok db') : SessionLaw db' := by
  obtain ⟨db₁, h₁, rfl⟩ := map_eq_ok.1 h
  obtain ⟨packages, hp, rfl⟩ := startDebit_ok h₁
  refine hI.of_sales (hI.within.debit hp) (hI.counted_debit hp rfl rfl) ?_ (.inl rfl)
  exact .tryModify (f := ClientPackage.debit) (fun _ => rfl) (orRefuse_eq_ok.1 hp)

theorem undo (hI : SessionLaw db) {useId : ℕ}
    (h : undoClientPackageUse ctx useId db = .ok db') : SessionLaw db' := by
  obtain ⟨db₁, h₁, rfl⟩ := map_eq_ok.1 h
  obtain ⟨use, packages, hcheck, hp, rfl⟩ := startUndo_ok h₁
  obtain ⟨huse, hactive, -⟩ := checkUndo_ok hcheck
  refine hI.of_sales (hI.within.restore hp) (fun k => ?_) ?_ (.inl rfl)
  · change sessionsOf packages k = activeCount (db.packageUses.modify useId _) k
    rw [sessionsOf_restore hp, activeCount_undo huse hactive, hI.counted k]
    split <;> omega
  · exact .tryModify (f := ClientPackage.restore) (fun _ => rfl) hp

theorem createSale (hI : SessionLaw db) {data : SaleInput}
    (h : Barbershop.createSale cat ctx data (fun _ => db) db = .ok db') : SessionLaw db' := by
  obtain ⟨plan, hchecked, hcommit⟩ := createSale_ok h
  obtain ⟨cards, club, packages, customers, -, -, hp, -, rfl⟩ := commitSale_ok hcommit
  have htype : (plan.sale ctx).saleType ≠ .refund := by
    intro hrefund
    have hstaff := hchecked.staff
    rw [← hchecked.data_eq, show plan.data.saleType = .refund from hrefund] at hstaff
    cases hstaff
  unfold SalePlan.debitPackage at hp
  cases hplan : plan.package with
  | none =>
    simp only [hplan, pure_eq_ok] at hp
    refine hI.of_same hp.symm ?_ (.inr ⟨_, htype, rfl⟩)
    simp [SalePlan.recordPackageUse, hplan]
  | some id =>
    simp only [hplan] at hp
    refine hI.of_sales (hI.within.debit hp) (fun k => ?_) ?_ (.inr ⟨_, htype, rfl⟩)
    · simp only [SalePlan.recordPackageUse, hplan]
      exact hI.counted_debit hp rfl rfl k
    · exact .tryModify (f := ClientPackage.debit) (fun _ => rfl) (orRefuse_eq_ok.1 hp)

theorem deleteSale (hI : SessionLaw db) {saleId : ℕ}
    (h : Barbershop.deleteSale ctx saleId (fun _ => db) db = .ok db') : SessionLaw db' := by
  obtain ⟨existing, packages, cards, s, -, hp, -, hs, rfl⟩ := deleteSale_ok h
  have hcancel : (∀ k, sessionsOf packages k = sessionsOf db.packages k) ∧
      PackagesWithin packages ∧ LinksKept db.packages packages := by
    rcases cancelIssuedPackage_ok hp with rfl | ⟨j, hmod⟩
    · exact ⟨fun _ => rfl, hI.within, .refl _⟩
    · refine ⟨fun k => ?_, hI.within.tryModify (fun _ hw _ => hw.cancel) hmod,
        .tryModify (f := ClientPackage.cancel) (fun _ => rfl) hmod⟩
      obtain ⟨a, -, -, rfl⟩ := Table.tryModify_eq_some.1 hmod
      exact sessionsOf_modify_eq (f := ClientPackage.cancel) j (fun _ => rfl) k
  have hactive : StillActive (db.activeUses saleId) db.packageUses := by
    refine ⟨Table.nodup_filter .., fun f hf => ?_⟩
    obtain ⟨hget, hmatch⟩ := Table.mem_filter.1 hf
    simp only [Bool.and_eq_true, Option.isNone_iff_eq_none] at hmatch
    exact ⟨f.2, hget, rfl, hmatch.2⟩
  have hlinks := hcancel.2.2.trans (.restoreUses ctx.now ctx.userId (db.activeUses saleId)
    (packages, db.packageUses))
  refine hI.of_kept ((restorePackageUses_within _ _ hcancel.2.1).unlink saleId) (fun k => ?_) ?_
    le_rfl ?_ ?_
  · have hrestored := restorePackageUses_counts ctx.now ctx.userId
      (t := (packages, db.packageUses)) hactive k
    have hcounted := hI.counted k
    dsimp only at hrestored ⊢
    rw [hcancel.1 k] at hrestored
    rw [sessionsOf_unlinkPackages]
    omega
  · intro k q x hk hx
    obtain ⟨-, p, hp', hpx⟩ := LinksKept.unlink saleId hk hx
    exact hlinks k p x hp' hpx
  · intro k q x a hk hx ha hsells
    obtain ⟨hne, -⟩ := LinksKept.unlink saleId hk hx
    exact ⟨a, by rw [Table.get?_erase, if_neg hne, ha], hsells⟩
  · intro i b x hi hb
    exact .inl ⟨b, (Table.get?_erase_some hi).2, hb⟩

/-- An edit makes no refund of a sale. -/
theorem checkEdit_type {data : SalePatch} {existing : Sale} {closed : Bool}
    (h : checkEdit data existing closed = .ok ()) :
    data.saleType.getD existing.saleType ≠ .refund := by
  simp only [checkEdit, checkSaleKinds, bind_eq_ok, exists_punit, refuseIf_eq_ok] at h
  obtain ⟨hold, ⟨-, hstaff, -⟩, -⟩ := h
  intro hrefund
  cases htype : data.saleType with
  | none =>
    rw [htype] at hrefund
    exact hold hrefund
  | some t =>
    obtain rfl : t = .refund := by
      rw [htype] at hrefund
      exact hrefund
    refine hstaff ⟨.refund, htype, ?_, rfl⟩
    rw [Option.map_some, Ne, Option.some.injEq]
    exact fun heq => hold heq.symm

/-- The value of a sale that issued a package is locked. -/
theorem checkEdit_package {e : SaleEdit} {closed : Bool}
    (h : checkEdit e.data e.existing closed = .ok ()) (hsells : e.existing.SellsPackage) :
    e.data.saleType.getD e.existing.saleType = .package ∧ e.nextTotal = e.existing.total := by
  simp only [checkEdit, bind_eq_ok, exists_punit, refuseIf_eq_ok] at h
  obtain ⟨-, -, hlocked, -⟩ := h
  have hsame : issuedSaleValueChanged e.existing e.data = false := by
    by_contra hchanged
    exact hlocked ⟨.inl hsells.type, by simpa using hchanged⟩
  simp only [issuedSaleValueChanged, Bool.or_eq_false_iff] at hsame
  obtain ⟨⟨⟨⟨⟨htype, -⟩, -⟩, -⟩, htotal⟩, -⟩ := hsame
  constructor
  · cases ht : e.data.saleType with
    | none => exact hsells.type
    | some t =>
      rw [ht] at htype
      have : t = e.existing.saleType := by simpa using htype
      exact this.trans hsells.type
  · unfold SaleEdit.nextTotal SaleEdit.netTotal
    cases ht : e.data.total with
    | none => rfl
    | some t =>
      rw [ht] at htotal
      have hcents : cents t = cents e.existing.total := by simpa using htotal
      have hround : round2 t = e.existing.total := by
        rw [round2_eq_cents_div, hcents, ← round2_eq_cents_div, hsells.total.round2_eq]
      simp only [Option.map_some, Option.getD_some, hsells.applied, sub_zero]
      rcases le_total 0 t with hpos | hneg
      · rw [max_eq_right hpos, hround]
      · have hle := round2_mono hneg
        rw [hround, round2_zero] at hle
        rw [max_eq_left hneg, round2_zero, le_antisymm hle hsells.nonneg]

theorem updateSale (hI : SessionLaw db) {saleId : ℕ} {data : SalePatch}
    (h : Barbershop.updateSale cat ctx saleId data (fun _ => db) db = .ok db') :
    SessionLaw db' := by
  obtain ⟨e, -, hchecked, hcommit⟩ := updateSale_ok h
  obtain ⟨s, hs, rfl⟩ := commitEdit_ok hcommit
  refine hI.of_kept hI.within hI.counted (.refl _) le_rfl ?_ ?_
  · intro k q x a hk hx ha hsells
    dsimp only
    rw [Table.get?_modify]
    split
    · next hxs =>
      subst hxs
      obtain rfl : e.existing = a := Option.some.inj (hchecked.existing.symm.trans ha)
      obtain ⟨htype, htotal⟩ := checkEdit_package hchecked.edit hsells
      have hrow : (e.row ctx e.existing).total = e.existing.total := htotal
      refine ⟨e.row ctx e.existing, by rw [ha, Option.map_some], htype, ?_, ?_, ?_⟩
      · rw [hrow]
        exact hsells.total
      · rw [hrow]
        exact hsells.nonneg
      · exact hsells.applied
    · exact ⟨a, ha, hsells⟩
  · intro i b x hi hb
    dsimp only at hi
    rw [Table.get?_modify] at hi
    split at hi
    · next his =>
      obtain ⟨a, ha, rfl⟩ := Option.map_eq_some_iff.1 hi
      subst his
      obtain rfl : e.existing = a := Option.some.inj (hchecked.existing.symm.trans ha)
      have htype : (e.row ctx e.existing).saleType ≠ .refund := checkEdit_type hchecked.edit
      simp [Sale.refunds, htype] at hb
    · exact .inl ⟨b, hi, hb⟩

/-- A sale that is lowered refunds what it refunded. -/
theorem refunds_lowered {r : Refund} (network : Network) (s : Sale) (x : ℕ) :
    (if r.paid then r.lowerEarned network s else r.lower network s).refunds x = s.refunds x := by
  have hearned : ∀ s : Sale, (r.lowerEarned network s).refunds x = s.refunds x := by
    intro s
    unfold Refund.lowerEarned
    split <;> rfl
  split
  · exact hearned s
  · rw [Refund.lower, hearned]
    simp only [Sale.refunds]
    congr 1
    cases s.items with
    | nil => rfl
    | cons first rest => simp [Refund.reprice, Function.comp_def]

/-- The rows after a refund: those before, lowered, and the refund itself. -/
theorem refunds_sales {r : Refund} {saleId : ℕ} {openSession : Option ℕ} {sales : Table Sale}
    {i x : ℕ} {b : Sale}
    (hi : (r.sales ctx saleId openSession sales).get? i = some b) (hb : b.refunds x = true) :
    (∃ a, sales.get? i = some a ∧ a.refunds x = true) ∨
      (r.paid = true ∧ 0 < r.amount ∧ x = saleId) := by
  have hlowered : ∀ t : Table Sale, (t.modify saleId fun s =>
      if r.paid then r.lowerEarned ctx.shop.network s else r.lower ctx.shop.network s).get? i =
        some b → ∃ a, t.get? i = some a ∧ a.refunds x = true := by
    intro t ht
    rw [Table.get?_modify] at ht
    split at ht
    · obtain ⟨a, ha, rfl⟩ := Option.map_eq_some_iff.1 ht
      exact ⟨a, ha, by rwa [refunds_lowered] at hb⟩
    · exact ⟨b, ht, hb⟩
  unfold Refund.sales at hi
  by_cases hpaid : r.paid = true
  · simp only [hpaid, if_true] at hi hlowered
    obtain ⟨a, ha, hax⟩ := hlowered _ hi
    split at ha
    · next hamount =>
      rcases Table.get?_insert_cases ha with ⟨-, rfl⟩ | hold
      · refine .inr ⟨hpaid, hamount, ?_⟩
        have hnote : saleId = x := by simpa [Sale.refunds, Refund.sale] using hax
        exact hnote.symm
      · exact .inl ⟨a, hold, hax⟩
    · exact .inl ⟨a, ha, hax⟩
  · simp only [hpaid, if_false, Bool.false_eq_true] at hi hlowered
    exact .inl (hlowered _ hi)

/-- A sale that issued a package is still one when it is lowered. -/
theorem sells_lowered {r : Refund} {s : Sale} (h : s.SellsPackage) (hcents : IsCents r.newTotal)
    (hnonneg : 0 ≤ r.newTotal) (network : Network) :
    (if r.paid then r.lowerEarned network s else r.lower network s).SellsPackage := by
  have hearned : ∀ {s : Sale}, s.SellsPackage → (r.lowerEarned network s).SellsPackage := by
    intro s h
    unfold Refund.lowerEarned
    split
    · exact ⟨h.type, h.total, h.nonneg, h.applied⟩
    · exact h
  split
  · exact hearned h
  · exact hearned ⟨h.type, hcents, hnonneg, h.applied⟩

/-- A refund under the condition. -/
theorem refund (hI : SessionLaw db) {saleId : ℕ} (hC : db.RefundKeepsSession saleId)
    (h : refundIssuedRemainder ctx saleId (fun _ => db) db = .ok db') : SessionLaw db' := by
  cases hfound : db.packageOfSale saleId with
  | none =>
    obtain ⟨r, hlt, hpackages, huses, hsales⟩ := refundOfCard h hfound
    have hnone : ∀ k p, db.packages.get? k = some p → p.saleId ≠ some saleId :=
      fun k p hk => by simpa using Table.find?_none.1 hfound k p hk
    refine hI.of_kept (by rw [hpackages]; exact hI.within)
      (by rw [hpackages, huses]; exact hI.counted) (by rw [hpackages]; exact .refl _)
      (by rw [hsales]; exact Refund.next_sales) ?_ ?_
    · intro k q x a hk hx ha hsells
      have hne : x ≠ saleId := fun e => hnone k q (hpackages ▸ hk) (e ▸ hx)
      have hget := Refund.get?_sales hsales ha
      rw [if_neg hne] at hget
      exact ⟨a, hget, hsells⟩
    · intro i b x hi hb
      rw [hsales] at hi
      rcases refunds_sales hi hb with hold | ⟨-, -, rfl⟩
      · exact .inl hold
      · exact .inr ⟨hlt, hnone⟩
  | some found =>
    obtain ⟨s, r, hs, hk, hx, -, -, hr, hmod, huses, hsales⟩ := refundOfPackage h hfound
    refine hI.of_kept (hI.within.tryModify (fun _ _ hsame => .closeAt hsame) hmod) (fun k => ?_)
      (.tryModify (f := found.2.closeAt ctx.now) (fun _ => rfl) hmod)
      (by rw [hsales]; exact Refund.next_sales) ?_ ?_
    · obtain ⟨-, -, -, hpackages⟩ := Table.tryModify_eq_some.1 hmod
      rw [huses, hpackages, ← hI.counted k]
      exact sessionsOf_modify_eq (f := found.2.closeAt ctx.now) found.1 (fun _ => rfl) k
    · intro k q x a hk' hx' ha hsells
      refine ⟨_, Refund.get?_sales hsales ha, ?_⟩
      split
      · next hxs =>
        subst hxs
        obtain rfl : s = a := Option.some.inj (hs.symm.trans ha)
        have hused : 0 ≤ s.total * found.2.usedSessions / found.2.totalSessions :=
          div_nonneg (mul_nonneg hsells.nonneg (Nat.cast_nonneg _)) (Nat.cast_nonneg _)
        exact sells_lowered hsells (by rw [hr]; exact isCents_round2 _)
          (by rw [hr]; exact round2_nonneg hused) _
      · exact hsells
    · intro i b x hi hb
      rw [hsales] at hi
      rcases refunds_sales hi hb with hold | ⟨hpaid, hamount, -⟩
      · exact .inl hold
      · simp only [Db.RefundKeepsSession, hfound, hs, Option.mem_some_iff, forall_eq'] at hC
        subst hr
        rw [if_pos (by simpa [Refund.paid] using hpaid)] at hC
        simp [Refund.amount, hC] at hamount

end SessionLaw

theorem sessionLaw_step {cat : Catalog} {db db' : Db} {r : Request} (hI : SessionLaw db)
    (hpriced : r.Priced) (hC : db.KeepsSession r) (h : (service cat).step db r = some db') :
    SessionLaw db' := by
  rw [service_step] at h
  cases r with
  | createSale ctx data => exact hI.createSale h
  | updateSale ctx saleId data => exact hI.updateSale h
  | deleteSale ctx saleId => exact hI.deleteSale h
  | refundIssuedRemainder ctx saleId => exact hI.refund (hC saleId rfl) h
  | createGiftCard ctx data =>
    obtain ⟨-, rfl⟩ := createGiftCard_ok h
    exact hI.of_same rfl rfl (.inr ⟨_, by simp [standaloneSale], rfl⟩)
  | setGiftCardActive networkId giftCardId isActive =>
    obtain rfl := setGiftCardActive_ok h
    exact hI.of_same rfl rfl (.inl rfl)
  | purchaseClientPackage ctx customerId pkg method => exact hI.purchase hpriced h
  | debitClientPackageSession ctx id => exact hI.debit h
  | undoClientPackageUse ctx useId => exact hI.undo h
  | adjustInventory ctx data =>
    obtain ⟨_, -, rfl⟩ := map_eq_ok.1 h
    obtain ⟨_, hframe⟩ := adjustInventory_frame cat ctx data db
    rw [hframe]
    exact hI.of_same rfl rfl (.inl rfl)
  | openCashSession ctx openingBalance =>
    obtain ⟨-, rfl⟩ := openCashSession_ok h
    exact hI.of_same rfl rfl (.inl rfl)
  | closeCashSession ctx counted =>
    have hclose : Barbershop.closeCashSession ctx counted (fun _ => db) db = .ok db' := h
    obtain ⟨id, session, now, -, -, -, -, -, rfl⟩ := closeCashSession_ok hclose
    exact hI.of_same rfl rfl (.inl rfl)
  | createExpense ctx today data =>
    obtain rfl := createExpense_ok h
    exact hI.of_same rfl rfl (.inl rfl)
  | setAppointmentDepositPaid ctx id paid method =>
    have hset : Barbershop.setAppointmentDepositPaid ctx id paid method (fun _ => db) db =
      .ok db' := h
    rcases setAppointmentDepositPaid_ok hset with
      ⟨rfl, -⟩ | ⟨a, receipt, -, -, -, -, rfl⟩ | ⟨a, -, -, -, -, rfl⟩
    all_goals exact hI.of_same rfl rfl (.inl rfl)
  | markNoShowFeeCollected ctx feeId method =>
    obtain ⟨fee, method, fees, -, rfl⟩ := markNoShowFeeCollected_ok h
    exact hI.of_same rfl rfl (.inr ⟨_, by simp [noShowSale], rfl⟩)

/-! ## What the law says of the worth of sessions -/

section Law

variable {offers : ℕ → ServicePackage} {db : Db}

theorem SessionLaw.refundedOf_eq_zero (hI : SessionLaw db) {k x : ℕ} {p : ClientPackage}
    (hk : db.packages.get? k = some p) (hx : p.saleId = some x) : db.refundedOf x = 0 := by
  refine Table.sum_eq_zero fun i s hi => if_neg fun hs => ?_
  exact (hI.refunds i s x hi hs).2 k p hk hx

/-- No more sessions are used than were sold, each for its part of the price. -/
theorem SessionLaw.coveredWithin (hI : SessionLaw db) : db.CoveredWithin offers := by
  constructor
  intro k p x s hk hx hs
  obtain ⟨s', hs', hsells⟩ := hI.issued k p x hk hx
  obtain rfl : s = s' := Option.some.inj (hs.symm.trans hs')
  have hcount : activeCount db.packageUses k = p.usedSessions := by
    rw [← hI.counted k]
    exact Table.value_of_get? _ hk
  have hle : (p.usedSessions : ℚ) ≤ p.totalSessions := by
    exact_mod_cast (hI.within.within k p hk).used_le
  rw [coveredOf_eq, hcount, sessionValue_of_sale hk hx hs, Option.getD_some,
    hI.refundedOf_eq_zero hk hx, sub_zero, Int.cast_natCast]
  rcases Nat.eq_zero_or_pos p.totalSessions with hzero | hpos
  · rw [hzero, Nat.cast_zero, div_zero, mul_zero]
    exact hsells.nonneg
  · have hn : (0 : ℚ) < p.totalSessions := by exact_mod_cast hpos
    rw [← mul_div_assoc, div_le_iff₀ hn, mul_comm]
    exact mul_le_mul_of_nonneg_left hle hsells.nonneg

/-- Under the condition a refund leaves the worth of every session. -/
theorem SessionLaw.refund_keeps (hI : SessionLaw db) {ctx : Caller} {saleId : ℕ} {db' : Db}
    (hC : db.RefundKeepsSession saleId)
    (h : refundIssuedRemainder ctx saleId (fun _ => db) db = .ok db') (k : ℕ) :
    db'.sessionValue offers k = db.sessionValue offers k := by
  have hothers : ∀ {r : Refund} {x : ℕ} {s : Sale}, x ≠ saleId →
      db'.sales = r.sales ctx saleId (db.openSession ctx.shop.id) db.sales →
      db.sales.get? x = some s → (db'.sales.get? x).map (·.total) = (db.sales.get? x).map (·.total) := by
    intro r x s hne hsales hs
    rw [Refund.get?_sales hsales hs, if_neg hne, hs]
  cases hfound : db.packageOfSale saleId with
  | none =>
    obtain ⟨r, -, hpackages, -, hsales⟩ := refundOfCard h hfound
    refine sessionValue_congr (by rw [hpackages]) fun p x hk hx => ?_
    obtain ⟨s, hs, -⟩ := hI.issued k p x hk hx
    refine hothers (fun e => ?_) hsales hs
    exact absurd hx (by simpa [e] using Table.find?_none.1 hfound k p hk)
  | some found =>
    by_cases hkf : k = found.1
    · rw [hkf]
      exact (refund_keeps_iff h hfound).2 hC
    · obtain ⟨_, r, -, hk₀, hx₀, -, -, -, hmod, -, hsales⟩ := refundOfPackage h hfound
      obtain ⟨-, -, -, hpackages⟩ := Table.tryModify_eq_some.1 hmod
      refine sessionValue_congr (by rw [hpackages, Table.get?_modify_of_ne _ _ hkf]) ?_
      intro p x hk hx
      obtain ⟨s, hs, -⟩ := hI.issued k p x hk hx
      exact hothers (fun e => hkf (hI.unique k found.1 p found.2 saleId hk hk₀ (e ▸ hx) hx₀))
        hsales hs

end Law

/-! ## Runs -/

/-- A request that refunds leaves the worth of every session. -/
def SessionsKept (cat : Catalog) (offers : ℕ → ServicePackage) (db : Db) (r : Request) : Prop :=
  r.refundedSale.isSome = true → ∀ db', (service cat).step db r = some db' →
    ∀ k, db'.sessionValue offers k = db.sessionValue offers k

theorem refundedSale_eq_some {r : Request} {saleId : ℕ} (h : r.refundedSale = some saleId) :
    ∃ ctx, r = .refundIssuedRemainder ctx saleId := by
  cases r with
  | refundIssuedRemainder ctx id =>
    obtain rfl : id = saleId := Option.some.inj h
    exact ⟨ctx, rfl⟩
  | _ => cases h

/-- A refund that leaves the worth of every session meets the condition. -/
theorem keepsSession_of_kept {cat : Catalog} {offers : ℕ → ServicePackage} {db db' : Db}
    {r : Request} (hstep : (service cat).step db r = some db') (hkept : SessionsKept cat offers db r) :
    db.KeepsSession r := by
  intro saleId hr
  obtain ⟨ctx, rfl⟩ := refundedSale_eq_some hr
  cases hfound : db.packageOfSale saleId with
  | none => exact fun found hf => by simp [hfound] at hf
  | some found =>
    exact (refund_keeps_iff (service_step.1 hstep) hfound).1 (hkept rfl db' hstep found.1)

theorem SessionLaw.kept {cat : Catalog} {offers : ℕ → ServicePackage} {db : Db} {r : Request}
    (hI : SessionLaw db) (hC : db.KeepsSession r) : SessionsKept cat offers db r := by
  intro hr db' hstep
  obtain ⟨saleId, hsome⟩ := Option.isSome_iff_exists.1 hr
  obtain ⟨ctx, rfl⟩ := refundedSale_eq_some hsome
  exact hI.refund_keeps (hC saleId rfl) (service_step.1 hstep)

theorem sessionLaw_start (db : Db) : SessionLaw (Desk.start db).db where
  within := ⟨fun _ _ h => by cases h⟩
  counted _ := rfl
  issued _ _ _ h := by cases h
  unique _ _ _ _ _ h := by cases h
  refunds _ _ _ h := by cases h

/-- Along a run under the condition the law holds, refunds leave the worth of sessions, and the used
ones are worth no more than what was kept. -/
theorem sessions_kept_of_meets {cat : Catalog} {offers : ℕ → ServicePackage} {db : Db}
    {as : List Request} (hI : SessionLaw db) (hpriced : ∀ r ∈ as, r.Priced)
    (hC : (service cat).Meets Db.KeepsSession db as) :
    (service cat).Meets (SessionsKept cat offers) db as ∧
      (service cat).Always (·.CoveredWithin offers) db as := by
  induction as generalizing db with
  | nil => exact ⟨trivial, hI.coveredWithin⟩
  | cons r as ih =>
    have hrest : ∀ db', (service cat).step db r = some db' →
        (service cat).Meets (SessionsKept cat offers) db' as ∧
          (service cat).Always (·.CoveredWithin offers) db' as := by
      intro db' hstep
      refine ih (sessionLaw_step hI (hpriced r List.mem_cons_self) hC.1 hstep) ?_ (hC.2 db' hstep)
      exact fun r' hr' => hpriced r' (List.mem_cons_of_mem r hr')
    exact ⟨⟨hI.kept hC.1, fun db' hstep => (hrest db' hstep).1⟩, hI.coveredWithin,
      fun db' hstep => (hrest db' hstep).2⟩

theorem meets_of_sessions_kept {cat : Catalog} {offers : ℕ → ServicePackage} {db db' : Db}
    {as : List Request} (hrun : (service cat).run db as = some db')
    (hkept : (service cat).Meets (SessionsKept cat offers) db as) :
    (service cat).Meets Db.KeepsSession db as := by
  induction as generalizing db with
  | nil => exact trivial
  | cons r as ih =>
    obtain ⟨db₁, hstep, hrest⟩ := (service cat).run_cons.1 hrun
    refine ⟨keepsSession_of_kept hstep hkept.1, fun db₂ hstep' => ?_⟩
    obtain rfl := Option.some.inj (hstep.symm.trans hstep')
    exact ih hrest (hkept.2 db₁ hstep)

/-- In a run from before anything was sold, every refund leaves the worth of every session and the
used sessions of a package are never worth more than the client paid less what was refunded, exactly
when every refund meets the condition. -/
theorem session_values_kept_iff {cat : Catalog} {offers : ℕ → ServicePackage} {db db' : Db}
    {as : List Request} (hpriced : ∀ r ∈ as, r.Priced)
    (hrun : (service cat).run (Desk.start db).db as = some db') :
    ((service cat).Meets (SessionsKept cat offers) (Desk.start db).db as ∧
        (service cat).Always (·.CoveredWithin offers) (Desk.start db).db as) ↔
      (service cat).Meets Db.KeepsSession (Desk.start db).db as := by
  constructor
  · exact fun h => meets_of_sessions_kept hrun h.1
  · exact fun h => sessions_kept_of_meets (sessionLaw_start db) hpriced h

/-- A catalog with one service and one professional. -/
def oneSessionService : Catalog where
  services s := if s = 1 then some { barbershopId := 1, isActive := true, unit := "UNIT" } else none
  products _ := none
  serviceHistories _ := none
  barbers := Table.empty.insert
    { barbershopId := 1, userId := none, professionalId := none, bookable := true, isActive := true,
      accessStartsAt := none, accessEndsAt := none }

/-- A haircut by the professional that a package covers. -/
def coveredHaircut (clientPackageId : ℕ) : SaleInput :=
  { haircutSale (some 1) 0 with
    barberId := some 1
    items := [{ haircut 0 with serviceId := some 1 }]
    clientPackageId := some clientPackageId }

/-- One of the two sessions of a package is used. -/
def oneUsed (method : Option PaymentMethod) : List Request :=
  [.purchaseClientPackage (owner 0) 1 twoSessions method,
    .createSale (owner 1) (coveredHaircut 1)]

/-- The other one is refunded. -/
def otherRefunded (method : Option PaymentMethod) : List Request :=
  oneUsed method ++ [.refundIssuedRemainder (owner 2) 1]

/-- On a package that was not paid yet, the session is worth fifty throughout. -/
theorem otherRefunded_pending : ∃ db',
    (service oneSessionService).run (Desk.start (oneCustomer 0)).db (otherRefunded none) = some db' ∧
      db'.coveredSessionValues (fun _ => twoSessions) (fun _ => none) 2
        { haircut 0 with serviceId := some 1 } = 50 ∧
      (service oneSessionService).Meets (SessionsKept oneSessionService fun _ => twoSessions)
        (Desk.start (oneCustomer 0)).db (otherRefunded none) ∧
      (service oneSessionService).Always (·.CoveredWithin fun _ => twoSessions)
        (Desk.start (oneCustomer 0)).db (otherRefunded none) := by
  have hrun : ((service oneSessionService).run (Desk.start (oneCustomer 0)).db (otherRefunded none)).any
      (fun db' => decide (db'.coveredSessionValues (fun _ => twoSessions) (fun _ => none) 2
        { haircut 0 with serviceId := some 1 } = 50)) = true := by
    decide +kernel
  obtain ⟨db', hdb, hvalue⟩ := (Option.any_eq_true _ _).1 hrun
  refine ⟨db', hdb, of_decide_eq_true hvalue, (session_values_kept_iff ?_ hdb).2 ?_⟩
  · simp [otherRefunded, oneUsed, Request.Priced, twoSessions]
  · decide +kernel

/-- On a package that was paid, the refund makes the session worth all that was paid, and the
professional's forty per cent of it move from twenty to forty. -/
theorem otherRefunded_paid : ∃ db₁ db₂,
    (service oneSessionService).run (Desk.start (oneCustomer 0)).db (oneUsed (some .cash)) = some db₁ ∧
    (service oneSessionService).run (Desk.start (oneCustomer 0)).db (otherRefunded (some .cash)) =
      some db₂ ∧
    (db₁.sessionValue (fun _ => twoSessions) 1 = some 50 ∧
      db₂.sessionValue (fun _ => twoSessions) 1 = some 100) ∧
    ((db₁.commissionTerms (fun _ => twoSessions) (fun _ => none) [⟨none, none, 40⟩]).saleCommission
        1 2 1 db₁.sales = 20 ∧
      (db₂.commissionTerms (fun _ => twoSessions) (fun _ => none) [⟨none, none, 40⟩]).saleCommission
        1 2 1 db₂.sales = 40) ∧
    (db₂.coveredOf (fun _ => twoSessions) 1 = 100 ∧ db₂.refundedOf 1 = 50) ∧
    ¬db₂.CoveredWithin fun _ => twoSessions := by
  have hfirst : ((service oneSessionService).run (Desk.start (oneCustomer 0)).db
      (oneUsed (some .cash))).any (fun db₁ =>
        decide (db₁.sessionValue (fun _ => twoSessions) 1 = some 50) &&
        decide ((db₁.commissionTerms (fun _ => twoSessions) (fun _ => none)
          [⟨none, none, 40⟩]).saleCommission 1 2 1 db₁.sales = 20)) = true := by
    decide +kernel
  have hsecond : ((service oneSessionService).run (Desk.start (oneCustomer 0)).db
      (otherRefunded (some .cash))).any (fun db₂ =>
        decide (db₂.sessionValue (fun _ => twoSessions) 1 = some 100) &&
        decide ((db₂.commissionTerms (fun _ => twoSessions) (fun _ => none)
          [⟨none, none, 40⟩]).saleCommission 1 2 1 db₂.sales = 40) &&
        decide (db₂.coveredOf (fun _ => twoSessions) 1 = 100 ∧ db₂.refundedOf 1 = 50) &&
        (db₂.packages.get? 1).any (fun p => p.saleId == some 1) &&
        (db₂.sales.get? 1).any fun s => s.total == 100) = true := by
    decide +kernel
  obtain ⟨db₁, h₁, hp₁⟩ := (Option.any_eq_true _ _).1 hfirst
  obtain ⟨db₂, h₂, hp₂⟩ := (Option.any_eq_true _ _).1 hsecond
  simp only [Bool.and_eq_true, decide_eq_true_eq, Option.any_eq_true, beq_iff_eq] at hp₁ hp₂
  obtain ⟨⟨⟨⟨hvalue, hcommission⟩, hcovered, hrefunded⟩, p, hk, hx⟩, s, hs, htotal⟩ := hp₂
  refine ⟨db₁, db₂, h₁, h₂, ⟨hp₁.1, hvalue⟩, ⟨hp₁.2, hcommission⟩, ⟨hcovered, hrefunded⟩,
    fun hwithin => ?_⟩
  have hle := hwithin.within 1 p 1 s hk hx hs
  rw [hcovered, htotal, hrefunded] at hle
  norm_num at hle

end Barbershop
