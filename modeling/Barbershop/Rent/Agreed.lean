import Mathlib.Algebra.Order.Group.Multiset
import Barbershop.Rent.Terms
import Barbershop.Service

/-!
# Amount and price agree

`TermsCall.keepsTerms` says what a write has to meet: what a call read of the link and of Stripe is
still so when it writes. In the runs whose writes meet it, a subscription that Stripe may charge has,
at rest, the price of the link's amount, and on the way its price rises only by an increase that the
professional accepted, to that amount.
-/

namespace Barbershop

open Lib

section Terms

variable (currency : String)

/-- The amount in minor units. -/
def RentTerms.minor (link : RentTerms) : Option ℤ := link.rentAmount.map (toMinorUnits · currency)

namespace RentDeal

variable (s s' : RentDeal)

/-- By card, Stripe charges what the link says. -/
def Agrees : Prop := ∀ ⦃id⦄, s.link.rentBillingMode = .card →
  s.link.rentStripeSubscriptionId = some id → s.lives id = true →
  ∃ amount, s.link.rentAmount = some amount ∧ s.priceOf id = some (toMinorUnits amount currency)

/-- Stripe may charge the subscription of the link. -/
def charged : Bool := s.link.rentStripeSubscriptionId.any s.lives

end RentDeal

/-! ## What a write has to meet -/

namespace TermsCall

/-- The terms are written for a link that has no subscription to charge, or whose subscription is at
the price that the call gave it; a price is kept and a subscription is linked for the amount that was
read; and the host's change finds the subscription at the amount that was read. -/
def keepsTerms (k : TermsChance) (c : TermsCall) (s : RentDeal) : Bool :=
  match c with
  | ending _ .clear | backToCard _ _ | saving _ none _ => !s.charged
  | saving _ (some (id, price)) _ => !s.charged ||
      s.link.rentStripeSubscriptionId == some id && (s.subs.get? id).any (·.price == price)
  | repricing seen id _ (.set _) => s.priceOf id == some (seen.currentCents currency)
  | keepingPrice seen _ _ => s.link.rentAmount == seen.rentAmount
  | linking seen price id _ _ => k.timesOut ||
      s.link.rentAmount == seen.rentAmount && (s.subs.get? id).any (·.price == price)
  | _ => true

end TermsCall

/-! ## The books -/

/-- A link that carries an amount, a proposal or a subscription. -/
def RentTerms.Priced (link : RentTerms) : Prop :=
  link.rentAmount.isSome = true ∨ link.rentPendingAmount.isSome = true ∨
    link.rentStripeSubscriptionId.isSome = true

/-- The amounts of a link are in the currency of the host. -/
structure RentTerms.InCurrency (link : RentTerms) : Prop where
  given : ∀ ⦃c⦄, link.rentCurrency = some c → c = currency
  priced : link.Priced → link.rentCurrency = some currency

namespace RentDeal

/-- `m`: the subscriptions that have a new price which is not in the link yet. -/
structure Sound (s : RentDeal) (m : Multiset ℕ) : Prop where
  agrees : ∀ {id}, s.link.rentBillingMode = .card → s.link.rentStripeSubscriptionId = some id →
    s.lives id = true → s.priceOf id = s.link.minor currency ∨ id ∈ m
  price : ∀ {p}, s.link.rentStripePriceId = some p →
    ∃ u, s.prices.get? p = some u ∧ s.link.minor currency = some u
  priced : ∀ {id sub}, s.subs.get? id = some sub → ∃ u, s.prices.get? sub.price = some u
  known : ∀ {id}, s.link.rentStripeSubscriptionId = some id → id < s.subs.next
  fits : s.link.InCurrency currency

/-- What one move leaves as it was. -/
structure Frame (s s' : RentDeal) : Prop where
  prices : ∀ ⦃p u⦄, s.prices.get? p = some u → s'.prices.get? p = some u
  accepted : ∀ ⦃a⦄, a ∈ s.accepted → a ∈ s'.accepted
  currency : s.link.rentCurrency = some currency → s'.link.rentCurrency = some currency

variable {currency} {s s' : RentDeal} {m : Multiset ℕ}

theorem Sound.agreed (h : s.Sound currency 0) : s.Agrees currency := by
  intro id hcard hsub hlives
  have hprice := (h.agrees hcard hsub hlives).resolve_right (Multiset.notMem_zero id)
  unfold lives at hlives
  obtain ⟨sub, hget, -⟩ := (Option.any_eq_true _ _).1 hlives
  obtain ⟨u, hu⟩ := h.priced hget
  have hpriceOf : s.priceOf id = some u := by rw [priceOf, hget, Option.bind_some, hu]
  rw [hpriceOf, RentTerms.minor, eq_comm, Option.map_eq_some_iff] at hprice
  obtain ⟨amount, hamount, rfl⟩ := hprice
  exact ⟨amount, hamount, hpriceOf⟩

theorem Frame.refl (s : RentDeal) : s.Frame currency s := ⟨fun _ _ h => h, fun _ h => h, fun h => h⟩

/-- The prices of the subscriptions stay. -/
def Steady (s s' : RentDeal) : Prop := ∀ ⦃id u⦄, s.priceOf id = some u → s'.priceOf id = some u

theorem not_charged {id : ℕ} (h : s.charged = false) (hsub : s.link.rentStripeSubscriptionId = some id) :
    ¬ s.lives id = true := by
  rw [charged, hsub, Option.any_some] at h
  simp [h]

end RentDeal

/-! ### What a call knows -/

/-- A link that a call has read, now. -/
structure RentDeal.Seen (s : RentDeal) (seen : RentTerms) : Prop where
  fits : seen.InCurrency currency
  kept : seen.Priced → s.link.rentCurrency = some currency

/-- What a change of the price comes from. -/
def RentChange.From (s : RentDeal) (seen : RentTerms) : RentChange → Prop
  | .set cents => cents ≤ seen.currentCents currency
  | .accepted pending => pending ∈ s.accepted ∧ seen.rentPendingAmount = some pending

namespace TermsCall

def Knows (s : RentDeal) : TermsCall → Prop
  | backToCard seen _ | resuming seen _ _ => s.Seen currency seen
  | proposing _ => s.link.rentCurrency = some currency
  | pricing seen _ by' => s.Seen currency seen ∧ by'.From currency s seen
  | repricing seen _ price by' => s.Seen currency seen ∧ by'.From currency s seen ∧
      s.prices.get? price = some (by'.cents currency seen)
  | saving seen none by' => s.Seen currency seen ∧
      ∀ pending, by' = .accepted pending → seen.rentPendingAmount = some pending
  | saving seen (some (_, price)) by' => s.Seen currency seen ∧
      (∀ pending, by' = .accepted pending → seen.rentPendingAmount = some pending) ∧
      s.prices.get? price = some (by'.cents currency seen)
  | claiming seen pending _ => s.Seen currency seen ∧ seen.rentPendingAmount = some pending
  | firstPrice seen _ => s.Seen currency seen ∧ seen.rentAmount.isSome = true
  | keepingPrice seen price _ | subscribing seen price _ | linking seen price _ _ _ =>
    s.Seen currency seen ∧ ∃ u, s.prices.get? price = some u ∧ seen.minor currency = some u
  | _ => True

/-- A subscription whose new price is not in the link yet. -/
def owes : TermsCall → Multiset ℕ
  | saving _ (some (id, _)) _ => {id}
  | _ => 0

end TermsCall

/-- The deal is sound, counting what the calls are to write, and each call knows what it read. -/
def termsInv : CallInv RentDeal TermsCall (Multiset ℕ) where
  weight := TermsCall.owes
  whole s m := s.Sound currency m
  each s c := c.Knows currency s

/-! ### Frames -/

section Frames

variable {currency} {s s' : RentDeal} {m : Multiset ℕ} {c : TermsCall}

theorem RentDeal.Seen.frame {seen : RentTerms} (h : s.Seen currency seen)
    (hframe : s.Frame currency s') : s'.Seen currency seen :=
  ⟨h.fits, fun hpriced => hframe.currency (h.kept hpriced)⟩

/-- The link as it is. -/
theorem RentDeal.Sound.seen (h : s.Sound currency m) : s.Seen currency s.link :=
  ⟨h.fits, h.fits.priced⟩

theorem RentDeal.Seen.currencyOr {seen : RentTerms} (h : s.Seen currency seen) :
    seen.currencyOr currency = currency := by
  unfold RentTerms.currencyOr
  cases hgiven : seen.rentCurrency with
  | none => rfl
  | some c => exact h.fits.given hgiven

theorem RentChange.From.frame {seen : RentTerms} {by' : RentChange}
    (h : by'.From currency s seen) (hframe : s.Frame currency s') : by'.From currency s' seen := by
  cases by' with
  | set cents => exact h
  | accepted pending => exact ⟨hframe.accepted h.1, h.2⟩

theorem TermsCall.Knows.frame (h : c.Knows currency s) (hframe : s.Frame currency s') :
    c.Knows currency s' := by
  cases c with
  | backToCard seen cents | resuming seen id userId => exact RentDeal.Seen.frame h hframe
  | proposing cents => exact hframe.currency h
  | pricing seen id by' => exact ⟨h.1.frame hframe, h.2.frame hframe⟩
  | repricing seen id price by' =>
    exact ⟨h.1.frame hframe, h.2.1.frame hframe, hframe.prices h.2.2⟩
  | saving seen new by' =>
    cases new with
    | none => exact ⟨h.1.frame hframe, h.2⟩
    | some pair => exact ⟨h.1.frame hframe, h.2.1, hframe.prices h.2.2⟩
  | claiming seen pending accept | firstPrice seen userId => exact ⟨h.1.frame hframe, h.2⟩
  | keepingPrice seen price userId | subscribing seen price userId
  | linking seen price id status userId =>
    obtain ⟨hseen, u, hu, hminor⟩ := h
    exact ⟨hseen.frame hframe, u, hframe.prices hu, hminor⟩
  | _ => trivial

variable (currency) in
/-- What a step leaves, while the other calls owe `m`; a price rises only where an accepted increase is
written. -/
structure TermsCall.Leaves (c : Option TermsCall) (m : Multiset ℕ) (s s' : RentDeal)
    (c' : Option TermsCall) : Prop where
  sound : s'.Sound currency (c'.elim 0 TermsCall.owes + m)
  frame : s.Frame currency s'
  knows : ∀ a ∈ c', a.Knows currency s'
  rises : ∀ {id u v}, s.priceOf id = some u → s'.priceOf id = some v → u < v →
    ∃ seen price pending, c = some (.repricing seen id price (.accepted pending)) ∧
      v = toMinorUnits pending currency ∧ pending ∈ s.accepted

variable {a b : Option TermsCall}

/-- The prices of the subscriptions stay, and the call goes on with nothing to write back. -/
theorem TermsCall.leaves_steady (hsound : s'.Sound currency m) (hframe : s.Frame currency s')
    (hsteady : s.Steady s') (hb : ∀ c ∈ b, c.owes = 0 ∧ c.Knows currency s') :
    TermsCall.Leaves currency a m s s' b where
  sound := by
    have hzero : b.elim 0 TermsCall.owes = 0 := by
      cases b with
      | none => rfl
      | some c => exact (hb c rfl).1
    rw [hzero, zero_add]
    exact hsound
  frame := hframe
  knows c hc := (hb c hc).2
  rises hu hv hlt := by
    rw [hsteady hu, Option.some.injEq] at hv
    exact absurd hv (ne_of_lt hlt)

/-- The call is over. -/
theorem TermsCall.leaves_done (hsound : s'.Sound currency m) (hframe : s.Frame currency s')
    (hsteady : s.Steady s') : TermsCall.Leaves currency a m s s' none :=
  TermsCall.leaves_steady hsound hframe hsteady fun _ h => by cases h

theorem TermsCall.leaves_next (hsound : s'.Sound currency m) (hframe : s.Frame currency s')
    (hsteady : s.Steady s') (howes : c.owes = 0) (hc : c.Knows currency s') :
    TermsCall.Leaves currency a m s s' (some c) :=
  TermsCall.leaves_steady hsound hframe hsteady fun _ h => Option.some.inj h ▸ ⟨howes, hc⟩

theorem RentDeal.Steady.refl (s : RentDeal) : s.Steady s := fun _ _ h => h

end Frames

/-! ### Writes of the link -/

namespace RentDeal

variable {currency} {s s' : RentDeal} {m : Multiset ℕ} {link : RentTerms}

/-- The link is written, and Stripe is not. -/
theorem Sound.relink (h : s.Sound currency m) {n : Multiset ℕ}
    (hagrees : ∀ {id}, link.rentBillingMode = .card → link.rentStripeSubscriptionId = some id →
      s.lives id = true → s.priceOf id = link.minor currency ∨ id ∈ n)
    (hprice : ∀ {p}, link.rentStripePriceId = some p →
      ∃ u, s.prices.get? p = some u ∧ link.minor currency = some u)
    (hknown : ∀ {id}, link.rentStripeSubscriptionId = some id → id < s.subs.next)
    (hfits : link.InCurrency currency) : Sound currency { s with link := link } n where
  agrees := hagrees
  price := hprice
  priced := h.priced
  known := hknown
  fits := hfits

theorem frame_link (hcurrency : s.link.rentCurrency = some currency →
    link.rentCurrency = some currency) : s.Frame currency { s with link := link } :=
  ⟨fun _ _ h => h, fun _ h => h, hcurrency⟩

/-- The terms stay: the amount, the mode, the price and the subscription. -/
theorem Sound.sameTerms (h : s.Sound currency m)
    (hamount : link.rentAmount = s.link.rentAmount)
    (hmode : link.rentBillingMode = s.link.rentBillingMode)
    (hprice : link.rentStripePriceId = s.link.rentStripePriceId)
    (hsub : link.rentStripeSubscriptionId = s.link.rentStripeSubscriptionId)
    (hfits : link.InCurrency currency) : Sound currency { s with link := link } m := by
  have hminor : link.minor currency = s.link.minor currency := by
    rw [RentTerms.minor, hamount, RentTerms.minor]
  refine h.relink ?_ ?_ (fun hid => h.known (hsub ▸ hid)) hfits
  · rw [hmode, hsub, hminor]
    exact h.agrees
  · rw [hprice, hminor]
    exact h.price

/-- Without a subscription and without a price there is nothing to agree on. -/
theorem Sound.unlinked (h : s.Sound currency m) (hsub : link.rentStripeSubscriptionId = none)
    (hprice : link.rentStripePriceId = none ∨ link.rentStripePriceId = s.link.rentStripePriceId ∧
      link.rentAmount = s.link.rentAmount)
    (hfits : link.InCurrency currency) : Sound currency { s with link := link } m := by
  have hnone : ∀ {id}, link.rentStripeSubscriptionId ≠ some id := by simp [hsub]
  refine h.relink ?_ ?_ (fun hid => absurd hid hnone) hfits
  · intro id _ hid
    exact absurd hid hnone
  · intro p hp
    rcases hprice with hnone | ⟨hsame, hamount⟩
    · rw [hnone] at hp
      cases hp
    · rw [RentTerms.minor, hamount]
      exact h.price (hsame ▸ hp)

/-- New terms for a link that has nothing to charge. -/
theorem Sound.uncharged (h : s.Sound currency m) (hcharged : s.charged = false)
    (hsub : link.rentStripeSubscriptionId = s.link.rentStripeSubscriptionId)
    (hprice : link.rentStripePriceId = none ∨ link.rentStripePriceId = s.link.rentStripePriceId ∧
      link.rentAmount = s.link.rentAmount)
    (hfits : link.InCurrency currency) : Sound currency { s with link := link } m := by
  refine h.relink ?_ ?_ (fun hid => h.known (hsub ▸ hid)) hfits
  · intro id _ hid hlives
    exact absurd hlives (not_charged hcharged (hsub ▸ hid))
  · intro p hp
    rcases hprice with hnone | ⟨hsame, hamount⟩
    · rw [hnone] at hp
      cases hp
    · rw [RentTerms.minor, hamount]
      exact h.price (hsame ▸ hp)

/-! ### Writes of Stripe -/

/-- A new price. -/
theorem priceOf_insert {u : ℤ} : s.Steady { s with prices := s.prices.insert u } := by
  intro id v hv
  unfold priceOf at hv ⊢
  obtain ⟨sub, hsub, hprice⟩ := Option.bind_eq_some_iff.1 hv
  rw [hsub, Option.bind_some]
  exact Table.get?_insert_of_some u hprice

theorem Sound.insertPrice (h : s.Sound currency m) (u : ℤ) :
    Sound currency { s with prices := s.prices.insert u } m where
  agrees := by
    intro id hcard hsub hlives
    refine (h.agrees hcard hsub hlives).imp_left fun hprice => ?_
    have hlives' := hlives
    unfold lives at hlives'
    obtain ⟨sub, hget, -⟩ := (Option.any_eq_true _ _).1 hlives'
    obtain ⟨v, hv⟩ := h.priced hget
    have hpriceOf : s.priceOf id = some v := by rw [priceOf, hget, Option.bind_some, hv]
    rw [priceOf_insert hpriceOf, ← hpriceOf, hprice]
  price hp := by
    obtain ⟨v, hv, hminor⟩ := h.price hp
    exact ⟨v, Table.get?_insert_of_some u hv, hminor⟩
  priced hsub := by
    obtain ⟨v, hv⟩ := h.priced hsub
    exact ⟨v, Table.get?_insert_of_some u hv⟩
  known := h.known
  fits := h.fits

theorem frame_insertPrice (u : ℤ) : s.Frame currency { s with prices := s.prices.insert u } :=
  ⟨fun _ _ h => Table.get?_insert_of_some u h, fun _ h => h, fun h => h⟩

/-- A subscription is given another status, and none that has ended lives again. -/
theorem Sound.status (h : s.Sound currency m) {f : RentSub → RentSub} (id : ℕ)
    (hprice : ∀ sub, (f sub).price = sub.price)
    (hlives : ∀ sub, s.subs.get? id = some sub → (f sub).status.live = true →
      sub.status.live = true) :
    Sound currency { s with subs := s.subs.modify id f } m ∧
      s.Steady { s with subs := s.subs.modify id f } := by
  have hpriceOf : ∀ j, ({ s with subs := s.subs.modify id f } : RentDeal).priceOf j = s.priceOf j := by
    intro j
    unfold priceOf
    dsimp only
    rw [Table.get?_modify]
    split
    · next hj =>
      subst hj
      cases s.subs.get? j with
      | none => rfl
      | some sub => simp only [Option.map_some, Option.bind_some, hprice]
    · rfl
  refine ⟨⟨?_, h.price, ?_, h.known, h.fits⟩, fun j u hu => (hpriceOf j).trans hu⟩
  · intro j hcard hsub hlive
    rw [hpriceOf]
    refine h.agrees hcard hsub ?_
    unfold lives at hlive ⊢
    dsimp only at hlive
    rw [Table.get?_modify] at hlive
    split at hlive
    · next hj =>
      subst hj
      cases hget : s.subs.get? j with
      | none => simp [hget] at hlive
      | some sub =>
        rw [hget, Option.map_some, Option.any_some] at hlive
        exact hlives sub hget hlive
    · exact hlive
  · intro j sub hsub
    dsimp only at hsub
    rw [Table.get?_modify] at hsub
    split at hsub
    · obtain ⟨x, hx, rfl⟩ := Option.map_eq_some_iff.1 hsub
      rw [hprice]
      exact h.priced hx
    · exact h.priced hsub

end RentDeal

/-! ## Reads -/

section Reads

variable {currency} {s : RentDeal} {m : Multiset ℕ} {ctx : Caller}

namespace TermsCall

variable (currency) in
/-- Knows what it goes by, and has nothing to write back. -/
def Ready (s : RentDeal) (c : TermsCall) : Prop := c.owes = 0 ∧ c.Knows currency s

theorem change_ready {seen : RentTerms} {cents : ℤ} (h : s.Seen currency seen) :
    (change currency seen cents).Ready currency s := by
  unfold change
  split
  · exact ⟨rfl, h, fun pending hset => by cases hset⟩
  · next id hid =>
    split
    · exact ⟨rfl, h.kept (.inr (.inr (by rw [hid]; rfl)))⟩
    · next hle => exact ⟨rfl, h, not_lt.1 hle⟩

theorem checkSetRent_ready {data : RentInput} {c : TermsCall} (h : s.Sound currency m)
    (hc : checkSetRent currency ctx data s.link = .ok (some c)) :
    c.Ready currency s := by
  unfold checkSetRent at hc
  simp only [bind_eq_ok] at hc
  obtain ⟨-, -, -, -, -, -, hc⟩ := hc
  split at hc
  · cases hc
    exact ⟨rfl, trivial⟩
  · simp only [bind_eq_ok] at hc
    obtain ⟨-, -, mode, -, hc⟩ := hc
    split at hc
    · cases hc
    · split at hc
      · cases hc
        exact ⟨rfl, trivial⟩
      · cases hc
        exact ⟨rfl, h.seen⟩
      · cases hc
        exact change_ready h.seen

theorem checkRespond_ready {accept : Bool} {c : TermsCall} (h : s.Sound currency m)
    (hc : checkRespond ctx accept s.link = .ok c) : c.Ready currency s := by
  unfold checkRespond at hc
  simp only [bind_eq_ok, orRefuse_eq_ok, pure_eq_ok] at hc
  obtain ⟨-, -, -, -, pending, hpending, rfl⟩ := hc
  exact ⟨rfl, h.seen, hpending⟩

theorem checkCard_ready {card : RentCard} {c : TermsCall} (hc : checkCard ctx card = .ok c) :
    c.Ready currency s := by
  unfold checkCard at hc
  simp only [bind_eq_ok, pure_eq_ok] at hc
  obtain ⟨-, -, -, -, -, -, rfl⟩ := hc
  exact ⟨rfl, trivial⟩

/-- The price that a link has is that of its amount. -/
theorem firstCharge_ready {seen : RentTerms} {userId : ℕ} {c : TermsCall}
    (h : s.Seen currency seen)
    (hprice : ∀ {p}, seen.rentStripePriceId = some p →
      ∃ u, s.prices.get? p = some u ∧ seen.minor currency = some u)
    (hc : firstCharge seen userId = .ok c) : c.Ready currency s := by
  unfold firstCharge at hc
  simp only [bind_eq_ok, refuseIf_eq_ok, not_or] at hc
  obtain ⟨-, ⟨-, hamount⟩, hc⟩ := hc
  split at hc
  · cases hc
    exact ⟨rfl, h, Option.isSome_iff_ne_none.2 hamount⟩
  · next p hp =>
    cases hc
    exact ⟨rfl, h, hprice hp⟩

theorem checkAuthorize_ready {c : TermsCall} (h : s.Sound currency m)
    (hc : checkAuthorize ctx s.link = .ok c) : c.Ready currency s := by
  unfold checkAuthorize at hc
  simp only [bind_eq_ok] at hc
  obtain ⟨-, -, -, -, -, -, hc⟩ := hc
  split at hc
  · cases hc
    exact ⟨rfl, trivial⟩
  · cases hc
    exact ⟨rfl, h.seen⟩
  · exact firstCharge_ready h.seen h.price hc

theorem expired_seen {seen : RentTerms} (h : s.Seen currency seen) :
    s.Seen currency (expired seen) := by
  have hpriced : (expired seen).Priced → seen.Priced := by
    rintro (hamount | hpending | hsub)
    · exact .inl hamount
    · exact .inr (.inl hpending)
    · cases hsub
  exact ⟨⟨h.fits.given, fun hp => h.fits.priced (hpriced hp)⟩, fun hp => h.kept (hpriced hp)⟩

end TermsCall

end Reads

/-! ## Steps -/

section Steps

variable {currency} {s s' : RentDeal} {m : Multiset ℕ} {k : TermsChance} {goes : TermsCall.Goes}

theorem RentDeal.Sound.unlock (h : s.Sound currency m) : s.unlock.Sound currency m :=
  ⟨h.agrees, h.price, h.priced, h.known, h.fits⟩

theorem RentDeal.frame_unlock : s.Frame currency s.unlock := ⟨fun _ _ h => h, fun _ h => h, fun h => h⟩

namespace TermsCall

theorem goOn_leaves {x : Result TermsCall} {a : Option TermsCall} (h : s.Sound currency m)
    (hx : ∀ c, x = .ok c → c.Ready currency s) :
    Leaves currency a m s s (goOn x).running := by
  cases x with
  | error r => exact leaves_done h (.refl s) (.refl s)
  | ok c => exact leaves_next h (.refl s) (.refl s) (hx c rfl).1 (hx c rfl).2

theorem goOnLocked_leaves {x : Result TermsCall} {a : Option TermsCall} (h : s.Sound currency m)
    (hx : ∀ c, x = .ok c → c.Ready currency s) :
    Leaves currency a m s (goOnLocked x s).1 (goOnLocked x s).2.running := by
  cases x with
  | error r => exact leaves_done h.unlock RentDeal.frame_unlock fun _ _ h => h
  | ok c => exact leaves_next h (.refl s) (.refl s) (hx c rfl).1 (hx c rfl).2

/-- The link is written, and the call is over. -/
theorem link_leaves {link : RentTerms} {a : Option TermsCall}
    (h : RentDeal.Sound currency { s with link := link } m)
    (hcurrency : s.link.rentCurrency = some currency → link.rentCurrency = some currency) :
    Leaves currency a m s { s with link := link } none :=
  leaves_done h (RentDeal.frame_link hcurrency) fun _ _ h => h

theorem ending_leaves {seen : RentTerms} {after : AfterCancel} (h : s.Sound currency m)
    (hkeeps : (ending seen after).keepsTerms currency k s = true)
    (hstep : (ending seen after).step currency k s = some (s', goes)) :
    Leaves currency (some (ending seen after)) m s s' goes.running := by
  cases after with
  | clear =>
    obtain ⟨rfl, rfl⟩ := Prod.mk.inj (Option.some.inj hstep)
    have hcharged : s.charged = false := by simpa [keepsTerms] using hkeeps
    refine link_leaves (h.uncharged hcharged rfl (.inl rfl) ⟨h.fits.given, ?_⟩) fun hc => hc
    rintro (hamount | hpending | hsub)
    · cases hamount
    · cases hpending
    · exact h.fits.priced (.inr (.inr hsub))
  | toManual cents =>
    obtain ⟨rfl, rfl⟩ := Prod.mk.inj (Option.some.inj hstep)
    refine link_leaves (h.relink ?_ ?_ h.known ?_) fun _ => rfl
    · intro id hcard
      cases hcard
    · intro p hp
      cases hp
    · exact ⟨fun c hc => (Option.some.inj hc).symm, fun _ => rfl⟩

theorem backToCard_leaves {seen : RentTerms} {cents : ℤ} (h : s.Sound currency m)
    (hc : s.Seen currency seen)
    (hkeeps : (backToCard seen cents).keepsTerms currency k s = true)
    (hstep : (backToCard seen cents).step currency k s = some (s', goes)) :
    Leaves currency (some (backToCard seen cents)) m s s' goes.running := by
  obtain ⟨rfl, rfl⟩ := Prod.mk.inj (Option.some.inj hstep)
  have hcharged : s.charged = false := by simpa [keepsTerms] using hkeeps
  have hsound : (s.setLink (·.toCard)).Sound currency m :=
    h.uncharged hcharged rfl (.inr ⟨rfl, rfl⟩) ⟨h.fits.given, h.fits.priced⟩
  have hseen : (s.setLink (·.toCard)).Seen currency
      { seen with rentBillingMode := .card, rentStatus := .none } :=
    ⟨⟨hc.fits.given, hc.fits.priced⟩, hc.kept⟩
  have hready : (change currency { seen with rentBillingMode := .card, rentStatus := .none }
      cents).Ready currency (s.setLink (·.toCard)) := change_ready hseen
  exact leaves_next hsound (RentDeal.frame_link fun hc => hc) (fun _ _ h => h) hready.1 hready.2

theorem pricing_leaves {seen : RentTerms} {id : ℕ} {by' : RentChange} (h : s.Sound currency m)
    (hc : (pricing seen id by').Knows currency s)
    (hstep : (pricing seen id by').step currency k s = some (s', goes)) :
    Leaves currency (some (pricing seen id by')) m s s' goes.running := by
  obtain ⟨rfl, rfl⟩ := Prod.mk.inj (Option.some.inj hstep)
  have hframe : s.Frame currency { s with prices := s.prices.insert (by'.cents currency seen) } :=
    s.frame_insertPrice _
  exact leaves_next (h.insertPrice _) hframe RentDeal.priceOf_insert rfl
    ⟨hc.1.frame hframe, hc.2.frame hframe, Table.get?_insert_self _ _⟩

theorem repricing_leaves {seen : RentTerms} {id price : ℕ} {by' : RentChange}
    (h : s.Sound currency m) (hc : (repricing seen id price by').Knows currency s)
    (hkeeps : (repricing seen id price by').keepsTerms currency k s = true)
    (hreprice : s.reprice id price = some s') :
    Leaves currency (some (repricing seen id price by')) m s s'
      (some (saving seen (some (id, price)) by')) := by
  obtain ⟨hseen, hfrom, hprice⟩ := hc
  obtain ⟨subs, htry, rfl⟩ := Option.map_eq_some_iff.1 hreprice
  obtain ⟨sub, hget, hlive, rfl⟩ := Table.tryModify_eq_some.1 htry
  have hother : ∀ {j}, j ≠ id →
      (s.subs.modify id ({ · with price := price })).get? j = s.subs.get? j :=
    fun hj => Table.get?_modify_of_ne _ _ hj
  have hmine : (s.subs.modify id ({ · with price := price })).get? id =
      some { sub with price := price } := by
    rw [Table.get?_modify_self, hget, Option.map_some]
  refine {
    sound := ⟨?_, h.price, ?_, h.known, h.fits⟩
    frame := ⟨fun _ _ h => h, fun _ h => h, fun h => h⟩
    knows := ?_
    rises := ?_ }
  · intro j hcard hsub hlives
    by_cases hj : j = id
    · exact .inr (Multiset.mem_add.2 (.inl (Multiset.mem_singleton.2 hj)))
    · have hsame : s.lives j = true := by
        unfold RentDeal.lives at hlives ⊢
        rwa [hother hj] at hlives
      refine (h.agrees hcard hsub hsame).imp (fun heq => ?_) fun hmem => Multiset.mem_add.2 (.inr hmem)
      rw [← heq, RentDeal.priceOf, RentDeal.priceOf, hother hj]
  · intro j x hx
    by_cases hj : j = id
    · subst hj
      rw [hmine] at hx
      obtain rfl := Option.some.inj hx
      exact ⟨_, hprice⟩
    · rw [hother hj] at hx
      exact h.priced hx
  · intro c hc
    obtain rfl := Option.some.inj hc
    refine ⟨⟨hseen.fits, hseen.kept⟩, ?_, hprice⟩
    rintro pending rfl
    exact hfrom.2
  · intro j u v hu hv hlt
    by_cases hj : j = id
    · subst hj
      rw [RentDeal.priceOf, hmine, Option.bind_some, hprice, Option.some.injEq] at hv
      cases by' with
      | set cents =>
        have hread : s.priceOf j = some (seen.currentCents currency) := by
          simpa [keepsTerms] using hkeeps
        rw [hread, Option.some.injEq] at hu
        have hle : cents ≤ seen.currentCents currency := hfrom
        have hcents : cents = v := hv
        omega
      | accepted pending =>
        refine ⟨seen, price, pending, rfl, ?_, hfrom.1⟩
        rw [← hv, RentChange.cents, hseen.currencyOr]
    · rw [RentDeal.priceOf, hother hj] at hv
      rw [RentDeal.priceOf, hv, Option.some.injEq] at hu
      exact absurd hu.symm (ne_of_lt hlt)

/-- What a change writes is in the currency of the host. -/
theorem save_fits {seen link : RentTerms} {by' : RentChange} (hseen : s.Seen currency seen)
    (hpending : ∀ pending, by' = .accepted pending → seen.rentPendingAmount = some pending)
    (hlink : s.link = link) (hfits : link.InCurrency currency) (price : Option ℕ) :
    (by'.save currency seen price link).InCurrency currency := by
  cases by' with
  | set cents => exact ⟨fun c hc => (Option.some.inj hc).symm, fun _ => rfl⟩
  | accepted pending =>
    refine ⟨hfits.given, fun _ => ?_⟩
    have hkept := hseen.kept (.inr (.inl (by rw [hpending pending rfl]; rfl)))
    rwa [hlink] at hkept

theorem save_minor {seen link : RentTerms} {by' : RentChange} (hseen : s.Seen currency seen)
    (price : Option ℕ) :
    (by'.save currency seen price link).minor currency = some (by'.cents currency seen) := by
  cases by' with
  | set cents =>
    rw [RentChange.save, RentTerms.minor, Option.map_some, toMinorUnits_fromMinorUnits,
      RentChange.cents]
  | accepted pending =>
    rw [RentChange.save, RentTerms.minor, Option.map_some, RentChange.cents, hseen.currencyOr]

theorem save_currency {seen link : RentTerms} {by' : RentChange} (price : Option ℕ)
    (h : link.rentCurrency = some currency) :
    (by'.save currency seen price link).rentCurrency = some currency := by
  cases by' with
  | set cents => rfl
  | accepted pending => exact h

theorem save_sub {seen link : RentTerms} {by' : RentChange} (price : Option ℕ) :
    (by'.save currency seen price link).rentStripeSubscriptionId = link.rentStripeSubscriptionId ∧
      (by'.save currency seen price link).rentStripePriceId = price := by
  cases by' with
  | set cents => exact ⟨rfl, rfl⟩
  | accepted pending => exact ⟨rfl, rfl⟩

theorem savingNone_leaves {seen : RentTerms} {by' : RentChange} (h : s.Sound currency m)
    (hc : (saving seen none by').Knows currency s)
    (hkeeps : (saving seen none by').keepsTerms currency k s = true) :
    Leaves currency (some (saving seen none by')) m s
      (s.setLink (by'.save currency seen none)) none := by
  have hcharged : s.charged = false := by simpa [keepsTerms] using hkeeps
  refine link_leaves ?_ fun hcur => save_currency none hcur
  exact h.uncharged hcharged (save_sub none).1 (.inl (save_sub none).2)
    (save_fits hc.1 hc.2 rfl h.fits none)

theorem saving_leaves {seen : RentTerms} {id price : ℕ} {by' : RentChange}
    (h : s.Sound currency ({id} + m)) (hc : (saving seen (some (id, price)) by').Knows currency s)
    (hkeeps : (saving seen (some (id, price)) by').keepsTerms currency k s = true) :
    Leaves currency (some (saving seen (some (id, price)) by')) m s
      (s.setLink (by'.save currency seen (some price))) none := by
  obtain ⟨hseen, hpending, hprice⟩ := hc
  have hminor : (by'.save currency seen (some price) s.link).minor currency =
      some (by'.cents currency seen) := save_minor hseen _
  refine link_leaves (h.relink ?_ ?_ ?_ (save_fits hseen hpending rfl h.fits _)) fun hcur =>
    save_currency _ hcur
  · intro j _ hsub hlives
    rw [(save_sub _).1] at hsub
    have hcharged : s.charged = true := by rw [RentDeal.charged, hsub, Option.any_some, hlives]
    simp only [keepsTerms, hcharged, Bool.not_true, Bool.false_or, Bool.and_eq_true, beq_iff_eq,
      Option.any_eq_true] at hkeeps
    obtain ⟨hid, sub, hget, hnew⟩ := hkeeps
    obtain rfl := Option.some.inj (hsub.symm.trans hid)
    refine .inl ?_
    rw [hminor, RentDeal.priceOf, hget, Option.bind_some, hnew, hprice]
  · intro p hp
    rw [(save_sub _).2] at hp
    obtain rfl := Option.some.inj hp
    exact ⟨_, hprice, hminor⟩
  · intro j hsub
    rw [(save_sub _).1] at hsub
    exact h.known hsub

theorem claiming_leaves {seen : RentTerms} {pending : ℚ} {accept : Bool}
    (h : s.Sound currency m) (hc : (claiming seen pending accept).Knows currency s)
    (hstep : (claiming seen pending accept).step currency k s = some (s', goes)) :
    Leaves currency (some (claiming seen pending accept)) m s s' goes.running := by
  obtain ⟨hseen, hpending⟩ := hc
  simp only [step] at hstep
  split at hstep
  · have hfits : RentTerms.InCurrency currency
        { s.link with rentPendingAmount := none, rentPendingAt := none } := by
      refine ⟨h.fits.given, ?_⟩
      rintro (hamount | hnone | hsub)
      · exact h.fits.priced (.inl hamount)
      · cases hnone
      · exact h.fits.priced (.inr (.inr hsub))
    have hwritten : RentDeal.Sound currency { s with
        link := { s.link with rentPendingAmount := none, rentPendingAt := none } } m :=
      h.sameTerms rfl rfl rfl rfl hfits
    split at hstep
    · have hsound : RentDeal.Sound currency { s with
          link := { s.link with rentPendingAmount := none, rentPendingAt := none }
          accepted := pending :: s.accepted } m :=
        ⟨hwritten.agrees, hwritten.price, hwritten.priced, hwritten.known, hwritten.fits⟩
      have hframe : s.Frame currency { s with
          link := { s.link with rentPendingAmount := none, rentPendingAt := none }
          accepted := pending :: s.accepted } :=
        ⟨fun _ _ h => h, fun _ h => List.mem_cons_of_mem _ h, fun h => h⟩
      have hseen' := hseen.frame hframe
      split at hstep
      · obtain ⟨rfl, rfl⟩ := Prod.mk.inj (Option.some.inj hstep)
        exact leaves_next hsound hframe (fun _ _ h => h) rfl
          ⟨hseen', List.mem_cons_self, hpending⟩
      · obtain ⟨rfl, rfl⟩ := Prod.mk.inj (Option.some.inj hstep)
        refine leaves_next hsound hframe (fun _ _ h => h) rfl ⟨hseen', fun pending' heq => ?_⟩
        obtain rfl := RentChange.accepted.inj heq
        exact hpending
    · obtain ⟨rfl, rfl⟩ := Prod.mk.inj (Option.some.inj hstep)
      exact link_leaves hwritten fun h => h
  · obtain ⟨rfl, rfl⟩ := Prod.mk.inj (Option.some.inj hstep)
    exact leaves_done h (.refl s) (.refl s)

/-! ### The professional authorises -/

theorem resuming_leaves {seen : RentTerms} {id userId : ℕ} (h : s.Sound currency m)
    (hc : s.Seen currency seen)
    (hstep : (resuming seen id userId).step currency k s = some (s', goes)) :
    Leaves currency (some (resuming seen id userId)) m s s' goes.running := by
  have hunlock : ∀ {a : Option TermsCall}, Leaves currency a m s s.unlock none :=
    leaves_done h.unlock RentDeal.frame_unlock fun _ _ h => h
  simp only [step] at hstep
  split at hstep
  · obtain ⟨rfl, rfl⟩ := Prod.mk.inj (Option.some.inj hstep)
    exact hunlock
  · split at hstep
    · obtain ⟨rfl, rfl⟩ := Prod.mk.inj (Option.some.inj hstep)
      exact hunlock
    · split at hstep
      · obtain ⟨rfl, rfl⟩ := Prod.mk.inj (Option.some.inj hstep)
        exact leaves_next h (.refl s) (.refl s) rfl trivial
      · obtain ⟨rfl, rfl⟩ := Prod.mk.inj (Option.some.inj hstep)
        refine goOnLocked_leaves h fun c hready => ?_
        exact firstCharge_ready (expired_seen hc) (fun hp => by cases hp) hready

theorem firstPrice_leaves {seen : RentTerms} {userId : ℕ} (h : s.Sound currency m)
    (hc : (firstPrice seen userId).Knows currency s)
    (hstep : (firstPrice seen userId).step currency k s = some (s', goes)) :
    Leaves currency (some (firstPrice seen userId)) m s s' goes.running := by
  obtain ⟨hseen, hsome⟩ := hc
  obtain ⟨rfl, rfl⟩ := Prod.mk.inj (Option.some.inj hstep)
  obtain ⟨amount, hamount⟩ := Option.isSome_iff_exists.1 hsome
  have hcurrency : seen.rentCurrency = some currency := hseen.fits.priced (.inl hsome)
  have hminor : seen.minor currency =
      some (toMinorUnits (seen.rentAmount.getD 0) (seen.rentCurrency.getD "BRL")) := by
    rw [RentTerms.minor, hamount, hcurrency, Option.map_some, Option.getD_some, Option.getD_some]
  exact leaves_next (h.insertPrice _) (s.frame_insertPrice _) RentDeal.priceOf_insert rfl
    ⟨hseen.frame (s.frame_insertPrice _), _, Table.get?_insert_self _ _, hminor⟩

theorem keepingPrice_leaves {seen : RentTerms} {price userId : ℕ} (h : s.Sound currency m)
    (hc : (keepingPrice seen price userId).Knows currency s)
    (hkeeps : (keepingPrice seen price userId).keepsTerms currency k s = true)
    (hstep : (keepingPrice seen price userId).step currency k s = some (s', goes)) :
    Leaves currency (some (keepingPrice seen price userId)) m s s' goes.running := by
  obtain ⟨hseen, u, hu, hminor⟩ := hc
  obtain ⟨rfl, rfl⟩ := Prod.mk.inj (Option.some.inj hstep)
  have hsame : s.link.rentAmount = seen.rentAmount := by simpa [keepsTerms] using hkeeps
  have hframe : s.Frame currency
      (s.setLink fun link => { link with rentStripePriceId := some price }) :=
    RentDeal.frame_link fun h => h
  refine leaves_next (h.relink h.agrees ?_ h.known ⟨h.fits.given, h.fits.priced⟩) hframe
    (fun _ _ h => h) rfl ⟨hseen.frame hframe, u, hu, hminor⟩
  intro p hp
  obtain rfl := Option.some.inj hp
  refine ⟨u, hu, ?_⟩
  rw [RentTerms.minor, hsame]
  exact hminor

/-- A new subscription is not that of the link. -/
theorem insertSub_sound (h : s.Sound currency m) {x : RentSub} {u : ℤ}
    (hu : s.prices.get? x.price = some u) :
    RentDeal.Sound currency { s with subs := s.subs.insert x } m ∧
      s.Steady { s with subs := s.subs.insert x } := by
  have hold : ∀ {id}, id < s.subs.next → (s.subs.insert x).get? id = s.subs.get? id := by
    intro id hid
    rw [Table.get?_insert, if_neg (Nat.ne_of_lt hid)]
  refine ⟨⟨?_, h.price, ?_, fun hid => Nat.lt_succ_of_lt (h.known hid), h.fits⟩, ?_⟩
  · intro id hcard hid hlives
    have hget := hold (h.known hid)
    unfold RentDeal.lives at hlives
    unfold RentDeal.priceOf
    rw [hget] at hlives ⊢
    exact h.agrees hcard hid hlives
  · intro id y hy
    rcases Table.get?_insert_cases hy with ⟨-, rfl⟩ | hy
    · exact ⟨u, hu⟩
    · exact h.priced hy
  · intro id v hv
    unfold RentDeal.priceOf at hv ⊢
    obtain ⟨y, hy, hprice⟩ := Option.bind_eq_some_iff.1 hv
    rw [Table.get?_insert_of_some x hy, Option.bind_some, hprice]

theorem subscribing_leaves {seen : RentTerms} {price userId : ℕ} (h : s.Sound currency m)
    (hc : (subscribing seen price userId).Knows currency s)
    (hstep : (subscribing seen price userId).step currency k s = some (s', goes)) :
    Leaves currency (some (subscribing seen price userId)) m s s' goes.running := by
  obtain ⟨hseen, u, hu, hminor⟩ := hc
  obtain ⟨rfl, rfl⟩ := Prod.mk.inj (Option.some.inj hstep)
  have hnext : ∀ {t : RentDeal}, t.Sound currency m → s.Frame currency t → s.Steady t →
      ∀ id (status : RentSubStatus), Leaves currency
        (some (subscribing seen price userId)) m s t (some (if status.live then
          linking seen price id status userId else droppingPrice)) := by
    intro t ht hframe hsteady id status
    refine leaves_steady ht hframe hsteady fun c hc => ?_
    obtain rfl := Option.some.inj hc
    split
    · exact ⟨rfl, hseen.frame hframe, u, hframe.prices hu, hminor⟩
    · exact ⟨rfl, trivial⟩
  unfold subscribe
  dsimp only
  split
  · exact hnext h (.refl s) (.refl s) _ _
  · have hinsert := insertSub_sound h (u := u) (x := ⟨price,
      if k.active then .active else .incomplete, price⟩) hu
    exact hnext hinsert.1 ⟨fun _ _ h => h, fun _ h => h, fun h => h⟩ hinsert.2 _ _

theorem droppingPrice_leaves (h : s.Sound currency m)
    (hstep : droppingPrice.step currency k s = some (s', goes)) :
    Leaves currency (some droppingPrice) m s s' goes.running := by
  obtain ⟨rfl, rfl⟩ := Prod.mk.inj (Option.some.inj hstep)
  have hsound : RentDeal.Sound currency (s.setLink fun link =>
      { link with rentStripePriceId := none }) m :=
    h.relink h.agrees (fun hp => by cases hp) h.known ⟨h.fits.given, h.fits.priced⟩
  exact leaves_done hsound.unlock ⟨fun _ _ h => h, fun _ h => h, fun h => h⟩ fun _ _ h => h

theorem linking_leaves {seen : RentTerms} {price id userId : ℕ} {status : RentSubStatus}
    (h : s.Sound currency m) (hc : (linking seen price id status userId).Knows currency s)
    (hkeeps : (linking seen price id status userId).keepsTerms currency k s = true)
    (hstep : (linking seen price id status userId).step currency k s = some (s', goes)) :
    Leaves currency (some (linking seen price id status userId)) m s s'
      goes.running := by
  obtain ⟨hseen, u, hu, hminor⟩ := hc
  simp only [step] at hstep
  split at hstep
  · obtain ⟨rfl, rfl⟩ := Prod.mk.inj (Option.some.inj hstep)
    exact leaves_done h.unlock RentDeal.frame_unlock fun _ _ h => h
  · next htime =>
    obtain ⟨rfl, rfl⟩ := Prod.mk.inj (Option.some.inj hstep)
    rw [Bool.not_eq_true] at htime
    simp only [keepsTerms, htime, Bool.false_or, Bool.and_eq_true, beq_iff_eq,
      Option.any_eq_true] at hkeeps
    obtain ⟨hamount, sub, hget, hprice⟩ := hkeeps
    have hagree : s.priceOf id = s.link.minor currency := by
      rw [RentDeal.priceOf, hget, Option.bind_some, hprice, hu, RentTerms.minor, hamount]
      exact hminor.symm
    have hcurrency : s.link.rentCurrency = some currency := by
      refine hseen.kept (.inl ?_)
      obtain ⟨amount, hsome, -⟩ := Option.map_eq_some_iff.1 hminor
      rw [hsome]
      rfl
    have hsound : RentDeal.Sound currency (s.setLink fun link => { link with
        rentStripeSubscriptionId := some id
        rentPayerUserId := some userId
        rentStatus := if status = .active then .active else .incomplete
        rentPaidUntil := if status = .active then some k.paidUntil else none }) m := by
      refine h.relink ?_ h.price ?_ ⟨h.fits.given, fun _ => hcurrency⟩
      · intro j _ hj _
        obtain rfl := Option.some.inj hj
        exact .inl hagree
      · intro j hj
        obtain rfl := Option.some.inj hj
        exact Table.lt_next_of_get? hget
    exact leaves_done hsound.unlock ⟨fun _ _ h => h, fun _ h => h, fun h => h⟩ fun _ _ h => h

theorem forgetting_leaves {seen : RentTerms} (h : s.Sound currency m)
    (hstep : (forgetting seen).step currency k s = some (s', goes)) :
    Leaves currency (some (forgetting seen)) m s s' goes.running := by
  obtain ⟨rfl, rfl⟩ := Prod.mk.inj (Option.some.inj hstep)
  refine link_leaves (h.unlinked rfl (.inl rfl) ⟨h.fits.given, ?_⟩) fun h => h
  rintro (hamount | hpending | hsub)
  · exact h.fits.priced (.inl hamount)
  · cases hpending
  · cases hsub

/-! ### Every step -/

theorem step_leaves {c : TermsCall} (h : s.Sound currency (c.owes + m)) (hc : c.Knows currency s)
    (hkeeps : c.keepsTerms currency k s = true) (hstep : c.step currency k s = some (s', goes)) :
    Leaves currency (some c) m s s' goes.running := by
  cases c with
  | saving seen new by' =>
    obtain ⟨rfl, rfl⟩ := Prod.mk.inj (Option.some.inj hstep)
    cases new with
    | none => exact savingNone_leaves (by simpa [owes] using h) hc hkeeps
    | some pair => exact saving_leaves h hc hkeeps
  | setRent ctx data =>
    replace h : s.Sound currency m := by simpa [owes] using h
    simp only [step] at hstep
    split at hstep
    · obtain ⟨rfl, rfl⟩ := Prod.mk.inj (Option.some.inj hstep)
      exact leaves_done h (.refl s) (.refl s)
    · obtain ⟨rfl, rfl⟩ := Prod.mk.inj (Option.some.inj hstep)
      exact leaves_done h (.refl s) (.refl s)
    · next hcheck =>
      obtain ⟨rfl, rfl⟩ := Prod.mk.inj (Option.some.inj hstep)
      have hready := checkSetRent_ready h hcheck
      exact leaves_next h (.refl s) (.refl s) hready.1 hready.2
  | findingSub seen after =>
    replace h : s.Sound currency m := by simpa [owes] using h
    simp only [step] at hstep
    split at hstep
    · obtain ⟨rfl, rfl⟩ := Prod.mk.inj (Option.some.inj hstep)
      exact leaves_next h (.refl s) (.refl s) rfl trivial
    · obtain ⟨rfl, rfl⟩ := Prod.mk.inj (Option.some.inj hstep)
      exact leaves_next h (.refl s) (.refl s) rfl trivial
  | canceling seen id after =>
    replace h : s.Sound currency m := by simpa [owes] using h
    obtain ⟨rfl, rfl⟩ := Prod.mk.inj (Option.some.inj hstep)
    have hcancel := h.status id
      (f := fun sub => if sub.status.live then { sub with status := .canceled } else sub)
      (fun sub => by split <;> rfl) (fun sub _ hlive => by
        split at hlive
        · cases hlive
        · exact hlive)
    exact leaves_next hcancel.1 ⟨fun _ _ h => h, fun _ h => h, fun h => h⟩ hcancel.2 rfl trivial
  | canceled seen after =>
    replace h : s.Sound currency m := by simpa [owes] using h
    obtain ⟨rfl, rfl⟩ := Prod.mk.inj (Option.some.inj hstep)
    refine leaves_next (h.unlinked rfl (.inr ⟨rfl, rfl⟩) ⟨h.fits.given, ?_⟩)
      (RentDeal.frame_link fun h => h) (fun _ _ h => h) rfl trivial
    rintro (hamount | hpending | hsub)
    · exact h.fits.priced (.inl hamount)
    · exact h.fits.priced (.inr (.inl hpending))
    · cases hsub
  | ending seen after => exact ending_leaves (by simpa [owes] using h) hkeeps hstep
  | backToCard seen cents => exact backToCard_leaves (by simpa [owes] using h) hc hkeeps hstep
  | proposing cents =>
    replace h : s.Sound currency m := by simpa [owes] using h
    obtain ⟨rfl, rfl⟩ := Prod.mk.inj (Option.some.inj hstep)
    exact link_leaves (h.sameTerms rfl rfl rfl rfl ⟨h.fits.given, fun _ => hc⟩) fun h => h
  | pricing seen id by' => exact pricing_leaves (by simpa [owes] using h) hc hstep
  | repricing seen id price by' =>
    replace h : s.Sound currency m := by simpa [owes] using h
    simp only [step] at hstep
    split at hstep
    · obtain ⟨rfl, rfl⟩ := Prod.mk.inj (Option.some.inj hstep)
      exact leaves_done h (.refl s) (.refl s)
    · next hreprice =>
      obtain ⟨rfl, rfl⟩ := Prod.mk.inj (Option.some.inj hstep)
      exact repricing_leaves h hc hkeeps hreprice
  | respond ctx accept =>
    replace h : s.Sound currency m := by simpa [owes] using h
    obtain ⟨rfl, rfl⟩ := Prod.mk.inj (Option.some.inj hstep)
    exact goOn_leaves h fun c hcheck => checkRespond_ready h hcheck
  | claiming seen pending accept => exact claiming_leaves (by simpa [owes] using h) hc hstep
  | authorize ctx card =>
    replace h : s.Sound currency m := by simpa [owes] using h
    obtain ⟨rfl, rfl⟩ := Prod.mk.inj (Option.some.inj hstep)
    exact goOn_leaves h fun c hcheck => checkCard_ready hcheck
  | locking ctx =>
    replace h : s.Sound currency m := by simpa [owes] using h
    simp only [step] at hstep
    split at hstep
    · cases hstep
    · obtain ⟨rfl, rfl⟩ := Prod.mk.inj (Option.some.inj hstep)
      exact leaves_next ⟨h.agrees, h.price, h.priced, h.known, h.fits⟩
        ⟨fun _ _ h => h, fun _ h => h, fun h => h⟩ (fun _ _ h => h) rfl trivial
  | loading ctx =>
    replace h : s.Sound currency m := by simpa [owes] using h
    have heq : goOnLocked (checkAuthorize ctx s.link) s = (s', goes) := Option.some.inj hstep
    have hleaves : Leaves currency (some (loading ctx)) m s
        (goOnLocked (checkAuthorize ctx s.link) s).1
        (goOnLocked (checkAuthorize ctx s.link) s).2.running :=
      goOnLocked_leaves h fun c hcheck => checkAuthorize_ready h hcheck
    rwa [heq] at hleaves
  | payingInvoice =>
    replace h : s.Sound currency m := by simpa [owes] using h
    simp only [step] at hstep
    split at hstep
    · obtain ⟨rfl, rfl⟩ := Prod.mk.inj (Option.some.inj hstep)
      exact leaves_done h.unlock RentDeal.frame_unlock fun _ _ h => h
    · obtain ⟨rfl, rfl⟩ := Prod.mk.inj (Option.some.inj hstep)
      exact leaves_done h.unlock RentDeal.frame_unlock fun _ _ h => h
  | resuming seen id userId => exact resuming_leaves (by simpa [owes] using h) hc hstep
  | activating =>
    replace h : s.Sound currency m := by simpa [owes] using h
    obtain ⟨rfl, rfl⟩ := Prod.mk.inj (Option.some.inj hstep)
    have hsound : RentDeal.Sound currency (s.setLink fun link => { link with
        rentStatus := .active
        rentPaidUntil := some k.paidUntil }) m :=
      h.sameTerms rfl rfl rfl rfl ⟨h.fits.given, h.fits.priced⟩
    exact leaves_done hsound.unlock ⟨fun _ _ h => h, fun _ h => h, fun h => h⟩ fun _ _ h => h
  | firstPrice seen userId => exact firstPrice_leaves (by simpa [owes] using h) hc hstep
  | keepingPrice seen price userId =>
    exact keepingPrice_leaves (by simpa [owes] using h) hc hkeeps hstep
  | subscribing seen price userId => exact subscribing_leaves (by simpa [owes] using h) hc hstep
  | droppingPrice => exact droppingPrice_leaves (by simpa [owes] using h) hstep
  | linking seen price id status userId =>
    exact linking_leaves (by simpa [owes] using h) hc hkeeps hstep
  | deleted id =>
    replace h : s.Sound currency m := by simpa [owes] using h
    simp only [step] at hstep
    split at hstep
    · obtain ⟨rfl, rfl⟩ := Prod.mk.inj (Option.some.inj hstep)
      exact leaves_next h (.refl s) (.refl s) rfl trivial
    · obtain ⟨rfl, rfl⟩ := Prod.mk.inj (Option.some.inj hstep)
      exact leaves_done h (.refl s) (.refl s)
  | forgetting seen => exact forgetting_leaves (by simpa [owes] using h) hstep

end TermsCall

theorem TermsEvent.apply_leaves {e : TermsEvent} {r : RentDeal × Option TermsCall}
    (h : s.Sound currency m) (hevent : e.apply s = some r) :
    TermsCall.Leaves currency none m s r.1 r.2 := by
  cases e with
  | arrive c =>
    simp only [apply] at hevent
    split at hevent
    · next hstarts =>
      obtain rfl := Option.some.inj hevent
      cases c with
      | setRent ctx data | respond ctx accept | authorize ctx card =>
        exact TermsCall.leaves_next h (.refl s) (.refl s) rfl trivial
      | _ => cases hstarts
    · cases hevent
  | status id next =>
    simp only [apply] at hevent
    split at hevent
    · next hlives =>
      obtain rfl := Option.some.inj hevent
      have hstatus := h.status id (f := ({ · with status := next })) (fun _ => rfl)
        fun sub hget _ => by
          unfold RentDeal.lives at hlives
          rwa [hget] at hlives
      exact TermsCall.leaves_done hstatus.1 ⟨fun _ _ h => h, fun _ h => h, fun h => h⟩ hstatus.2
    · cases hevent
  | subscriptionDeleted id =>
    simp only [apply] at hevent
    split at hevent
    · cases hevent
    · obtain rfl := Option.some.inj hevent
      exact TermsCall.leaves_next h (.refl s) (.refl s) rfl trivial
  | invoice i id paid =>
    simp only [apply] at hevent
    split at hevent
    · obtain rfl := Option.some.inj hevent
      have hcurrency : (i.linkAfter paid s.link.toRentLink).rentCurrency = s.link.rentCurrency := by
        unfold RentInvoice.linkAfter
        split <;> rfl
      have hfits : RentTerms.InCurrency currency
          { s.link with toRentLink := i.linkAfter paid s.link.toRentLink } :=
        ⟨fun c hc => h.fits.given (hcurrency ▸ hc), fun hp => hcurrency.trans (h.fits.priced hp)⟩
      exact TermsCall.link_leaves (h.sameTerms rfl rfl rfl rfl hfits) fun hc => hcurrency.trans hc
    · obtain rfl := Option.some.inj hevent
      exact TermsCall.leaves_done h (.refl s) (.refl s)
  | answer next =>
    obtain rfl := Option.some.inj hevent
    exact TermsCall.link_leaves (h.sameTerms rfl rfl rfl rfl ⟨h.fits.given, h.fits.priced⟩) fun h => h
  | timeout =>
    obtain rfl := Option.some.inj hevent
    exact TermsCall.leaves_done h.unlock RentDeal.frame_unlock fun _ _ h => h

theorem TermsCall.Leaves.kept {c c' : Option TermsCall}
    (h : TermsCall.Leaves currency c m s s' c') :
    (termsInv currency).Kept s c m s' c' where
  whole := h.sound
  mine := h.knows
  others _ hd _ := TermsCall.Knows.frame hd h.frame
  apart _ _ _ _ _ := trivial

end Steps

/-! ## Runs -/

/-- A link without rent is sound. -/
theorem RentDeal.sound_initial (currency : String) (host member : ℕ) (owner : Option ℕ) :
    (RentDeal.initial host member owner).Sound currency 0 where
  agrees _ hsub := by cases hsub
  price hp := by cases hp
  priced hsub := by cases hsub
  known hsub := by cases hsub
  fits := by
    refine ⟨fun c hc => (by cases hc), ?_⟩
    rintro (hamount | hpending | hsub)
    · cases hamount
    · cases hpending
    · cases hsub

/-- In every run whose writes meet the condition: at rest, amount and price agree; and the next step
that meets it raises the price of a subscription only to an increase that was accepted. -/
theorem rent_agreed {host member : ℕ} {owner : Option ℕ} {moves : List (Move TermsEvent TermsChance)}
    {x : Calls RentDeal TermsCall}
    (hmeets : (termsCalls currency).machine.Meets (CallSystem.When (fun _ _ => True)
      fun k c s => c.keepsTerms currency k s = true) (.idle (.initial host member owner)) moves)
    (hrun : (termsCalls currency).machine.run (.idle (.initial host member owner)) moves = some x) :
    (x.quiet = true → x.shared.Agrees currency) ∧
      ∀ {move x' id u v}, CallSystem.When (fun _ _ => True)
          (fun k (c : TermsCall) s => c.keepsTerms currency k s = true) x move →
        (termsCalls currency).machine.step x move = some x' →
        x.shared.priceOf id = some u → x'.shared.priceOf id = some v → u < v →
        ∃ i k seen price pending, move = .step i k ∧
          x.inFlight.get? i = some (.repricing seen id price (.accepted pending)) ∧
          v = toMinorUnits pending currency ∧ pending ∈ x.shared.accepted := by
  have hidle : (termsInv currency).Holds (.idle (RentDeal.initial host member owner)) :=
    CallInv.holds_idle (RentDeal.sound_initial currency host member owner)
  have hx : (termsInv currency).Holds x := by
    refine hidle.run ?_ ?_ hmeets hrun
    · intro e s r _ hevent m h _
      have hsound : s.Sound currency m := by simpa [CallInv.weigh, termsInv] using h
      exact (TermsEvent.apply_leaves hsound hevent).kept
    · intro k c s r hkeeps hcall m h hc
      obtain ⟨⟨s', goes⟩, hstep, rfl⟩ := Option.map_eq_some_iff.1 hcall
      exact (TermsCall.step_leaves h (hc c rfl) hkeeps hstep).kept
  refine ⟨fun hquiet => RentDeal.Sound.agreed (hx.quiet hquiet), ?_⟩
  intro move x' id u v hwhen hmove hu hv hlt
  cases move with
  | event e =>
    obtain ⟨s, c, hevent, rfl⟩ := CallSystem.machine_event.1 hmove
    obtain ⟨seen, price, pending, hnone, -⟩ :=
      (TermsEvent.apply_leaves hx.whole hevent).rises hu hv hlt
    cases hnone
  | step i k =>
    obtain ⟨c, s, c', hi, hcall, rfl⟩ := CallSystem.machine_step.1 hmove
    obtain ⟨⟨s', goes⟩, hstep, heq⟩ := Option.map_eq_some_iff.1 hcall
    obtain ⟨rfl, rfl⟩ := Prod.mk.inj heq
    have hwhole := hx.whole
    rw [Table.sum_eq_add_erase (fun _ => (termsInv currency).weight) hi] at hwhole
    obtain ⟨seen, price, pending, hsome, hfacts⟩ :=
      (TermsCall.step_leaves hwhole (hx.each hi) (hwhen c hi) hstep).rises hu hv hlt
    obtain rfl := Option.some.inj hsome
    exact ⟨i, k, seen, price, pending, rfl, hi, hfacts⟩

end Terms

/-! ## Three runs -/

/-- The owner of the professional's business. -/
def tenant : Caller := { owner 0 with
  shop := { corner with id := 2 }
  userId := 2 }

/-- A link between the unit and the business of the professional. -/
def newRentDeal : RentDeal := .initial 1 2 (some 2)

/-- A card that is good, at an instant. -/
def goodCard (now : ℤ) : TermsChance where
  now := now
  today := 0
  paidUntil := 0
  declined := none
  active := true
  keyExpired := false
  repeated := false
  timesOut := false

/-- The unit sets a rent. -/
def rentSet (amount : ℚ) : Move TermsEvent TermsChance :=
  .event (.arrive (.setRent (owner 0) ⟨some amount, none⟩))

/-- The invite is accepted, the rent is set to 100, and the professional begins to authorise it. -/
def rentOffered : List (Move TermsEvent TermsChance) :=
  [.event (.answer .active), rentSet 100] ++ List.replicate 2 (.step 1 (goodCard 0)) ++
    [.event (.arrive (.authorize tenant ⟨true, true⟩))] ++ List.replicate 6 (.step 2 (goodCard 0))

/-- The unit proposes 120, and the professional accepts. -/
def raisedByAccept : List (Move TermsEvent TermsChance) :=
  rentOffered ++ [.step 2 (goodCard 0), rentSet 120] ++ List.replicate 2 (.step 3 (goodCard 1)) ++
    [.event (.arrive (.respond tenant true))] ++ List.replicate 5 (.step 4 (goodCard 2))

theorem raisedByAccept_agrees : ∃ x, (termsCalls "BRL").machine.run (.idle newRentDeal)
      raisedByAccept = some x ∧ x.shared.priceOf 1 = some 12000 ∧ x.shared.Agrees "BRL" := by
  have hmeets : (termsCalls "BRL").machine.Meets (CallSystem.When (fun _ _ => True)
      fun k c s => c.keepsTerms "BRL" k s = true) (.idle newRentDeal) raisedByAccept := by
    decide +kernel
  have hsome : ((termsCalls "BRL").machine.run (.idle newRentDeal) raisedByAccept).any
      (fun x => x.quiet && x.shared.priceOf 1 == some 12000) = true := by
    decide +kernel
  obtain ⟨x, hrun, hout⟩ := (Option.any_eq_true _ _).1 hsome
  simp only [Bool.and_eq_true, beq_iff_eq] at hout
  exact ⟨x, hrun, hout.2, (rent_agreed "BRL" hmeets hrun).1 hout.1⟩

/-- The unit sets 120 while the subscription at 100 is not in the link yet. -/
def setAcrossAuthorize : List (Move TermsEvent TermsChance) :=
  rentOffered ++ [rentSet 120] ++ List.replicate 2 (.step 3 (goodCard 1)) ++ [.step 2 (goodCard 0)]

/-- Of two calls that lower the rent to 60 and to 80, the one to 80 is behind. -/
def loweredTwice : List (Move TermsEvent TermsChance) :=
  rentOffered ++ [.step 2 (goodCard 0), rentSet 60, rentSet 80, .step 3 (goodCard 1),
    .step 4 (goodCard 1)] ++ List.replicate 3 (.step 3 (goodCard 1)) ++ [.step 4 (goodCard 1)]

/-- At rest the link says 120 and Stripe charges 100; a price rises from 60 to 80 that nobody
accepted. -/
theorem rent_disagrees :
    (∃ x, (termsCalls "BRL").machine.run (.idle newRentDeal) setAcrossAuthorize = some x ∧
      x.quiet = true ∧ x.shared.priceOf 1 = some 10000 ∧ ¬ x.shared.Agrees "BRL") ∧
    ∃ x x', (termsCalls "BRL").machine.run (.idle newRentDeal) loweredTwice = some x ∧
      (termsCalls "BRL").machine.step x (.step 4 (goodCard 1)) = some x' ∧
      x.shared.priceOf 1 = some 6000 ∧ x'.shared.priceOf 1 = some 8000 ∧
      x.shared.accepted = [] := by
  refine ⟨?_, ?_⟩
  · have hsome : ((termsCalls "BRL").machine.run (.idle newRentDeal) setAcrossAuthorize).any
        (fun x => x.quiet && x.shared.priceOf 1 == some 10000 && x.shared.lives 1 &&
          x.shared.link.rentBillingMode == .card &&
          x.shared.link.rentStripeSubscriptionId == some 1 &&
          x.shared.link.rentAmount == some 120) = true := by
      decide +kernel
    obtain ⟨x, hrun, hout⟩ := (Option.any_eq_true _ _).1 hsome
    simp only [Bool.and_eq_true, beq_iff_eq] at hout
    obtain ⟨⟨⟨⟨⟨hquiet, hprice⟩, hlives⟩, hcard⟩, hsub⟩, hamount⟩ := hout
    refine ⟨x, hrun, hquiet, hprice, fun hagrees => ?_⟩
    obtain ⟨amount, hset, hcharged⟩ := hagrees hcard hsub hlives
    obtain rfl := Option.some.inj (hamount.symm.trans hset)
    rw [hprice, Option.some.injEq] at hcharged
    exact absurd hcharged (by decide +kernel)
  · have hsome : ((termsCalls "BRL").machine.run (.idle newRentDeal) loweredTwice).any (fun x =>
        x.shared.priceOf 1 == some 6000 && x.shared.accepted == [] &&
          ((termsCalls "BRL").machine.step x (.step 4 (goodCard 1))).any fun x' =>
            x'.shared.priceOf 1 == some 8000) = true := by
      decide +kernel
    obtain ⟨x, hrun, hout⟩ := (Option.any_eq_true _ _).1 hsome
    simp only [Bool.and_eq_true, beq_iff_eq, Option.any_eq_true] at hout
    obtain ⟨⟨hbefore, haccepted⟩, x', hstep, hafter⟩ := hout
    exact ⟨x, x', hrun, hstep, hbefore, hafter, haccepted⟩

end Barbershop
