import Barbershop.Payment.AppPayment

/-!
# One delivery about a payment

What a delivery about a payment writes (`AppPayment.Notified`), and what it has done wherever it
stops. A lost dispute closes its row before anything is returned, and a closed row is not looked at
again; a purchase of featured days is marked before its days are taken. `AppPayment.keepsUp` is what
a delivery has to meet for the closed row to mean that the payment was returned (`Notified.lost`).
-/

namespace Barbershop

open Lib

/-! ## What Stripe delivers for a payment -/

namespace AppPayment

variable (p : AppPayment)

/-- `c` is the charge of the payment. -/
structure Charged (c : StripeCharge) : Prop where
  intent : c.payment_intent = some p.intent
  invoice : c.invoice = p.invoice
  currency : c.currency = p.currency
  amount : c.amount = p.amount
  refunded_nonneg : 0 ≤ c.amount_refunded
  refunded_le : c.amount_refunded ≤ c.amount
  refunded : c.refunded = decide (c.amount ≤ c.amount_refunded)

/-- `d` is a dispute about the payment; `amountOf` is how much each dispute is about. -/
structure Disputed (amountOf : String → ℤ) (d : StripeDispute) : Prop where
  intent : d.payment_intent = some p.intent
  currency : d.currency = p.currency
  amount : d.amount = amountOf d.id
  pos : 0 < d.amount
  le : d.amount ≤ p.amount

/-- The notice is about the payment. -/
def Notified (amountOf : String → ℤ) (n : Notice) : Prop :=
  match n.event with
  | .dispute d =>
    p.Disputed amountOf d ∧ ∀ c, d.chargeAtHand n.retrieved = some c → p.Charged c
  | .refunded c => p.Charged c

end AppPayment

/-- No event says that the dispute was closed otherwise than lost. -/
def FinallyLost (id : String) (ns : List (Notice × Option ℕ)) : Prop :=
  ∀ n ∈ ns, ∀ d, n.1.event = .dispute d → d.id = id → d.status.closed = true → d.status = .lost

/-! ## Deliveries that keep up -/

namespace AppWrite

/-- A write after which the payment is not looked at again. -/
def opens (p : AppPayment) : AppWrite → Bool
  | dispute d _ => d.status == .lost
  | markFeatured _ => p.kind == .featured
  | _ => false

/-- The kind of payment that the write returns. -/
def payment : AppWrite → Option AppPaymentKind
  | dispute .. => none
  | markFeatured _ | takeDays .. => some .featured
  | revokeFee .. => some .jobFee
  | club .. => some .club
  | deposit .. => some .deposit
  | prepaid .. => some .prepaid
  | tip .. => some .tip

def isMark : AppWrite → Bool
  | markFeatured _ => true
  | _ => false

def isTakeDays : AppWrite → Bool
  | takeDays .. => true
  | _ => false

end AppWrite

namespace AppPayment

variable (p : AppPayment)

/-- The writes that return the payment. -/
def returns : List (AppWrite → Bool) :=
  if p.kind = .featured then [AppWrite.isMark, AppWrite.isTakeDays]
  else [fun x => x.payment == some p.kind]

/-- There is something left to return; of featured days, whether the purchase is still paid. -/
def pending (s : AppBooks) : Bool :=
  p.kind != .featured || (s.featured.get? p.id).any (·.status == .paid)

/-- A delivery that makes a write after which the payment is not looked at again also makes the
writes that return it. -/
def keepsUp (s : AppBooks) (n : Notice × Option ℕ) : Bool :=
  let done := refundWebhooks.done n.1 n.2 s
  !p.pending s || !done.any (AppWrite.opens p) || p.returns.all done.any

/-- A deposit and a tip are returned as a whole or not at all. -/
def whole : Bool := p.kind == .deposit || p.kind == .tip

end AppPayment

/-! ## What a delivery writes -/

theorem mem_revokePlatformPurchase {intent : String} {now : ℤ} {s : AppBooks} {x : AppWrite}
    (hx : x ∈ revokePlatformPurchase intent now s) : x = .revokeFee intent now ∨
      ∃ id f, s.featured.get? id = some f ∧ f.stripePaymentIntentId = some intent ∧
        (x = .markFeatured id ∨ x = .takeDays id f now) := by
  unfold revokePlatformPurchase at hx
  rcases List.mem_append.1 hx with hx | hx
  · split at hx
    · next id f hfind =>
      obtain ⟨hf, hintent⟩ := Table.find?_some hfind
      split at hx
      · simp only [List.mem_cons, List.not_mem_nil, or_false] at hx
        exact .inr ⟨id, f, hf, eq_of_beq hintent, hx⟩
      · cases hx
    · cases hx
  · exact .inl (List.mem_singleton.1 hx)

/-- A write of `syncStripeRefund` takes its arguments from the charge. -/
inductive OfCharge (c : StripeCharge) (now : ℤ) (s : AppBooks) : AppWrite → Prop where
  | club {invoiceId : String} (h : c.invoice = some invoiceId)
    (hpos : 0 < fromMinorUnits c.amount_refunded c.currency) :
    OfCharge c now s (.club invoiceId (fromMinorUnits c.amount_refunded c.currency))
  | deposit {intent : String} (h : c.payment_intent = some intent) : OfCharge c now s
    (.deposit intent (fromMinorUnits c.amount_refunded c.currency) c.currency c.refunded now)
  | prepaid {intent : String} (h : c.payment_intent = some intent) : OfCharge c now s
    (.prepaid intent (fromMinorUnits c.amount_refunded c.currency) c.refunded now)
  | tip {intent : String} (h : c.payment_intent = some intent) : OfCharge c now s
    (.tip intent (fromMinorUnits c.amount_refunded c.currency) c.currency c.refunded now)
  | revoke {intent : String} {x : AppWrite} (h : c.payment_intent = some intent)
    (hx : x ∈ revokePlatformPurchase intent now s) : OfCharge c now s x

theorem mem_syncStripeRefund {c : StripeCharge} {now : ℤ} {s : AppBooks} {x : AppWrite}
    (hx : x ∈ syncStripeRefund c now s) : OfCharge c now s x := by
  unfold syncStripeRefund at hx
  rcases List.mem_append.1 hx with hx | hx
  · split at hx
    · next hpos =>
      obtain ⟨invoiceId, hid, rfl⟩ := List.mem_map.1 hx
      exact .club (Option.mem_toList.1 hid) hpos
    · cases hx
  · split at hx
    · cases hx
    · next intent hintent =>
      split at hx
      · cases hx
      · simp only [List.cons_append, List.nil_append, List.mem_cons] at hx
        rcases hx with rfl | rfl | rfl | hx
        · exact .deposit hintent
        · exact .prepaid hintent
        · exact .tip hintent
        · split at hx
          · exact .revoke hintent hx
          · cases hx

/-- Of a closed dispute nothing is written; of an open one its row first, and if it is lost, what
returns the payment. -/
theorem writes_dispute {n : Notice} {d : StripeDispute} (he : n.event = .dispute d) (s : AppBooks) :
    ((s.disputes d.id).any (·.closedAt.isSome) = true ∧ n.writes s = []) ∨
      ∃ rest, n.writes s = .dispute d n.now :: rest ∧ (d.status ≠ .lost → rest = []) ∧
        ∀ x ∈ rest, (∃ intent, d.payment_intent = some intent ∧
            x ∈ revokePlatformPurchase intent n.now ((AppWrite.dispute d n.now).exec s)) ∨
          OfCharge (d.chargeOfLostDispute n.retrieved) n.syncedAt
            (refundWebhooks.execAll (recordDispute d n.now s).1 s) x := by
  simp only [Notice.writes, he]
  by_cases hclosed : (s.disputes d.id).any (·.closedAt.isSome) = true
  · exact .inl ⟨hclosed, by simp [recordDispute, hclosed]⟩
  · right
    by_cases hlost : d.status = .lost
    · refine ⟨(d.payment_intent.elim [] fun intent => revokePlatformPurchase intent n.now
          ((AppWrite.dispute d n.now).exec s)) ++ syncStripeRefund (d.chargeOfLostDispute
          n.retrieved) n.syncedAt (refundWebhooks.execAll (recordDispute d n.now s).1 s), ?_,
        fun hne => absurd hlost hne, fun x hx => ?_⟩
      · simp [recordDispute, hclosed, hlost, Handler.execAll, refundWebhooks]
      · rcases List.mem_append.1 hx with hx | hx
        · cases hi : d.payment_intent with
          | none =>
            rw [hi] at hx
            cases hx
          | some intent =>
            rw [hi] at hx
            exact .inl ⟨intent, rfl, hx⟩
        · exact .inr (mem_syncStripeRefund hx)
    · refine ⟨[], ?_, fun _ => rfl, fun x hx => by cases hx⟩
      simp [recordDispute, hclosed, hlost]

namespace AppPayment

variable {p : AppPayment} {amountOf : String → ℤ} {n : Notice} {s : AppBooks} {x : AppWrite}

/-- A charge that is refunded is the payment's, by its intent. -/
structure Refunds (p : AppPayment) (c : StripeCharge) : Prop where
  intent : c.payment_intent = some p.intent
  currency : c.currency = p.currency
  le : c.amount_refunded ≤ p.amount

theorem Charged.refunds {c : StripeCharge} (h : p.Charged c) : p.Refunds c :=
  ⟨h.intent, h.currency, h.amount ▸ h.refunded_le⟩

/-- The refund that a lost dispute is taken as. -/
theorem Disputed.refunds {d : StripeDispute} {retrieved : Option StripeCharge}
    (h : p.Disputed amountOf d)
    (hc : ∀ c, d.chargeAtHand retrieved = some c → p.Charged c) :
    p.Refunds (d.chargeOfLostDispute retrieved) ∧
      d.amount ≤ (d.chargeOfLostDispute retrieved).amount_refunded ∧
      (d.amount = p.amount → (d.chargeOfLostDispute retrieved).refunded = true) ∧
      ∀ invoiceId, (d.chargeOfLostDispute retrieved).invoice = some invoiceId →
        p.invoice = some invoiceId := by
  have hle := h.le
  cases hat : d.chargeAtHand retrieved with
  | none =>
    have hnone : d.chargeOfLostDispute retrieved =
        { id := d.chargeId.getD d.id, payment_intent := d.payment_intent, invoice := none,
          currency := d.currency, amount := d.amount,
          amount_refunded := min d.amount (max d.amount 0),
          refunded := decide (d.amount ≤ max d.amount 0) } := by
      simp [StripeDispute.chargeOfLostDispute, hat]
    rw [hnone]
    refine ⟨⟨h.intent, h.currency, ?_⟩, ?_, fun _ => ?_, fun _ hi => by cases hi⟩
    · exact (min_le_left _ _).trans hle
    · exact le_min le_rfl (le_max_left _ _)
    · exact decide_eq_true (le_max_left _ _)
  | some c =>
    have hcharge := hc c hat
    have hsome : d.chargeOfLostDispute retrieved =
        { id := c.id, payment_intent := some p.intent, invoice := p.invoice, currency := c.currency,
          amount := p.amount, amount_refunded := min p.amount (max d.amount c.amount_refunded),
          refunded := decide (p.amount ≤ max d.amount c.amount_refunded) } := by
      simp [StripeDispute.chargeOfLostDispute, hat, hcharge.intent, hcharge.invoice, hcharge.amount]
    rw [hsome]
    refine ⟨⟨rfl, hcharge.currency, min_le_left _ _⟩, ?_, fun hall => ?_, fun _ hi => hi⟩
    · exact le_min hle (le_max_left _ _)
    · exact decide_eq_true (hall ▸ le_max_left _ _)

theorem within_revoke {intent : String} {now : ℤ}
    (hx : x ∈ revokePlatformPurchase intent now s) : p.Within x := by
  obtain rfl | ⟨id, f, -, -, rfl | rfl⟩ := mem_revokePlatformPurchase hx <;> trivial

theorem Refunds.within {c : StripeCharge} {now : ℤ} (h : p.Refunds c)
    (hx : OfCharge c now s x) : p.Within x := by
  cases hx with
  | club hi hpos =>
    refine ⟨hpos, fun _ => ?_⟩
    rw [h.currency]
    exact fromMinorUnits_le.2 h.le
  | deposit | prepaid | tip => trivial
  | revoke hi hx => exact within_revoke hx

theorem Notified.within (h : p.Notified amountOf n) (hx : x ∈ n.writes s) : p.Within x := by
  unfold Notified at h
  cases he : n.event with
  | dispute d =>
    rw [he] at h
    obtain ⟨-, hnil⟩ | ⟨rest, hrest, -, hmem⟩ := writes_dispute he s
    · rw [hnil] at hx
      cases hx
    · rw [hrest, List.mem_cons] at hx
      rcases hx with rfl | hx
      · trivial
      · rcases hmem x hx with ⟨intent, -, hx⟩ | hx
        · exact within_revoke hx
        · exact (h.1.refunds h.2).1.within hx
  | refunded c =>
    rw [he] at h
    simp only [Notice.writes, he] at hx
    exact h.refunds.within (mem_syncStripeRefund hx)

/-- Wherever a delivery stops, what was returned stays returned. -/
theorem Notified.advances (hp : 0 ≤ p.amount) (h : p.Notified amountOf n) (stop : Option ℕ)
    (s : AppBooks) : p.Advances s (refundWebhooks.handle n stop s) :=
  Handler.execAll_rel (R := p.Advances) Advances.refl Advances.trans
    (fun _ hx _ => advances_exec hp (h.within (Handler.mem_writes hx))) s

/-! ## The write that returns a payment -/

/-- The write returns `amount` of the payment. -/
def Settles (p : AppPayment) (amount : ℤ) : AppWrite → Prop
  | .deposit intent _ _ full _ => p.kind = .deposit ∧ intent = p.intent ∧ full = true
  | .prepaid intent refunded _ _ =>
    p.kind = .prepaid ∧ intent = p.intent ∧ fromMinorUnits amount p.currency ≤ refunded
  | .tip intent _ _ full _ => p.kind = .tip ∧ intent = p.intent ∧ full = true
  | .club invoiceId refunded =>
    p.kind = .club ∧ p.invoice = some invoiceId ∧ fromMinorUnits amount p.currency ≤ refunded
  | .revokeFee intent _ => p.kind = .jobFee ∧ intent = p.intent
  | _ => False

theorem Settles.applied {amount : ℤ} (hle : amount ≤ p.amount) (h : p.Settles amount x)
    (hx : p.Within x) (hs : p.Kept s) : p.Applied amount (x.exec s) := by
  have hvalue : fromMinorUnits amount p.currency ≤ p.value := fromMinorUnits_le.2 hle
  cases x with
  | deposit intent refunded currency full now =>
    obtain ⟨hk, rfl, hfull⟩ := h
    simp only [Kept, Applied, shown, hk] at hs ⊢
    obtain ⟨a, ha, -, hrow⟩ := hs.row
    simp only [AppWrite.exec]
    rw [hs.updateFirst_eq, Table.value_modify_self _ _ ha, Appointment.depositReturned,
      if_pos (Appointment.syncDeposit_full hfull), (Appointment.syncDeposit_frame ..).2.1, hrow]
    exact hvalue
  | prepaid intent refunded full now =>
    obtain ⟨hk, rfl, hback⟩ := h
    simp only [Kept, Applied, shown, hk] at hs ⊢
    obtain ⟨a, ha, -, hat, hamount, hbefore⟩ := hs.row
    simp only [AppWrite.exec]
    rw [hs.updateFirst_eq, Table.value_modify_self _ _ ha]
    have sync := Appointment.syncPrepaid_returned refunded full now hat
      (by rw [hamount]; exact hbefore)
    rw [hamount] at sync
    exact (le_min hvalue hback).trans sync.2.1
  | tip intent refunded currency full now =>
    obtain ⟨hk, rfl, hfull⟩ := h
    simp only [Kept, Applied, shown, hk] at hs ⊢
    obtain ⟨t, ht, -, hrow⟩ := hs.row
    simp only [AppWrite.exec]
    rw [hs.updateFirst_eq, Table.value_modify_self _ _ ht, StripeTip.returned,
      if_pos (StripeTip.sync_full hfull), (StripeTip.sync_frame ..).2, hrow]
    exact hvalue
  | club invoiceId refunded =>
    obtain ⟨hk, hid, hback⟩ := h
    simp only [Kept, Applied, shown, hk] at hs ⊢
    obtain ⟨c, hc, hkey, -⟩ := hs.row
    have hinvoice : c.stripeInvoiceId = invoiceId :=
      Option.some.inj ((eq_of_beq hkey).symm.trans hid)
    have hget : ((AppWrite.club invoiceId refunded).exec s).clubPayments.get? p.id =
        some (c.sync invoiceId refunded) := by
      simp only [AppWrite.exec, Table.get?_modifyAll, hc, Option.map_some]
    rw [Table.value_of_get? _ hget]
    exact hback.trans ((ClubInvoicePayment.sync_returned invoiceId c hx.1).2.1 hinvoice)
  | revokeFee intent now =>
    obtain ⟨hk, rfl⟩ := h
    simp only [Kept, Applied, hk] at hs ⊢
    obtain ⟨f, hf, hrow⟩ := hs
    refine ⟨f.revoke p.intent now, ?_, (JobFee.revoke_row hrow p.intent now).2.2 rfl⟩
    simp only [AppWrite.exec, Table.get?_modifyAll, hf, Option.map_some]
  | dispute | markFeatured | takeDays => exact h.elim

/-- A write of a lost dispute that is of the kind that returns the payment returns the disputed
amount. -/
theorem Notified.settles {d : StripeDispute} (h : p.Notified amountOf n)
    (he : n.event = .dispute d) (hwhole : p.whole = true → d.amount = p.amount)
    (hkind : p.kind ≠ .featured) (hx : x ∈ n.writes s) (hm : x.payment = some p.kind) :
    p.Settles d.amount x := by
  unfold Notified at h
  rw [he] at h
  obtain ⟨hrefunds, hamount, hfull, hinvoice⟩ := h.1.refunds h.2
  have hback : fromMinorUnits d.amount p.currency ≤
      fromMinorUnits (d.chargeOfLostDispute n.retrieved).amount_refunded
        (d.chargeOfLostDispute n.retrieved).currency := by
    rw [hrefunds.currency]
    exact fromMinorUnits_le.2 hamount
  have own : ∀ {intent : String}, (d.chargeOfLostDispute n.retrieved).payment_intent = some intent →
      intent = p.intent := fun hi => Option.some.inj (hi.symm.trans hrefunds.intent)
  have revoked : ∀ {intent : String} {now : ℤ} {s' : AppBooks}, intent = p.intent →
      x ∈ revokePlatformPurchase intent now s' → p.Settles d.amount x := by
    intro intent now s' hintent hx
    obtain rfl | ⟨id, f, -, -, rfl | rfl⟩ := mem_revokePlatformPurchase hx
    · exact ⟨(Option.some.inj hm).symm, hintent⟩
    · exact absurd (Option.some.inj hm).symm hkind
    · exact absurd (Option.some.inj hm).symm hkind
  obtain ⟨-, hnil⟩ | ⟨rest, hrest, -, hmem⟩ := writes_dispute he s
  · rw [hnil] at hx
    cases hx
  · rw [hrest, List.mem_cons] at hx
    rcases hx with rfl | hx
    · cases hm
    · rcases hmem x hx with ⟨intent, hintent, hx⟩ | hx
      · exact revoked (Option.some.inj (hintent.symm.trans h.1.intent)) hx
      · cases hx with
        | club hi hpos => exact ⟨(Option.some.inj hm).symm, hinvoice _ hi, hback⟩
        | deposit hi =>
          have hk : p.kind = .deposit := (Option.some.inj hm).symm
          exact ⟨hk, own hi, hfull (hwhole (by simp [whole, hk]))⟩
        | prepaid hi => exact ⟨(Option.some.inj hm).symm, own hi, hback⟩
        | tip hi =>
          have hk : p.kind = .tip := (Option.some.inj hm).symm
          exact ⟨hk, own hi, hfull (hwhole (by simp [whole, hk]))⟩
        | revoke hi hx => exact revoked (own hi) hx

/-! ## Featured days -/

/-- A write to a purchase of featured days is to the payment's. -/
def Marks (p : AppPayment) : AppWrite → Prop
  | .markFeatured id | .takeDays id _ _ => id = p.id
  | _ => True

theorem marks_of_revoke {intent : String} {now : ℤ} (hk : p.kind = .featured) (hs : p.Kept s)
    (hintent : intent = p.intent) (hx : x ∈ revokePlatformPurchase intent now s) : p.Marks x := by
  simp only [Kept, hk] at hs
  subst hintent
  obtain rfl | ⟨id, f, hf, hi, rfl | rfl⟩ := mem_revokePlatformPurchase hx
  · trivial
  · exact hs.only hf (by simp [hi])
  · exact hs.only hf (by simp [hi])

/-- A delivery marks no purchase but the payment's, and takes no other's days. -/
theorem Notified.marks (hp : 0 ≤ p.amount) (h : p.Notified amountOf n) (hk : p.kind = .featured)
    (hs : p.Kept s) (hx : x ∈ n.writes s) : p.Marks x := by
  have ofCharge : ∀ {c : StripeCharge} {now : ℤ} {s' : AppBooks}, p.Refunds c → p.Kept s' →
      OfCharge c now s' x → p.Marks x := by
    intro c now s' hrefunds hs' hx
    cases hx with
    | club | deposit | prepaid | tip => trivial
    | revoke hi hx =>
      exact marks_of_revoke hk hs' (Option.some.inj (hi.symm.trans hrefunds.intent)) hx
  unfold Notified at h
  cases he : n.event with
  | refunded c =>
    rw [he] at h
    simp only [Notice.writes, he] at hx
    exact ofCharge h.refunds hs (mem_syncStripeRefund hx)
  | dispute d =>
    rw [he] at h
    obtain ⟨-, hnil⟩ | ⟨rest, hrest, -, hmem⟩ := writes_dispute he s
    · rw [hnil] at hx
      cases hx
    · rw [hrest, List.mem_cons] at hx
      rcases hx with rfl | hx
      · trivial
      · have recorded : p.Kept ((AppWrite.dispute d n.now).exec s) :=
          (advances_exec hp (x := .dispute d n.now) trivial).kept hs
        rcases hmem x hx with ⟨intent, hi, hx⟩ | hx
        · exact marks_of_revoke hk recorded (Option.some.inj (hi.symm.trans h.1.intent)) hx
        · refine ofCharge (h.1.refunds h.2).1 ?_ hx
          refine (Handler.execAll_rel (R := p.Advances) Advances.refl Advances.trans
            (fun y hy _ => advances_exec hp ?_) s).kept hs
          unfold recordDispute at hy
          split at hy
          · cases hy
          · rcases List.mem_cons.1 hy with rfl | hy
            · trivial
            · split at hy
              · cases hi : d.payment_intent with
                | none =>
                  rw [hi] at hy
                  cases hy
                | some intent =>
                  rw [hi] at hy
                  exact within_revoke hy
              · cases hy

/-- A delivery that marks the purchase and takes its days has revoked it. -/
theorem Notified.revoked (hp : 0 ≤ p.amount) (h : p.Notified amountOf n)
    (hk : p.kind = .featured) (hs : p.Kept s) {stop : Option ℕ}
    (hmark : (refundWebhooks.done n stop s).any AppWrite.isMark = true)
    (hdays : (refundWebhooks.done n stop s).any AppWrite.isTakeDays = true) (amount : ℤ) :
    p.Applied amount (refundWebhooks.handle n stop s) := by
  have hkept : ∀ y ∈ refundWebhooks.done n stop s, ∀ s, p.Kept s → p.Kept (y.exec s) :=
    fun y hy _ => (advances_exec hp (h.within (Handler.mem_writes hy))).kept
  have hlasts : ∀ (y : AppWrite) (s : AppBooks), p.Kept s → _ := fun y s hs => by
    simp only [Kept, hk] at hs
    exact (featured_exec y hs).2
  have marked : ∃ f, (refundWebhooks.handle n stop s).featured.get? p.id = some f ∧
      f.status = .refunded := by
    obtain ⟨x, hx, hxm⟩ := List.any_eq_true.1 hmark
    refine Handler.execAll_of_mem (I := p.Kept)
      (Q := fun s => ∃ f, s.featured.get? p.id = some f ∧ f.status = .refunded) hx hkept
      (fun s' hs' => ?_) (fun y _ s' hs' hq => ?_) hs
    · cases x with
      | markFeatured id =>
        obtain rfl : id = p.id := h.marks hp hk hs (Handler.mem_writes hx)
        simp only [Kept, hk] at hs'
        obtain ⟨f, hf, -, hrow⟩ := hs'.row
        exact ⟨f.claimBack, (by simp [refundWebhooks, AppWrite.exec, hf]),
          FeaturedSale.claimBack_refunded hrow⟩
      | dispute | takeDays | revokeFee | club | deposit | prepaid | tip => cases hxm
    · obtain ⟨f, hf, hback⟩ := hq
      obtain ⟨g, hg, hgb, -⟩ := hlasts y s' hs' hf
      exact ⟨g, hg, hgb hback⟩
  have taken : ∃ f, (refundWebhooks.handle n stop s).featured.get? p.id = some f ∧
      f.daysTaken = true := by
    obtain ⟨x, hx, hxm⟩ := List.any_eq_true.1 hdays
    refine Handler.execAll_of_mem (I := p.Kept)
      (Q := fun s => ∃ f, s.featured.get? p.id = some f ∧ f.daysTaken = true) hx hkept
      (fun s' hs' => ?_) (fun y _ s' hs' hq => ?_) hs
    · cases x with
      | takeDays id seen now =>
        obtain rfl : id = p.id := h.marks hp hk hs (Handler.mem_writes hx)
        simp only [Kept, hk] at hs'
        obtain ⟨f, hf, -, -⟩ := hs'.row
        exact ⟨{ f with daysTaken := true }, (by simp [refundWebhooks, AppWrite.exec, hf]), rfl⟩
      | dispute | markFeatured | revokeFee | club | deposit | prepaid | tip => cases hxm
    · obtain ⟨f, hf, htaken⟩ := hq
      obtain ⟨g, hg, -, hgt⟩ := hlasts y s' hs' hf
      exact ⟨g, hg, hgt htaken⟩
  obtain ⟨f, hf, hback⟩ := marked
  obtain ⟨g, hg, htaken⟩ := taken
  obtain rfl := Option.some.inj (hf.symm.trans hg)
  simp only [Applied, hk]
  exact ⟨f, hf, hback, htaken⟩

/-! ## One delivery -/

theorem not_paid_of_tookDays (hk : p.kind = .featured) (hs : p.Kept s) (ht : p.TookDays s)
    (hpending : p.pending s = false) (amount : ℤ) : p.Applied amount s := by
  simp only [Kept, hk] at hs
  obtain ⟨f, hf, -, hrow⟩ := hs.row
  have hback : f.status = .refunded := by
    apply hrow.resolve_left
    intro hpaid
    simp [pending, hk, hf, hpaid] at hpending
  simp only [Applied, hk]
  exact ⟨f, hf, hback, ht hk f hf hback⟩

theorem marks_and_days {done : List AppWrite} (hk : p.kind = .featured)
    (hall : p.returns.all done.any = true) :
    done.any AppWrite.isMark = true ∧ done.any AppWrite.isTakeDays = true := by
  simpa only [returns, hk, if_true, List.all_cons, List.all_nil, Bool.and_true, Bool.and_eq_true]
    using hall

/-- A delivery that keeps up does not leave the days of a revoked purchase standing. -/
theorem Notified.tookDays (hp : 0 ≤ p.amount) (h : p.Notified amountOf n) {stop : Option ℕ}
    (hs : p.Kept s) (ht : p.TookDays s) (hc : p.keepsUp s (n, stop) = true) :
    p.TookDays (refundWebhooks.handle n stop s) := by
  intro hk f' hf' hback
  have revoked : p.Applied 0 (refundWebhooks.handle n stop s) → f'.daysTaken = true := by
    intro happlied
    simp only [Applied, hk] at happlied
    obtain ⟨f, hf, -, htaken⟩ := happlied
    obtain rfl := Option.some.inj (hf.symm.trans hf')
    exact htaken
  cases hpending : p.pending s with
  | false =>
    apply revoked
    exact (h.advances hp stop s).applied hs 0 (not_paid_of_tookDays hk hs ht hpending 0)
  | true =>
    cases hmark : (refundWebhooks.done n stop s).any AppWrite.isMark with
    | true =>
      have hopens : (refundWebhooks.done n stop s).any (AppWrite.opens p) = true := by
        obtain ⟨x, hx, hxm⟩ := List.any_eq_true.1 hmark
        refine List.any_eq_true.2 ⟨x, hx, ?_⟩
        cases x with
        | markFeatured id => simp [AppWrite.opens, hk]
        | dispute | takeDays | revokeFee | club | deposit | prepaid | tip => cases hxm
      simp only [keepsUp, hpending, hopens, Bool.not_true, Bool.false_or] at hc
      obtain ⟨-, hdays⟩ := marks_and_days hk hc
      exact revoked (h.revoked hp hk hs hmark hdays 0)
    | false =>
      -- without the mark the purchase is still paid
      obtain ⟨f, hf, hpaid⟩ : ∃ f, s.featured.get? p.id = some f ∧ f.status = .paid := by
        simpa [pending, hk, Option.any_eq_true] using hpending
      have still : ∃ f, (refundWebhooks.handle n stop s).featured.get? p.id = some f ∧
          f.status = .paid := by
        refine Handler.execAll_inv
          (I := fun s : AppBooks => ∃ f, s.featured.get? p.id = some f ∧ f.status = .paid)
          (fun x hx s' hq => ?_) ⟨f, hf, hpaid⟩
        have hx' := List.any_eq_false.1 hmark x hx
        obtain ⟨g, hg, hgp⟩ := hq
        cases x with
        | markFeatured id => exact absurd rfl hx'
        | takeDays id seen now =>
          by_cases hid : p.id = id
          · subst hid
            exact ⟨{ g with daysTaken := true }, (by simp [refundWebhooks, AppWrite.exec, hg]), hgp⟩
          · refine ⟨g, ?_, hgp⟩
            simp only [refundWebhooks, AppWrite.exec]
            rw [Table.get?_modify_of_ne _ _ hid, hg]
        | dispute | revokeFee | club | deposit | prepaid | tip => exact ⟨g, hg, hgp⟩
      obtain ⟨g, hg, hgp⟩ := still
      obtain rfl := Option.some.inj (hg.symm.trans hf')
      rw [hgp] at hback
      cases hback

/-- A delivery that keeps up and closes a lost dispute has applied it. -/
theorem Notified.lost (hp : 0 ≤ p.amount) (h : p.Notified amountOf n) {d : StripeDispute}
    (he : n.event = .dispute d) (hlost : d.status = .lost) {stop : Option ℕ} (hs : p.Kept s)
    (ht : p.TookDays s) (hc : p.keepsUp s (n, stop) = true)
    (hdone : AppWrite.dispute d n.now ∈ refundWebhooks.done n stop s)
    (hwhole : p.whole = true → d.amount = p.amount) :
    p.Applied d.amount (refundWebhooks.handle n stop s) := by
  have hopens : (refundWebhooks.done n stop s).any (AppWrite.opens p) = true :=
    List.any_eq_true.2 ⟨_, hdone, by simp [AppWrite.opens, hlost]⟩
  have hadvances := h.advances hp stop s
  by_cases hk : p.kind = .featured
  · cases hpending : p.pending s with
    | false => exact hadvances.applied hs _ (not_paid_of_tookDays hk hs ht hpending _)
    | true =>
      simp only [keepsUp, hpending, hopens, Bool.not_true, Bool.false_or] at hc
      obtain ⟨hmark, hdays⟩ := marks_and_days hk hc
      exact h.revoked hp hk hs hmark hdays _
  · have hpending : p.pending s = true := by simp [pending, hk]
    simp only [keepsUp, hpending, hopens, Bool.not_true, Bool.false_or, returns, if_neg hk,
      List.all_cons, List.all_nil, Bool.and_true] at hc
    obtain ⟨x, hx, hxk⟩ := List.any_eq_true.1 hc
    have hle : d.amount ≤ p.amount := by
      unfold Notified at h
      rw [he] at h
      exact h.1.le
    have hsettles : p.Settles d.amount x :=
      h.settles he hwhole hk (Handler.mem_writes hx) (eq_of_beq hxk)
    have step : ∀ y ∈ refundWebhooks.done n stop s, ∀ s',
        p.Advances s' (refundWebhooks.exec y s') :=
      fun y hy _ => advances_exec hp (h.within (Handler.mem_writes hy))
    have kept : ∀ y ∈ refundWebhooks.done n stop s, ∀ s', p.Kept s' →
        p.Kept (refundWebhooks.exec y s') := fun y hy s' => (step y hy s').kept
    have stays : ∀ y ∈ refundWebhooks.done n stop s, ∀ s', p.Kept s' → p.Applied d.amount s' →
        p.Applied d.amount (refundWebhooks.exec y s') :=
      fun y hy s' hs' => (step y hy s').applied hs' d.amount
    have returned : ∀ s', p.Kept s' → p.Applied d.amount (refundWebhooks.exec x s') :=
      fun _ hs' => hsettles.applied hle (h.within (Handler.mem_writes hx)) hs'
    exact Handler.execAll_of_mem hx kept returned stays hs

end AppPayment

/-! ### The rows of disputes -/

theorem AppWrite.disputes_exec {x : AppWrite} {s : AppBooks} (h : ∀ d now, x ≠ .dispute d now) :
    (x.exec s).disputes = s.disputes := by
  cases x with
  | dispute d now => exact absurd rfl (h d now)
  | markFeatured | takeDays | revokeFee | club | deposit | prepaid | tip => rfl

theorem not_dispute_of_revoke {intent : String} {now : ℤ} {s : AppBooks} {x : AppWrite}
    (hx : x ∈ revokePlatformPurchase intent now s) (d : StripeDispute) (now' : ℤ) :
    x ≠ .dispute d now' := by
  rintro rfl
  obtain hx | ⟨id, f, -, -, hx | hx⟩ := mem_revokePlatformPurchase hx <;> cases hx

theorem OfCharge.not_dispute {c : StripeCharge} {now : ℤ} {s : AppBooks} {x : AppWrite}
    (hx : OfCharge c now s x) (d : StripeDispute) (now' : ℤ) : x ≠ .dispute d now' := by
  rintro rfl
  cases hx with
  | revoke hi hx => exact not_dispute_of_revoke hx d now' rfl

/-- A delivery writes no row of a dispute, or that of the one it is about, which is open. -/
theorem disputes_handle (n : Notice) (stop : Option ℕ) (s : AppBooks) :
    (refundWebhooks.handle n stop s).disputes = s.disputes ∨
      ∃ d, n.event = .dispute d ∧ (s.disputes d.id).any (·.closedAt.isSome) = false ∧
        AppWrite.dispute d n.now ∈ refundWebhooks.done n stop s ∧
        (refundWebhooks.handle n stop s).disputes =
          ((AppWrite.dispute d n.now).exec s).disputes := by
  have rest_disputes : ∀ {ws : List AppWrite} (s₁ : AppBooks),
      (∀ x ∈ ws, ∀ d now, x ≠ .dispute d now) →
        (refundWebhooks.execAll ws s₁).disputes = s₁.disputes := by
    intro ws s₁ hws
    refine Handler.execAll_inv (I := fun s : AppBooks => s.disputes = s₁.disputes) (fun x hx s' hs' => ?_) rfl
    exact (AppWrite.disputes_exec (hws x hx)).trans hs'
  cases he : n.event with
  | refunded c =>
    left
    refine rest_disputes s fun x hx => ?_
    have hx' := Handler.mem_writes hx
    simp only [refundWebhooks, Notice.writes, he] at hx'
    exact (mem_syncStripeRefund hx').not_dispute
  | dispute d =>
    obtain ⟨-, hnil⟩ | ⟨rest, hrest, -, hmem⟩ := writes_dispute he s
    · left
      refine rest_disputes s fun x hx => ?_
      have hx' := Handler.mem_writes hx
      simp only [refundWebhooks, hnil] at hx'
      cases hx'
    · have hnot : ∀ x ∈ rest, ∀ d now, x ≠ .dispute d now := by
        intro x hx
        rcases hmem x hx with ⟨intent, -, hx⟩ | hx
        · exact not_dispute_of_revoke hx
        · exact hx.not_dispute
      have hopen : (s.disputes d.id).any (·.closedAt.isSome) = false := by
        by_contra hclosed
        rw [Bool.not_eq_false] at hclosed
        simp [Notice.writes, he, recordDispute, hclosed] at hrest
      have cut : refundWebhooks.done n stop s = [] ∨ ∃ ws, (∀ x ∈ ws, x ∈ rest) ∧
          refundWebhooks.done n stop s = .dispute d n.now :: ws := by
        unfold Handler.done
        simp only [refundWebhooks, hrest]
        cases stop with
        | none => exact .inr ⟨rest, fun _ hx => hx, rfl⟩
        | some k =>
          cases k with
          | zero => exact .inl rfl
          | succ k => exact .inr ⟨rest.take k, fun _ hx => List.mem_of_mem_take hx, rfl⟩
      obtain hnil | ⟨ws, hws, hcons⟩ := cut
      · left
        rw [Handler.handle, hnil]
        rfl
      · right
        refine ⟨d, rfl, hopen, by rw [hcons]; exact List.mem_cons_self, ?_⟩
        rw [Handler.handle, hcons, Handler.execAll_cons]
        exact rest_disputes _ fun x hx => hnot x (hws x hx)

end Barbershop
