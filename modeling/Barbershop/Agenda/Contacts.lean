import Barbershop.Agenda.PhoneForms
import Barbershop.Lib.Machine
import Barbershop.Model.Db

/-!
# One record for a phone

The customers of a network are records with a phone, and a unit may block one of them. The staff writes
records (`createCustomer`, `updateCustomer`); a booking of the public page looks for the record of the
phone it is given, or writes one. A phone is stored as an international number, except by
`updateCustomer`, which stores what was typed. Everybody looks for it with the calling code of Brazil.

Requests run one after the other. What they read beside the phone, the e-mail and the account, and can
only refuse by, is left out or given as an answer.
-/

namespace Barbershop

open Lib

structure ContactRecord where
  networkId : ℕ
  phone : PhoneText
  email : Option String
  clientAccountId : Option ℕ
  blockedAt : Option ℤ
  deletedAt : Option ℤ
  deriving DecidableEq

/-- The records of the customers. -/
structure Contacts where
  customers : Table ContactRecord
  /-- The phones of the records that bookings were made for, each with the one typed; no code reads it. -/
  joined : List (PhoneText × PhoneText)

/-- A unit, with the e-mails of the accounts and how the database compares them. -/
structure ContactSite where
  networkId : ℕ
  callingCode : CallingCode
  sameEmail : String → String → Bool
  accountEmail : ℕ → Option String

def CUSTOMER_PHONE_EXISTS : Refusal := .badRequest "Já existe uma ficha com este telefone."

def INVALID_PHONE : Refusal := .badRequest "Telefone inválido"

def CUSTOMER_BLOCKED : Refusal :=
  .forbidden "Não é possível agendar online nesta unidade. Fale diretamente com a unidade."

/-- The input of a booking, with what its other checks answer. -/
structure BookingInput where
  customerPhone : PhoneText
  customerEmail : Option String
  clientAccountId : Option ℕ
  offered : Result Unit

/-! ## Lookups -/

/-- A record that the lookup by phone returns. -/
def ContactRecord.hasPhone (r : ContactRecord) (networkId : ℕ) (phone : PhoneText)
    (onlyBlocked : Bool) : Bool :=
  r.networkId == networkId && r.deletedAt.isNone &&
    (phoneDigitVariants phone).contains (digitsOf r.phone) && (!onlyBlocked || r.blockedAt.isSome)

namespace Contacts

variable (s : Contacts) (site : ContactSite)

def customerIdsByPhone (networkId : ℕ) (phone : PhoneText) (onlyBlocked : Bool) : List ℕ :=
  (s.customers.filter fun _ r => r.hasPhone networkId phone onlyBlocked).map Prod.fst

def assertPhoneFree (networkId : ℕ) (phone : PhoneText) (exceptId : Option ℕ) : Result Unit :=
  refuseIf ((s.customerIdsByPhone networkId phone false).any (fun id => some id != exceptId) = true)
    CUSTOMER_PHONE_EXISTS

/-- `ensureNotBlocked`, for one phone and one e-mail. -/
def ensureNotBlocked (networkId : ℕ) (customerPhone : PhoneText) (customerEmail : Option String)
    (clientAccountId : Option ℕ) : Result Unit :=
  let phones := [trimmed customerPhone].filter (· ≠ [])
  let blockedIds := phones.flatMap fun phone => s.customerIdsByPhone networkId phone true
  refuseIf (s.customers.any (fun id r => r.networkId == networkId && r.blockedAt.isSome &&
      (phones.contains r.phone || blockedIds.contains id ||
        customerEmail.any (fun email => r.email.any (site.sameEmail email)) ||
        (clientAccountId.isSome && r.clientAccountId == clientAccountId))) = true)
    CUSTOMER_BLOCKED

/-! ## Requests -/

/-- `storedPhone` of `createCustomer`. -/
def storedPhone (phone : PhoneText) : Result PhoneText :=
  if phone = [] then return []
  else do
    let normalized ← orRefuse (normalizePhoneToE164 phone site.callingCode.digits) INVALID_PHONE
    s.assertPhoneFree site.networkId normalized none
    return normalized

def createCustomer (phone : Option PhoneText) (email : Option String) : Result Contacts := do
  let phone := trimmed (phone.getD [])
  refuseIf (phone = [] ∧ email = none)
    (.badRequest "Informe pelo menos telefone ou email para cadastrar o cliente.")
  let storedPhone ← s.storedPhone site phone
  refuseIf (s.customers.any (fun _ r => r.networkId == site.networkId && r.deletedAt.isNone &&
      email.any (fun email => r.email.any (site.sameEmail email))) = true)
    (.badRequest "Já existe uma ficha com este e-mail.")
  return { s with
    customers := s.customers.insert {
      networkId := site.networkId
      phone := storedPhone
      email := email
      clientAccountId := none
      blockedAt := none
      deletedAt := none } }

/-- The record as it is edited: another e-mail than that of its account takes it from there. -/
def edited (r : ContactRecord) (phone : Option PhoneText) (email : Option (Option String)) :
    ContactRecord :=
  { r with
    phone := phone.getD r.phone
    email := email.getD r.email
    clientAccountId := r.clientAccountId.filter fun account =>
      email.all fun email => (site.accountEmail account).any (some · == email) }

def updateCustomer (customerId : ℕ) (phone : Option PhoneText) (email : Option (Option String)) :
    Result Contacts := do
  let _ ← orRefuse ((s.customers.get? customerId).filter fun r =>
    r.networkId == site.networkId && r.deletedAt.isNone) (.notFound "Cliente não encontrado")
  let nextPhone := phone.map trimmed
  let _ ← ifGiven (nextPhone.filter (· ≠ [])) fun nextPhone =>
    s.assertPhoneFree site.networkId nextPhone (some customerId)
  return { s with
    customers := s.customers.modify customerId fun r => edited site r nextPhone email }

def createPublicAppointment (input : BookingInput) : Result Contacts := do
  let customerPhone ←
    orRefuse (normalizePhoneToE164 input.customerPhone site.callingCode.digits) INVALID_PHONE
  s.ensureNotBlocked site site.networkId customerPhone input.customerEmail input.clientAccountId
  input.offered
  match (s.customerIdsByPhone site.networkId customerPhone false).head? with
  | some existingId => return { s with
      joined := ((s.customers.get? existingId).elim [] (·.phone), customerPhone) :: s.joined }
  | none => return { s with
      customers := s.customers.insert {
        networkId := site.networkId
        phone := (normalizePhoneToE164 customerPhone DEFAULT_COUNTRY_CODE).getD
          (trimmed customerPhone)
        email := input.customerEmail
        clientAccountId := input.clientAccountId
        blockedAt := none
        deletedAt := none } }

def setCustomerBlocked (customerId : ℕ) (blocked : Bool) (now : ℤ) : Result Contacts := do
  let _ ← orRefuse ((s.customers.get? customerId).filter fun r => r.networkId == site.networkId)
    (.notFound "Cliente não encontrado")
  return { s with
    customers := s.customers.modify customerId fun r =>
      { r with blockedAt := if blocked then some (r.blockedAt.getD now) else none } }

/-- `deleteCustomer`: the record stays, without what tells whose it was. -/
def deleteCustomer (customerId : ℕ) (now : ℤ) : Result Contacts := do
  let _ ← orRefuse ((s.customers.get? customerId).filter fun r =>
    r.networkId == site.networkId && r.deletedAt.isNone) (.notFound "Cliente não encontrado")
  return { s with
    customers := s.customers.modify customerId fun r =>
      { r with phone := [], email := none, clientAccountId := none, deletedAt := some now } }

end Contacts

/-! ## Runs -/

inductive ContactEvent where
  | createCustomer (phone : Option PhoneText) (email : Option String)
  | updateCustomer (customerId : ℕ) (phone : Option PhoneText) (email : Option (Option String))
  | createPublicAppointment (input : BookingInput)
  | setCustomerBlocked (customerId : ℕ) (blocked : Bool) (now : ℤ)
  | deleteCustomer (customerId : ℕ) (now : ℤ)

def ContactEvent.exec (site : ContactSite) (s : Contacts) : ContactEvent → Result Contacts
  | createCustomer phone email => s.createCustomer site phone email
  | updateCustomer customerId phone email => s.updateCustomer site customerId phone email
  | createPublicAppointment input => s.createPublicAppointment site input
  | setCustomerBlocked customerId blocked now => s.setCustomerBlocked site customerId blocked now
  | deleteCustomer customerId now => s.deleteCustomer site customerId now

/-- The requests of one unit. One that is refused changes nothing. -/
def contactMachine (site : ContactSite) : Machine Contacts ContactEvent where
  step s event := some ((event.exec site s).toOption.getD s)

/-! ## One record each -/

/-- Two texts are the same phone in the unit. -/
def ContactSite.SamePhone (site : ContactSite) (t t' : PhoneText) : Prop :=
  ∃ e164, normalizePhoneToE164 t site.callingCode.digits = some e164 ∧
    normalizePhoneToE164 t' site.callingCode.digits = some e164

/-- Who is blocked cannot book, and no two records are of one phone, nor two phones of one record. -/
structure OneRecordEach (site : ContactSite) (s : Contacts) : Prop where
  refused : ∀ id r, s.customers.get? id = some r → r.networkId = site.networkId →
    r.blockedAt.isSome → ∀ input : BookingInput, site.SamePhone r.phone input.customerPhone →
      s.createPublicAppointment site input = .error CUSTOMER_BLOCKED
  single : ∀ id id' r r', s.customers.get? id = some r → s.customers.get? id' = some r' →
    r.networkId = site.networkId → r'.networkId = site.networkId → r.deletedAt = none →
      r'.deletedAt = none → site.SamePhone r.phone r'.phone → id = id'
  joined : ∀ p ∈ s.joined, site.SamePhone p.1 p.2

/-- The phone of an edit is typed as its number is kept, and the first record that a booking's number is
kept by is of that number. -/
def KeptApart (site : ContactSite) (s : Contacts) : ContactEvent → Prop
  | .updateCustomer _ phone _ => ∀ t ∈ phone,
      ∀ e164 ∈ normalizePhoneToE164 (trimmed t) site.callingCode.digits,
        KeptAs e164.tail (digitsOf t)
  | .createPublicAppointment input =>
      ∀ e164 ∈ normalizePhoneToE164 input.customerPhone site.callingCode.digits,
        ∀ row ∈ s.customers.find? (fun _ r => r.networkId == site.networkId &&
            r.deletedAt.isNone && decide (KeptAs e164.tail (digitsOf r.phone))),
          normalizePhoneToE164 row.2.phone site.callingCode.digits = some e164
  | _ => True

instance (site : ContactSite) (s : Contacts) : DecidablePred (KeptApart site s)
  | .updateCustomer _ _ _ => inferInstanceAs (Decidable (∀ t ∈ _, ∀ e164 ∈ _, _))
  | .createPublicAppointment _ => inferInstanceAs (Decidable (∀ e164 ∈ _, ∀ row ∈ _, _))
  | .createCustomer _ _ | .setCustomerBlocked _ _ _ | .deleteCustomer _ _ =>
    inferInstanceAs (Decidable True)

/-- The records of the network by the numbers they are read as. -/
structure ContactsInv (site : ContactSite) (s : Contacts) : Prop where
  kept : ∀ id r, s.customers.get? id = some r → r.networkId = site.networkId →
    ∀ number, ReadAs site.callingCode.digits (trimmed r.phone) number →
      r.deletedAt = none ∧ KeptAs number (digitsOf r.phone)
  single : ∀ id id' r r', s.customers.get? id = some r → s.customers.get? id' = some r' →
    r.networkId = site.networkId → r'.networkId = site.networkId →
      ∀ number, ReadAs site.callingCode.digits (trimmed r.phone) number →
        ReadAs site.callingCode.digits (trimmed r'.phone) number → id = id'
  joined : ∀ p ∈ s.joined, site.SamePhone p.1 p.2

variable {site : ContactSite} {s s' : Contacts}

theorem samePhone_iff {t t' : PhoneText} : site.SamePhone t t' ↔
    ∃ number, ReadAs site.callingCode.digits (trimmed t) number ∧
      ReadAs site.callingCode.digits (trimmed t') number := by
  constructor
  · rintro ⟨e164, h, h'⟩
    obtain ⟨number, rfl, hread⟩ := (normalizePhoneToE164_eq_some site.callingCode).1 h
    obtain ⟨number', hnumber, hread'⟩ := (normalizePhoneToE164_eq_some site.callingCode).1 h'
    obtain rfl := (List.cons.inj hnumber).2
    exact ⟨number, hread, hread'⟩
  · rintro ⟨number, hread, hread'⟩
    exact ⟨'+' :: number, (normalizePhoneToE164_eq_some _).2 ⟨number, rfl, hread⟩,
      (normalizePhoneToE164_eq_some _).2 ⟨number, rfl, hread'⟩⟩

theorem hasPhone_iff {r : ContactRecord} {networkId : ℕ} {phone : PhoneText} {onlyBlocked : Bool} :
    r.hasPhone networkId phone onlyBlocked = true ↔
      r.networkId = networkId ∧ r.deletedAt = none ∧ digitsOf r.phone ∈ phoneDigitVariants phone ∧
        (onlyBlocked = true → r.blockedAt.isSome) := by
  unfold ContactRecord.hasPhone
  rw [Bool.and_eq_true, Bool.and_eq_true, Bool.and_eq_true, beq_iff_eq, Option.isNone_iff_eq_none,
    List.contains_iff_mem, Bool.or_eq_true, Bool.not_eq_true', and_assoc, and_assoc]
  cases onlyBlocked <;> simp

theorem mem_customerIdsByPhone {networkId id : ℕ} {phone : PhoneText} {onlyBlocked : Bool} :
    id ∈ s.customerIdsByPhone networkId phone onlyBlocked ↔
      ∃ r, s.customers.get? id = some r ∧ r.hasPhone networkId phone onlyBlocked = true := by
  unfold Contacts.customerIdsByPhone
  rw [List.mem_map]
  constructor
  · rintro ⟨⟨k, r⟩, hmem, rfl⟩
    exact ⟨r, Table.mem_filter.1 hmem⟩
  · rintro ⟨r, hr⟩
    exact ⟨(id, r), Table.mem_filter.2 hr, rfl⟩

/-- An international number finds every record of the network that is read as it. -/
theorem ContactsInv.found (h : ContactsInv site s) {id : ℕ} {r : ContactRecord}
    (hr : s.customers.get? id = some r) (hnetwork : r.networkId = site.networkId)
    {number : PhoneText} (hread : ReadAs site.callingCode.digits (trimmed r.phone) number)
    (onlyBlocked : Bool) (hblocked : onlyBlocked = true → r.blockedAt.isSome) :
    id ∈ s.customerIdsByPhone site.networkId ('+' :: number) onlyBlocked := by
  obtain ⟨hdeleted, hkept⟩ := h.kept id r hr hnetwork number hread
  obtain ⟨hdigits, hlow, hhigh⟩ := hread.number_digits site.callingCode
  rw [mem_customerIdsByPhone]
  exact ⟨r, hr, hasPhone_iff.2
    ⟨hnetwork, hdeleted, (mem_variants_plus hdigits hlow hhigh).2 hkept, hblocked⟩⟩

/-- A number that a blocked record is found by is not booked for. -/
theorem ensureNotBlocked_of_found {number : PhoneText} (hdigits : ∀ c ∈ number, c.isDigit = true)
    {id : ℕ} {r : ContactRecord} (hr : s.customers.get? id = some r)
    (hnetwork : r.networkId = site.networkId) (hblocked : r.blockedAt.isSome)
    (hfound : id ∈ s.customerIdsByPhone site.networkId ('+' :: number) true) (email : Option String)
    (account : Option ℕ) : s.ensureNotBlocked site site.networkId ('+' :: number) email account =
      .error CUSTOMER_BLOCKED := by
  unfold Contacts.ensureNotBlocked
  dsimp only
  rw [trimmed_plus hdigits]
  refine if_pos (Table.any_eq_true.2 ⟨id, r, hr, ?_⟩)
  simp [hnetwork, hblocked, hfound]

/-- The property from the invariant. -/
theorem ContactsInv.oneRecordEach (h : ContactsInv site s) : OneRecordEach site s := by
  refine ⟨fun id r hr hnetwork hblocked input hsame => ?_,
    fun id id' r r' hr hr' hnetwork hnetwork' _ _ hsame => ?_, h.joined⟩
  · obtain ⟨number, hread, hread'⟩ := samePhone_iff.1 hsame
    have htyped := (normalizePhoneToE164_eq_some site.callingCode).2 ⟨number, rfl, hread'⟩
    have hfound := h.found hr hnetwork hread true fun _ => hblocked
    have hrefused := ensureNotBlocked_of_found (hread.number_digits site.callingCode).1 hr hnetwork
      hblocked hfound input.customerEmail input.clientAccountId
    unfold Contacts.createPublicAppointment
    rw [htyped]
    show (s.ensureNotBlocked site site.networkId ('+' :: number) input.customerEmail
      input.clientAccountId >>= fun _ => _) = _
    rw [hrefused]
    rfl
  · obtain ⟨number, hread, hread'⟩ := samePhone_iff.1 hsame
    exact h.single id id' r r' hr hr' hnetwork hnetwork' number hread hread'

/-! ## What a request keeps -/

/-- A record that is written as the only one of its number, if it has one. -/
structure WrittenAlone (site : ContactSite) (s : Contacts) (id : ℕ) (r : ContactRecord) : Prop where
  kept : ∀ number, ReadAs site.callingCode.digits (trimmed r.phone) number →
    r.deletedAt = none ∧ KeptAs number (digitsOf r.phone)
  alone : ∀ number, ReadAs site.callingCode.digits (trimmed r.phone) number →
    ∀ id' r', id' ≠ id → s.customers.get? id' = some r' → r'.networkId = site.networkId →
      ¬ ReadAs site.callingCode.digits (trimmed r'.phone) number

namespace ContactsInv

theorem insert (h : ContactsInv site s) {r : ContactRecord}
    (hr : r.networkId = site.networkId → WrittenAlone site s s.customers.next r) :
    ContactsInv site { s with customers := s.customers.insert r } := by
  refine ⟨fun id r' hr' hnetwork => ?_, ?_, h.joined⟩
  · rcases Table.get?_insert_cases hr' with ⟨-, rfl⟩ | hold
    · exact (hr hnetwork).kept
    · exact h.kept id r' hold hnetwork
  · intro id id' r₁ r₂ hr₁ hr₂ hnetwork hnetwork' number hread hread'
    rcases Table.get?_insert_cases hr₁ with ⟨rfl, rfl⟩ | hold
    · rcases Table.get?_insert_cases hr₂ with ⟨rfl, rfl⟩ | hold'
      · rfl
      · have hne := (Table.lt_next_of_get? hold').ne
        exact absurd hread' ((hr hnetwork).alone number hread id' r₂ hne hold' hnetwork')
    · rcases Table.get?_insert_cases hr₂ with ⟨rfl, rfl⟩ | hold'
      · have hne := (Table.lt_next_of_get? hold).ne
        exact absurd hread ((hr hnetwork').alone number hread' id r₁ hne hold hnetwork)
      · exact h.single id id' r₁ r₂ hold hold' hnetwork hnetwork' number hread hread'

theorem modify (h : ContactsInv site s) {k : ℕ} {f : ContactRecord → ContactRecord}
    (hnet : ∀ r, (f r).networkId = r.networkId)
    (hf : ∀ r, s.customers.get? k = some r → r.networkId = site.networkId →
      WrittenAlone site s k (f r)) :
    ContactsInv site { s with customers := s.customers.modify k f } := by
  have hrow : ∀ {id r}, (s.customers.modify k f).get? id = some r →
      (id = k ∧ ∃ r₀, s.customers.get? k = some r₀ ∧ r = f r₀) ∨
        (id ≠ k ∧ s.customers.get? id = some r) := by
    intro id r hr
    by_cases hid : id = k
    · subst hid
      rw [Table.get?_modify_self] at hr
      obtain ⟨r₀, hr₀, rfl⟩ := Option.map_eq_some_iff.1 hr
      exact .inl ⟨rfl, r₀, hr₀, rfl⟩
    · rw [Table.get?_modify_of_ne _ _ hid] at hr
      exact .inr ⟨hid, hr⟩
  refine ⟨fun id r hr hnetwork => ?_, ?_, h.joined⟩
  · rcases hrow hr with ⟨rfl, r₀, hr₀, rfl⟩ | ⟨-, hold⟩
    · exact (hf r₀ hr₀ (hnet r₀ ▸ hnetwork)).kept
    · exact h.kept id r hold hnetwork
  · intro id id' r₁ r₂ hr₁ hr₂ hnetwork hnetwork' number hread hread'
    rcases hrow hr₁ with ⟨rfl, r₀, hr₀, rfl⟩ | ⟨hne, hold⟩
    · rcases hrow hr₂ with ⟨rfl, -⟩ | ⟨hne', hold'⟩
      · rfl
      · exact absurd hread' ((hf r₀ hr₀ (hnet r₀ ▸ hnetwork)).alone number hread id' r₂ hne' hold'
          hnetwork')
    · rcases hrow hr₂ with ⟨rfl, r₀, hr₀, rfl⟩ | ⟨hne', hold'⟩
      · exact absurd hread ((hf r₀ hr₀ (hnet r₀ ▸ hnetwork')).alone number hread' id r₁ hne hold
          hnetwork)
      · exact h.single id id' r₁ r₂ hold hold' hnetwork hnetwork' number hread hread'

end ContactsInv

theorem assertPhoneFree_eq_ok {networkId : ℕ} {phone : PhoneText} {exceptId : Option ℕ} {u : Unit} :
    s.assertPhoneFree networkId phone exceptId = .ok u ↔
      ∀ id ∈ s.customerIdsByPhone networkId phone false, some id = exceptId := by
  unfold Contacts.assertPhoneFree
  rw [refuseIf_eq_ok, List.any_eq_true]
  constructor
  · intro h id hid
    by_contra hne
    exact h ⟨id, hid, bne_iff_ne.2 hne⟩
  · rintro h ⟨id, hid, hne⟩
    exact bne_iff_ne.1 hne (h id hid)

/-- The empty text is no number. -/
theorem not_readAs_nil (code : CallingCode) {number : PhoneText} :
    ¬ ReadAs code.digits (trimmed []) number := by
  intro hread
  generalize ht : trimmed [] = t at hread
  obtain rfl : t = [] := ht.symm
  cases hread with
  | written hplus => cases hplus
  | national _ hnational => exact absurd (isNational_length hnational).1 (by decide)
  | withCode _ _ _ hlow => exact absurd hlow (by decide)

/-- A record stored with an international number that no record is found by. -/
theorem ContactsInv.writtenAlone (h : ContactsInv site s) {number : PhoneText}
    (hdigits : ∀ c ∈ number, c.isDigit = true) (hlow : 8 ≤ number.length)
    (hhigh : number.length ≤ 15)
    (hfree : s.customerIdsByPhone site.networkId ('+' :: number) false = []) {id : ℕ}
    {r : ContactRecord} (hphone : r.phone = '+' :: number) (hdeleted : r.deletedAt = none) :
    WrittenAlone site s id r := by
  have hown := readAs_plus site.callingCode hdigits hlow hhigh
  refine ⟨fun number' hread => ?_, fun number' hread id' r' _ hr' hnetwork hread' => ?_⟩
  · rw [hphone] at hread ⊢
    obtain rfl := hread.unique site.callingCode hown
    exact ⟨hdeleted, .inl (digitsOf_plus hdigits)⟩
  · rw [hphone] at hread
    obtain rfl := hread.unique site.callingCode hown
    have hfound := h.found hr' hnetwork hread' false fun h => absurd h Bool.false_ne_true
    rw [hfree] at hfound
    cases hfound

theorem ContactsInv.createCustomer (h : ContactsInv site s) {phone : Option PhoneText}
    {email : Option String} (hs : s.createCustomer site phone email = .ok s') :
    ContactsInv site s' := by
  unfold Contacts.createCustomer at hs
  dsimp only at hs
  simp only [bind_eq_ok, exists_punit, refuseIf_eq_ok, pure_eq_ok] at hs
  obtain ⟨-, storedPhone, hstored, -, rfl⟩ := hs
  apply h.insert
  intro _
  unfold Contacts.storedPhone at hstored
  split at hstored
  · obtain rfl := pure_eq_ok.1 hstored
    exact ⟨fun _ hread => absurd hread (not_readAs_nil _),
      fun _ hread => absurd hread (not_readAs_nil _)⟩
  · simp only [bind_eq_ok, exists_punit, orRefuse_eq_ok, pure_eq_ok, assertPhoneFree_eq_ok] at hstored
    obtain ⟨e164, hnumber, hfree, rfl⟩ := hstored
    obtain ⟨number, rfl, hread⟩ := (normalizePhoneToE164_eq_some site.callingCode).1 hnumber
    obtain ⟨hdigits, hlow, hhigh⟩ := hread.number_digits site.callingCode
    refine h.writtenAlone hdigits hlow hhigh (List.eq_nil_iff_forall_not_mem.2 fun id hid => ?_)
      rfl rfl
    cases hfree id hid

/-- The first record that the lookup returns, as the first row that the number is kept by. -/
theorem head?_customerIdsByPhone {number : PhoneText} (hdigits : ∀ c ∈ number, c.isDigit = true)
    (hlow : 8 ≤ number.length) (hhigh : number.length ≤ 15) {networkId id : ℕ}
    (h : (s.customerIdsByPhone networkId ('+' :: number) false).head? = some id) :
    ∃ r, s.customers.find? (fun _ r => r.networkId == networkId && r.deletedAt.isNone &&
        decide (KeptAs number (digitsOf r.phone))) = some (id, r) ∧
      s.customers.get? id = some r := by
  have hsame : (fun (_ : ℕ) (r : ContactRecord) => r.networkId == networkId && r.deletedAt.isNone &&
      decide (KeptAs number (digitsOf r.phone))) =
      fun _ r => r.hasPhone networkId ('+' :: number) false := by
    funext _ r
    rw [Bool.eq_iff_iff, hasPhone_iff, mem_variants_plus hdigits hlow hhigh]
    simp [and_assoc]
  unfold Contacts.customerIdsByPhone Table.filter at h
  rw [List.head?_map, List.head?_filter] at h
  obtain ⟨⟨k, r⟩, hrow, rfl⟩ := Option.map_eq_some_iff.1 h
  change s.customers.find? (fun _ r => r.hasPhone networkId ('+' :: number) false) = some (k, r)
    at hrow
  rw [hsame]
  exact ⟨r, hrow, (Table.find?_some hrow).1⟩

theorem ContactsInv.createPublicAppointment (h : ContactsInv site s) {input : BookingInput}
    (hkept : KeptApart site s (.createPublicAppointment input))
    (hs : s.createPublicAppointment site input = .ok s') : ContactsInv site s' := by
  unfold Contacts.createPublicAppointment at hs
  simp only [bind_eq_ok, exists_punit, orRefuse_eq_ok] at hs
  obtain ⟨e164, hnumber, -, -, hs⟩ := hs
  obtain ⟨number, rfl, hread⟩ := (normalizePhoneToE164_eq_some site.callingCode).1 hnumber
  obtain ⟨hdigits, hlow, hhigh⟩ := hread.number_digits site.callingCode
  split at hs
  · next id hfirst =>
    obtain rfl := pure_eq_ok.1 hs
    refine ⟨h.kept, h.single, fun p hp => ?_⟩
    rcases List.mem_cons.1 hp with rfl | hp
    · obtain ⟨r, hrow, hr⟩ := head?_customerIdsByPhone hdigits hlow hhigh hfirst
      rw [hr]
      exact ⟨'+' :: number, hkept _ hnumber (id, r) hrow,
        (normalizePhoneToE164_eq_some site.callingCode).2
          ⟨number, rfl, readAs_plus site.callingCode hdigits hlow hhigh⟩⟩
    · exact h.joined p hp
  · next hnone =>
    obtain rfl := pure_eq_ok.1 hs
    refine h.insert fun _ => h.writtenAlone hdigits hlow hhigh (List.head?_eq_none_iff.1 hnone) ?_ rfl
    have hstored := (normalizePhoneToE164_eq_some .default).2
      ⟨number, rfl, readAs_plus .default hdigits hlow hhigh⟩
    exact congrArg (Option.getD · (trimmed ('+' :: number))) hstored

theorem ContactsInv.updateCustomer (h : ContactsInv site s) {customerId : ℕ}
    {phone : Option PhoneText} {email : Option (Option String)}
    (hkept : KeptApart site s (.updateCustomer customerId phone email))
    (hs : s.updateCustomer site customerId phone email = .ok s') : ContactsInv site s' := by
  unfold Contacts.updateCustomer at hs
  simp only [bind_eq_ok, orRefuse_eq_ok, pure_eq_ok] at hs
  obtain ⟨r, hr, found, hfree, rfl⟩ := hs
  obtain ⟨hrow, hown⟩ := Option.filter_eq_some_iff.1 hr
  rw [Bool.and_eq_true, beq_iff_eq, Option.isNone_iff_eq_none] at hown
  refine h.modify (fun _ => rfl) fun r' hr' _ => ?_
  obtain rfl := Option.some.inj (hrow.symm.trans hr')
  cases phone with
  | none =>
    refine ⟨h.kept customerId r hrow hown.1, fun number hread id' r' hne hr' hnetwork' hread' => ?_⟩
    exact hne (h.single id' customerId r' r hr' hrow hnetwork' hown.1 number hread' hread)
  | some t =>
    have hown' : ∀ number, ReadAs site.callingCode.digits (trimmed (trimmed t)) number →
        KeptAs number (digitsOf (trimmed t)) := by
      intro number hread
      rw [digitsOf_trimmed]
      exact hkept t rfl _ ((normalizePhoneToE164_eq_some site.callingCode).2 ⟨number, rfl, hread⟩)
    refine ⟨fun number hread => ⟨hown.2, hown' number hread⟩,
      fun number hread id' r' hne hr' hnetwork' hread' => ?_⟩
    have hsome : trimmed t ≠ [] := by
      intro hnil
      change ReadAs site.callingCode.digits (trimmed (trimmed t)) number at hread
      rw [hnil] at hread
      exact not_readAs_nil site.callingCode hread
    have hgiven : (some (trimmed t)).filter (· ≠ []) = some (trimmed t) := by
      rw [Option.filter_some, if_pos (decide_eq_true hsome)]
    rw [Option.map_some, hgiven] at hfree
    obtain ⟨hnone, -⟩ | ⟨t', u, ht', hfree, -⟩ := ifGiven_eq_ok.1 hfree
    · cases hnone
    obtain rfl := Option.some.inj ht'
    have hfound : id' ∈ s.customerIdsByPhone site.networkId (trimmed t) false := by
      obtain ⟨hdeleted, hkept'⟩ := h.kept id' r' hr' hnetwork' number hread'
      refine mem_customerIdsByPhone.2 ⟨r', hr', hasPhone_iff.2 ⟨hnetwork', hdeleted, ?_, ?_⟩⟩
      · exact mem_variants_of_kept site.callingCode hread (hown' number hread) hread' hkept'
      · exact fun h => absurd h Bool.false_ne_true
    exact hne (Option.some.inj (assertPhoneFree_eq_ok.1 hfree id' hfound))

theorem ContactsInv.setCustomerBlocked (h : ContactsInv site s) {customerId : ℕ} {blocked : Bool}
    {now : ℤ} (hs : s.setCustomerBlocked site customerId blocked now = .ok s') :
    ContactsInv site s' := by
  unfold Contacts.setCustomerBlocked at hs
  simp only [bind_eq_ok, orRefuse_eq_ok, pure_eq_ok] at hs
  obtain ⟨-, -, rfl⟩ := hs
  refine h.modify (fun _ => rfl) fun r hr hnetwork => ⟨h.kept customerId r hr hnetwork, ?_⟩
  intro number hread id' r' hne hr' hnetwork' hread'
  exact hne (h.single id' customerId r' r hr' hr hnetwork' hnetwork number hread' hread)

theorem ContactsInv.deleteCustomer (h : ContactsInv site s) {customerId : ℕ} {now : ℤ}
    (hs : s.deleteCustomer site customerId now = .ok s') : ContactsInv site s' := by
  unfold Contacts.deleteCustomer at hs
  simp only [bind_eq_ok, orRefuse_eq_ok, pure_eq_ok] at hs
  obtain ⟨-, -, rfl⟩ := hs
  exact h.modify (fun _ => rfl) fun _ _ _ => ⟨fun _ hread => absurd hread (not_readAs_nil _),
    fun _ hread => absurd hread (not_readAs_nil _)⟩

/-- One request keeps the invariant. -/
theorem ContactsInv.step (h : ContactsInv site s) {event : ContactEvent}
    (hkept : KeptApart site s event) (hs : (contactMachine site).step s event = some s') :
    ContactsInv site s' := by
  obtain rfl := Option.some.inj hs
  cases hresult : event.exec site s with
  | error => exact h
  | ok s' =>
    cases event with
    | createCustomer => exact h.createCustomer hresult
    | updateCustomer => exact h.updateCustomer hkept hresult
    | createPublicAppointment => exact h.createPublicAppointment hkept hresult
    | setCustomerBlocked => exact h.setCustomerBlocked hresult
    | deleteCustomer => exact h.deleteCustomer hresult

/-- Before the network has a customer. -/
structure Contacts.Fresh (site : ContactSite) (s : Contacts) : Prop where
  customers : ∀ id r, s.customers.get? id = some r → r.networkId ≠ site.networkId
  joined : s.joined = []

theorem Contacts.Fresh.inv (h : s.Fresh site) : ContactsInv site s :=
  ⟨fun id r hr hnetwork => absurd hnetwork (h.customers id r hr),
    fun id _ r _ hr _ hnetwork => absurd hnetwork (h.customers id r hr),
    fun p hp => by rw [h.joined] at hp; cases hp⟩

/-- In a run whose texts are typed as their numbers are kept, who is blocked cannot book, and records
and phones match one to one. -/
theorem one_record_each (site : ContactSite) (s s' : Contacts) (events : List ContactEvent)
    (hfresh : s.Fresh site) (hkept : (contactMachine site).Meets (KeptApart site) s events)
    (hrun : (contactMachine site).run s events = some s') : OneRecordEach site s' :=
  ((contactMachine site).run_inv_of_meets (fun h hC hs => ContactsInv.step h hC hs) hfresh.inv hkept
    hrun).oneRecordEach

/-! ## A unit of another country -/

/-- Calling code 1. -/
def northAmerica : CallingCode where
  digits := ['1']
  ne_nil := by decide
  isDigit := List.all_eq_true.1 (by decide)
  brazil h := absurd h (by decide)

def siteOf (callingCode : CallingCode) : ContactSite where
  networkId := 1
  callingCode := callingCode
  sameEmail := (· == ·)
  accountEmail _ := none

def noContacts : Contacts := ⟨.empty, []⟩

theorem noContacts_fresh (site : ContactSite) : noContacts.Fresh site where
  customers _ _ hr := by cases hr
  joined := rfl

def bookingOf (phone : String) : BookingInput := ⟨phone.toList, none, none, .ok ()⟩

/-- A phone is saved again as it is read, its record is blocked, and its owner books. -/
def savedAgain : List ContactEvent :=
  [.createCustomer (some "(415) 555-1234".toList) none,
    .updateCustomer 1 (some "(415) 555-1234".toList) none,
    .setCustomerBlocked 1 true 1000,
    .createPublicAppointment (bookingOf "(415) 555-1234")]

/-- A number of another country, and a national one with the same digits. -/
def sameDigits : List ContactEvent :=
  [.createCustomer (some "+1 415 555 1234".toList) none,
    .createPublicAppointment (bookingOf "14 15555-1234")]

/-- The blocked one books, with a second record; the other two share one. -/
theorem savedAgain_not_refused :
    noContacts.Fresh (siteOf northAmerica) ∧ noContacts.Fresh (siteOf .default) ∧
    ((contactMachine (siteOf northAmerica)).run noContacts savedAgain).map (fun s =>
        s.customers.rows.map fun row => (row.1, String.ofList row.2.phone, row.2.blockedAt)) =
      some [(1, "(415) 555-1234", some 1000), (2, "+14155551234", none)] ∧
    (∀ s ∈ (contactMachine (siteOf northAmerica)).run noContacts savedAgain,
      ¬ OneRecordEach (siteOf northAmerica) s) ∧
    ((contactMachine (siteOf .default)).run noContacts sameDigits).map (fun s =>
        (s.customers.rows.map fun row => (row.1, String.ofList row.2.phone), s.joined)) =
      some ([(1, "+14155551234")], [("+14155551234".toList, "+5514155551234".toList)]) ∧
    ∀ s ∈ (contactMachine (siteOf .default)).run noContacts sameDigits,
      ¬ OneRecordEach (siteOf .default) s := by
  refine ⟨noContacts_fresh _, noContacts_fresh _, by decide +kernel, fun s hs hone => ?_,
    by decide +kernel, fun s hs hone => ?_⟩
  · have hfirst : ((contactMachine (siteOf northAmerica)).run noContacts savedAgain).bind
        (·.customers.get? 1) = some ⟨1, "(415) 555-1234".toList, none, none, some 1000, none⟩ := by
      decide +kernel
    have hsecond : ((contactMachine (siteOf northAmerica)).run noContacts savedAgain).bind
        (·.customers.get? 2) = some ⟨1, "+14155551234".toList, none, none, none, none⟩ := by
      decide +kernel
    rw [hs, Option.bind_some] at hfirst hsecond
    have hsame : (siteOf northAmerica).SamePhone "(415) 555-1234".toList "+14155551234".toList :=
      ⟨"+14155551234".toList, by decide +kernel, by decide +kernel⟩
    exact absurd (hone.single 1 2 _ _ hfirst hsecond rfl rfl rfl rfl hsame) (by decide)
  · have hjoined : ((contactMachine (siteOf .default)).run noContacts sameDigits).map (·.joined) =
        some [("+14155551234".toList, "+5514155551234".toList)] := by decide +kernel
    rw [hs, Option.map_some] at hjoined
    obtain ⟨e164, hfirst, hsecond⟩ :=
      hone.joined ("+14155551234".toList, "+5514155551234".toList) (by
        rw [Option.some.inj hjoined]
        exact List.mem_cons_self)
    have hnumber : normalizePhoneToE164 "+14155551234".toList DEFAULT_COUNTRY_CODE =
        some "+14155551234".toList := by decide +kernel
    have hnumber' : normalizePhoneToE164 "+5514155551234".toList DEFAULT_COUNTRY_CODE =
        some "+5514155551234".toList := by decide +kernel
    have heq := Option.some.inj ((hnumber.symm.trans hfirst).trans (hsecond.symm.trans hnumber'))
    exact absurd heq (by decide +kernel)

/-- In Brazil a national number is kept as it is typed. -/
def savedInBrazil : List ContactEvent :=
  [.createCustomer (some "(11) 99999-0000".toList) none,
    .updateCustomer 1 (some "11 99999-0000".toList) none,
    .setCustomerBlocked 1 true 1000,
    .createPublicAppointment (bookingOf "+55 11 99999 0000")]

/-- What the run comes to. -/
def savedInBrazilEnd : Contacts :=
  { noContacts with
    customers := noContacts.customers.insert
      ⟨1, "11 99999-0000".toList, none, none, some 1000, none⟩ }

theorem savedInBrazil_one_record : OneRecordEach (siteOf .default) savedInBrazilEnd :=
  one_record_each (siteOf .default) noContacts savedInBrazilEnd savedInBrazil
    (noContacts_fresh _) (by decide +kernel) (by rfl)

end Barbershop
