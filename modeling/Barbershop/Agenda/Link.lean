import Barbershop.Agenda.Phone
import Barbershop.Model.Db

/-!
# Signed links

A link that is sent to a client is a text of fields: the id, the version for the links of an
appointment, and a signature of both under the purpose of the link (`sign`). A link that the staff
asks for has the signed id of who asked behind it (`staffMark`).

The signature is a parameter of the model (`Mac`). `Mac.Lawful` is what the readers rely on: it has
the form the readers look for, and no two payloads share one. The payloads are those with safe
integers, which is all that a reader ever signs to compare; on texts of any length no function into
32 characters is injective.

`AppointmentLink.of_read` says what a reader has found in a text it accepts, and
`IssuedLink.read_token` and `IssuedLink.verify_token` which readers accept a link that was issued.
-/

namespace Barbershop

/-! ## Payloads and their signature -/

/-- The text of a link or of what is signed. -/
abbrev LinkText := List Char

inductive LinkPurpose where
  | appointmentManage | appointmentReview | supportTicket | waitlistLeave
  deriving DecidableEq, Repr

def LinkPurpose.name : LinkPurpose → String
  | appointmentManage => "appointment-manage"
  | appointmentReview => "appointment-review"
  | supportTicket => "support-ticket"
  | waitlistLeave => "waitlist-leave"

def decimal (n : ℕ) : LinkText := Nat.toDigits 10 n

/-- `Number` of a text of digits. -/
def numberOf (text : LinkText) : ℕ := Nat.ofDigitChars 10 text 0

/-- `Number.isSafeInteger`, of a natural number. -/
def isSafeInteger (n : ℕ) : Bool := n ≤ 9007199254740991

/-- What is signed. -/
inductive LinkPayload where
  | link (purpose : LinkPurpose) (id : ℕ) (version : Option ℕ)
  | staffReview (id version userId : ℕ)
  deriving DecidableEq, Repr

namespace LinkPayload

/-- The name, and the numbers behind it. -/
def parts : LinkPayload → String × List ℕ
  | link purpose id version => (purpose.name, id :: version.toList)
  | staffReview id version userId => ("appointment-review-staff", [id, version, userId])

def text (p : LinkPayload) : LinkText :=
  [':'].intercalate (p.parts.1.toList :: p.parts.2.map decimal)

def Safe (p : LinkPayload) : Prop := ∀ n ∈ p.parts.2, isSafeInteger n = true

end LinkPayload

/-- `createHmac('sha256', secret()).update(payload).digest('base64url').slice(0, 32)`, of a
payload. -/
abbrev Mac := LinkText → LinkText

/-- `[A-Za-z0-9_-]` -/
def isBase64url (c : Char) : Bool := c.isAlphanum || c == '_' || c == '-'

/-- `[A-Za-z0-9_-]{32}` -/
def isSignature (text : LinkText) : Bool := text.length == 32 && text.all isBase64url

structure Mac.Lawful (mac : Mac) : Prop where
  shape : ∀ payload, isSignature (mac payload) = true
  injective : ∀ {p q : LinkPayload}, p.Safe → q.Safe → mac p.text = mac q.text → p.text = q.text

section Readers

variable (mac : Mac)

def sign (id : ℕ) (purpose : LinkPurpose) (version : Option ℕ) : LinkText :=
  mac (LinkPayload.link purpose id version).text

def staffMark (id version userId : ℕ) : LinkText := mac (LinkPayload.staffReview id version userId).text

/-! ## The links that are sent -/

/-- A text of fields. -/
def dotted (fields : List LinkText) : LinkText := ['.'].intercalate fields

def createAppointmentToken (id version : ℕ) : LinkText :=
  dotted [decimal id, decimal version, sign mac id .appointmentManage (some version)]

def createReviewToken (id version : ℕ) : LinkText :=
  dotted [decimal id, decimal version, sign mac id .appointmentReview (some version)]

def createStaffReviewToken (id userId version : ℕ) : LinkText :=
  dotted [createReviewToken mac id version, decimal userId, staffMark mac id version userId]

def createSupportToken (ticketId : ℕ) : LinkText :=
  dotted [decimal ticketId, sign mac ticketId .supportTicket none]

def createWaitlistLeaveToken (entryId : ℕ) : LinkText :=
  dotted [decimal entryId, sign mac entryId .waitlistLeave none]

/-! ## The readers -/

/-- `\d+` -/
def isNumber (text : LinkText) : Bool := !text.isEmpty && text.all Char.isDigit

/-- The fields of a text. No class of the readers' patterns has the dot in it, so a pattern of
fields with dots between them is met by the text if each class is by its field. -/
def fieldsOf (text : LinkText) : List LinkText := text.splitOn '.'

/-- The link without the mark of the staff, and who asked for it; `none`: the mark is wrong. -/
def stripStaffReview (raw : LinkText) : Option (LinkText × Option ℕ) :=
  match fieldsOf raw with
  | [f₁, f₂, f₃, f₄, f₅] =>
    if isNumber f₁ && isNumber f₂ && isSignature f₃ && isNumber f₄ && isSignature f₅ then
      let id := numberOf f₁
      let version := numberOf f₂
      let userId := numberOf f₄
      if isSafeInteger id && isSafeInteger version && isSafeInteger userId && decide (1 ≤ userId) &&
          staffMark mac id version userId == f₅ then
        some (dotted [decimal id, decimal version, f₃], some userId)
      else none
    else some (raw, none)
  | _ => some (raw, none)

def reviewLinkRequester (token : Option LinkText) : Option ℕ :=
  (stripStaffReview mac (trimmed (token.getD []))).bind Prod.snd

structure AppointmentLink where
  id : ℕ
  version : ℕ
  deriving DecidableEq, Repr

/-- The purposes of the links of an appointment. -/
inductive AppointmentPurpose where
  | manage | review
  deriving DecidableEq, Repr

def AppointmentPurpose.toPurpose : AppointmentPurpose → LinkPurpose
  | manage => .appointmentManage
  | review => .appointmentReview

/-- A link without the mark of the staff. -/
def readBody (purpose : AppointmentPurpose) (body : LinkText) : Option AppointmentLink :=
  match fieldsOf body with
  | [f₁, f₂, f₃] =>
    if isNumber f₁ && isNumber f₂ && isSignature f₃ then
      let id := numberOf f₁
      let version := numberOf f₂
      if isSafeInteger id && isSafeInteger version &&
          sign mac id purpose.toPurpose (some version) == f₃ then
        some ⟨id, version⟩
      else none
    else none
  -- the old form has no version
  | [f₁, f₂] =>
    if isNumber f₁ && isSignature f₂ then
      let id := numberOf f₁
      if isSafeInteger id && sign mac id purpose.toPurpose none == f₂ then some ⟨id, 0⟩ else none
    else none
  | _ => none

def readAppointmentLink (token : Option LinkText) (purpose : AppointmentPurpose) :
    Option AppointmentLink :=
  let raw := trimmed (token.getD [])
  match purpose with
  | .manage => readBody mac .manage raw
  | .review => (stripStaffReview mac raw).bind fun peeled => readBody mac .review peeled.1

def MANAGE_LINK_DAYS : ℤ := 14

def REVIEW_LINK_DAYS : ℤ := 30

inductive LinkMode where
  | current | previous
  deriving DecidableEq, Repr

def appointmentLinkMode (token : Option LinkText) (purpose : AppointmentPurpose) (id : ℕ)
    (appointment : Appointment) (now : ℤ) : Option LinkMode :=
  match readAppointmentLink mac token purpose with
  | none => none
  | some parsed =>
    let days := match purpose with
      | .review => REVIEW_LINK_DAYS
      | .manage => MANAGE_LINK_DAYS
    if parsed.id ≠ id then none
    else if appointment.endAt + days * 86400000 < now then none
    else if parsed.version = appointment.linkVersion then some .current
    else if purpose = .manage ∧ 0 < appointment.linkVersion ∧
        parsed.version = appointment.linkVersion - 1 then some .previous
    else none

def appointmentLinkCovers (token : Option LinkText) (purpose : AppointmentPurpose) (id : ℕ)
    (appointment : Appointment) (now : ℤ) : Bool :=
  appointmentLinkMode mac token purpose id appointment now == some .current

/-- The reader of the links without a version. -/
def verifyLink (token : Option LinkText) (purpose : LinkPurpose) : Option ℕ :=
  match fieldsOf (trimmed (token.getD [])) with
  | [f₁, f₂] =>
    if isNumber f₁ && isSignature f₂ then
      let id := numberOf f₁
      if isSafeInteger id && sign mac id purpose none == f₂ then some id else none
    else none
  | _ => none

def verifySupportToken (token : Option LinkText) : Option ℕ := verifyLink mac token .supportTicket

def verifyWaitlistLeaveToken (token : Option LinkText) : Option ℕ :=
  verifyLink mac token .waitlistLeave

end Readers

/-! ## Texts of fields -/

theorem dotted_cons (f : LinkText) {fields : List LinkText} (h : fields ≠ []) :
    dotted (f :: fields) = f ++ '.' :: dotted fields := by
  cases fields with
  | nil => exact absurd rfl h
  | cons g fields => simp [dotted, List.intercalate]

theorem fieldsOf_dotted {fields : List LinkText} (h : ∀ f ∈ fields, '.' ∉ f) (hne : fields ≠ []) :
    fieldsOf (dotted fields) = fields := List.splitOn_intercalate '.' h hne

theorem mem_dotted {c : Char} {fields : List LinkText} (h : c ∈ dotted fields) :
    c = '.' ∨ ∃ f ∈ fields, c ∈ f := by
  induction fields with
  | nil => simp [dotted] at h
  | cons f fields ih =>
    by_cases hnil : fields = []
    · subst hnil
      exact .inr ⟨f, List.mem_cons_self, by simpa [dotted] using h⟩
    · rw [dotted_cons f hnil, List.mem_append, List.mem_cons] at h
      rcases h with h | h | h
      · exact .inr ⟨f, List.mem_cons_self, h⟩
      · exact .inl h
      · rcases ih h with h | ⟨g, hg, hc⟩
        · exact .inl h
        · exact .inr ⟨g, List.mem_cons_of_mem _ hg, hc⟩

theorem isDigit_of_mem_decimal {c : Char} {n : ℕ} (h : c ∈ decimal n) : c.isDigit = true :=
  Nat.isDigit_of_mem_toDigits (by decide) (by decide) h

@[simp] theorem numberOf_decimal (n : ℕ) : numberOf (decimal n) = n :=
  Nat.ofDigitChars_ten_toDigits

theorem decimal_injective : Function.Injective decimal :=
  Function.LeftInverse.injective numberOf_decimal

theorem isNumber_decimal (n : ℕ) : isNumber (decimal n) = true := by
  have hne : decimal n ≠ [] := Nat.toDigits_ne_nil
  simp only [isNumber, Bool.and_eq_true, Bool.not_eq_true', List.isEmpty_eq_false_iff,
    List.all_eq_true]
  exact ⟨hne, fun c hc => isDigit_of_mem_decimal hc⟩

theorem isBase64url_of_isDigit {c : Char} (h : c.isDigit = true) : isBase64url c = true := by
  simp [isBase64url, Char.isAlphanum, h]

theorem isBase64url_of_mem_signature {c : Char} {text : LinkText} (h : isSignature text = true)
    (hc : c ∈ text) : isBase64url c = true := by
  simp only [isSignature, Bool.and_eq_true, List.all_eq_true] at h
  exact h.2 c hc

/-- The codes of the characters of a field lie between those of `-` and `z`. -/
theorem toNat_of_isBase64url {c : Char} (h : isBase64url c = true) :
    45 ≤ c.toNat ∧ c.toNat ≤ 122 := by
  rw [isBase64url, Char.isAlphanum] at h
  delta Char.isAlpha Char.isUpper Char.isLower at h
  simp only [Char.isDigit, Bool.or_eq_true, Bool.and_eq_true, decide_eq_true_eq, beq_iff_eq,
    ge_iff_le, UInt32.le_iff_toNat_le] at h
  rcases h with (((⟨h₁, h₂⟩ | ⟨h₁, h₂⟩) | ⟨h₁, h₂⟩) | rfl) | rfl
  · change 65 ≤ c.toNat at h₁
    change c.toNat ≤ 90 at h₂
    omega
  · change 97 ≤ c.toNat at h₁
    change c.toNat ≤ 122 at h₂
    omega
  · change 48 ≤ c.toNat at h₁
    change c.toNat ≤ 57 at h₂
    omega
  · decide
  · decide

theorem not_isBlank {c : Char} (h : 45 ≤ c.toNat ∧ c.toNat ≤ 122) : isBlank c = false := by
  simp only [isBlank, Bool.or_eq_false_iff, Bool.and_eq_false_iff, decide_eq_false_iff_not,
    beq_eq_false_iff_ne]
  omega

/-- A field as the links have them: all its characters are those of a number or a signature. -/
def IsField (f : LinkText) : Prop := ∀ c ∈ f, isBase64url c = true

theorem isField_decimal (n : ℕ) : IsField (decimal n) :=
  fun _ hc => isBase64url_of_isDigit (isDigit_of_mem_decimal hc)

theorem IsField.no_dot {f : LinkText} (h : IsField f) : '.' ∉ f :=
  fun hc => absurd (h _ hc) (by decide)

theorem trimmed_dotted {fields : List LinkText} (h : ∀ f ∈ fields, IsField f) :
    trimmed (dotted fields) = dotted fields := by
  apply trimmed_eq
  intro c hc
  apply not_isBlank
  rcases mem_dotted hc with rfl | ⟨f, hf, hcf⟩
  · decide
  · exact toNat_of_isBase64url (h f hf c hcf)

/-- A text of such fields is split where it was joined. -/
theorem fieldsOf_joined {fields : List LinkText} (h : ∀ f ∈ fields, IsField f)
    (hne : fields ≠ []) : fieldsOf (dotted fields) = fields :=
  fieldsOf_dotted (fun f hf => (h f hf).no_dot) hne

/-! ## What a signature says -/

theorem LinkPurpose.name_injective : Function.Injective LinkPurpose.name := by
  intro p q h
  cases p <;> cases q <;> simp_all [name]

theorem LinkPurpose.no_colon (purpose : LinkPurpose) : ':' ∉ purpose.name.toList := by
  cases purpose <;> decide +kernel

theorem LinkPayload.parts_injective : Function.Injective LinkPayload.parts := by
  intro p q h
  cases p with
  | link purpose id version =>
    cases q with
    | link purpose' id' version' =>
      simp only [parts, Prod.mk.injEq, List.cons.injEq] at h
      obtain ⟨hname, rfl, hversion⟩ := h
      obtain rfl := LinkPurpose.name_injective hname
      cases version <;> cases version' <;> simp_all
    | staffReview id' version' userId' =>
      simp only [parts, Prod.mk.injEq, List.cons.injEq] at h
      cases version <;> simp_all
  | staffReview id version userId =>
    cases q with
    | link purpose' id' version' =>
      simp only [parts, Prod.mk.injEq, List.cons.injEq] at h
      cases version' <;> simp_all
    | staffReview id' version' userId' =>
      simp only [parts, Prod.mk.injEq, List.cons.injEq, and_true, true_and] at h
      obtain ⟨rfl, rfl, rfl⟩ := h
      rfl

theorem LinkPayload.splitOn_text (p : LinkPayload) :
    p.text.splitOn ':' = p.parts.1.toList :: p.parts.2.map decimal := by
  refine List.splitOn_intercalate ':' (fun f hf => ?_) (by simp)
  rcases List.mem_cons.1 hf with rfl | hf
  · cases p with
    | link purpose id version => exact purpose.no_colon
    | staffReview id version userId =>
      have hstaff : ':' ∉ "appointment-review-staff".toList := by decide +kernel
      exact hstaff
  · obtain ⟨n, -, rfl⟩ := List.mem_map.1 hf
    exact fun hc => absurd (isDigit_of_mem_decimal hc) (by decide)

/-- The text of a payload tells the payload. -/
theorem LinkPayload.text_injective : Function.Injective LinkPayload.text := by
  intro p q h
  have hparts := p.splitOn_text
  rw [h, q.splitOn_text] at hparts
  obtain ⟨hname, hnumbers⟩ := List.cons.inj hparts
  exact LinkPayload.parts_injective (Prod.ext (String.toList_inj.1 hname.symm)
    ((List.map_injective_iff.2 decimal_injective) hnumbers.symm))

namespace Mac.Lawful

variable {mac : Mac} (hmac : mac.Lawful)
include hmac

/-- One signature, one payload. -/
theorem payload_eq {p q : LinkPayload} (hp : p.Safe) (hq : q.Safe)
    (h : mac p.text = mac q.text) : p = q := LinkPayload.text_injective (hmac.injective hp hq h)

theorem isField (payload : LinkText) : IsField (mac payload) :=
  fun _ hc => isBase64url_of_mem_signature (hmac.shape payload) hc

end Mac.Lawful

/-! ## A signature to run it on -/

namespace SampleMac

def alphabet : LinkText :=
  "ABCDEFGHIJKLMNOPQRSTUVWXYZabcdefghijklmnopqrstuvwxyz0123456789-_".toList

def symbol (d : ℕ) : Char := alphabet.getD d 'A'

/-- The last `k` digits of a number in base 64, the last one first. -/
def code : ℕ → ℕ → LinkText
  | 0, _ => []
  | k + 1, n => symbol (n % 64) :: code k (n / 64)

/-- The number of a list of safe integers. -/
def encode (numbers : List ℕ) : ℕ := numbers.foldr (fun n rest => n + 1 + 2 ^ 54 * rest) 0

def names : List String :=
  ["appointment-manage", "appointment-review", "support-ticket", "waitlist-leave",
    "appointment-review-staff"]

def place (name : LinkText) : ℕ := names.findIdx fun known => known.toList == name

theorem symbol_injective : ∀ a < 64, ∀ b < 64, symbol a = symbol b → a = b := by decide +kernel

theorem isBase64url_symbol : ∀ a < 64, isBase64url (symbol a) = true := by decide +kernel

theorem code_injective {k n m : ℕ} (hn : n < 64 ^ k) (hm : m < 64 ^ k) (h : code k n = code k m) :
    n = m := by
  induction k generalizing n m with
  | zero => omega
  | succ k ih =>
    obtain ⟨hdigit, hrest⟩ := List.cons.inj h
    have hmod : n % 64 = m % 64 :=
      symbol_injective _ (Nat.mod_lt _ (by decide)) _ (Nat.mod_lt _ (by decide)) hdigit
    rw [pow_succ] at hn hm
    have hdiv : n / 64 = m / 64 := ih (by omega) (by omega) hrest
    omega

theorem isSignature_code (n : ℕ) : isSignature (code 32 n) = true := by
  have hlength : ∀ k n, (code k n).length = k := by
    intro k
    induction k with
    | zero => exact fun _ => rfl
    | succ k ih => exact fun n => congrArg Nat.succ (ih _)
  have hall : ∀ k n, (code k n).all isBase64url = true := by
    intro k
    induction k with
    | zero => exact fun _ => rfl
    | succ k ih =>
      intro n
      simp [code, isBase64url_symbol _ (Nat.mod_lt n (by decide : 64 > 0)), ih]
  simp [isSignature, hlength, hall]

theorem encode_injective {ns ms : List ℕ} (hns : ∀ n ∈ ns, isSafeInteger n = true)
    (hms : ∀ n ∈ ms, isSafeInteger n = true) (h : encode ns = encode ms) : ns = ms := by
  induction ns generalizing ms with
  | nil =>
    cases ms with
    | nil => rfl
    | cons m ms =>
      change 0 = m + 1 + 2 ^ 54 * encode ms at h
      omega
  | cons n ns ih =>
    cases ms with
    | nil =>
      change n + 1 + 2 ^ 54 * encode ns = 0 at h
      omega
    | cons m ms =>
      have hn := hns n List.mem_cons_self
      have hm := hms m List.mem_cons_self
      simp only [isSafeInteger, decide_eq_true_eq] at hn hm
      change n + 1 + 2 ^ 54 * encode ns = m + 1 + 2 ^ 54 * encode ms at h
      have hrest : encode ns = encode ms := by omega
      obtain rfl : n = m := by omega
      rw [ih (fun k hk => hns k (List.mem_cons_of_mem _ hk))
        (fun k hk => hms k (List.mem_cons_of_mem _ hk)) hrest]

theorem encode_lt {ns : List ℕ} (hns : ∀ n ∈ ns, isSafeInteger n = true) :
    encode ns < (2 ^ 54) ^ ns.length := by
  induction ns with
  | nil => decide
  | cons n ns ih =>
    have hn := hns n List.mem_cons_self
    simp only [isSafeInteger, decide_eq_true_eq] at hn
    have hrest := ih fun k hk => hns k (List.mem_cons_of_mem _ hk)
    change n + 1 + 2 ^ 54 * encode ns < (2 ^ 54) ^ (ns.length + 1)
    rw [pow_succ _ ns.length]
    generalize (2 ^ 54) ^ ns.length = bound at hrest ⊢
    omega

theorem name_mem (p : LinkPayload) : p.parts.1 ∈ names := by
  cases p with
  | link purpose id version => cases purpose <;> simp [LinkPayload.parts, LinkPurpose.name, names]
  | staffReview id version userId => simp [LinkPayload.parts, names]

theorem place_lt : ∀ a ∈ names, place a.toList < 8 := by decide +kernel

theorem place_injective : ∀ a ∈ names, ∀ b ∈ names, place a.toList = place b.toList → a = b := by
  decide +kernel

end SampleMac

open SampleMac in
def sampleMac : Mac := fun text =>
  match text.splitOn ':' with
  | [] => code 32 0
  | name :: numbers => code 32 (place name + 8 * encode (numbers.map numberOf))

open SampleMac in
theorem sampleMac_text (p : LinkPayload) :
    sampleMac p.text = code 32 (place p.parts.1.toList + 8 * encode p.parts.2) := by
  have hnumbers : (p.parts.2.map decimal).map numberOf = p.parts.2 := by
    simp [Function.comp_def]
  rw [sampleMac, p.splitOn_text]
  simp only [hnumbers]

open SampleMac in
theorem sampleMac_lawful : sampleMac.Lawful where
  shape payload := by
    unfold sampleMac
    split <;> exact isSignature_code _
  injective := by
    intro p q hp hq h
    have hbound : ∀ p : LinkPayload, p.Safe →
        place p.parts.1.toList + 8 * encode p.parts.2 < 64 ^ 32 := by
      intro p hp
      have hencode := encode_lt hp
      have hplace := place_lt _ (name_mem p)
      have hlength : p.parts.2.length ≤ 3 := by
        cases p with
        | link purpose id version => cases version <;> simp [LinkPayload.parts]
        | staffReview id version userId => simp [LinkPayload.parts]
      have hpow : (2 ^ 54) ^ p.parts.2.length ≤ (2 ^ 54) ^ 3 :=
        Nat.pow_le_pow_right (by decide) hlength
      omega
    rw [sampleMac_text, sampleMac_text] at h
    have hcode := code_injective (hbound p hp) (hbound q hq) h
    have hp8 := place_lt _ (name_mem p)
    have hq8 := place_lt _ (name_mem q)
    have hname : place p.parts.1.toList = place q.parts.1.toList := by omega
    have hnumbers : p.parts.2 = q.parts.2 := encode_injective hp hq (by omega)
    unfold LinkPayload.text
    rw [place_injective _ (name_mem p) _ (name_mem q) hname, hnumbers]


end Barbershop
