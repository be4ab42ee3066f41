import Barbershop.Agenda.Phone

/-!
# The forms of one number

A text is read as a number in three ways: with its calling code after a plus, as a national number of the
unit, or with the unit's calling code and no plus (`ReadAs`). A number is looked for by its digits, and
for Brazil by those after 55 (`KeptAs`), in the digits of the texts that are stored.
-/

namespace Barbershop

/-- The calling code of a country. -/
structure CallingCode where
  digits : PhoneText
  ne_nil : digits ≠ []
  isDigit : ∀ c ∈ digits, c.isDigit = true
  /-- 55 is Brazil's, and no other code begins with it. -/
  brazil : DEFAULT_COUNTRY_CODE <+: digits → digits = DEFAULT_COUNTRY_CODE

/-- The digits of a text without the zeros in front. -/
def significant (t : PhoneText) : PhoneText := (digitsOf t).dropWhile (· = '0')

/-- The number that a text without blanks around it is read as. -/
inductive ReadAs (code t : PhoneText) : PhoneText → Prop
  | written : t.head? = some '+' → 8 ≤ (digitsOf t).length → (digitsOf t).length ≤ 15 →
      ReadAs code t (digitsOf t)
  | national : t.head? ≠ some '+' → isNational code (significant t) = true →
      (code ++ significant t).length ≤ 15 → ReadAs code t (code ++ significant t)
  | withCode : t.head? ≠ some '+' → isNational code (significant t) = false →
      code <+: significant t → 8 ≤ (significant t).length → (significant t).length ≤ 15 →
      isNational code ((significant t).drop code.length) = true → ReadAs code t (significant t)

/-- The digits a number is looked for by. -/
def KeptAs (number digits : PhoneText) : Prop :=
  digits = number ∨
    (DEFAULT_COUNTRY_CODE <+: number ∧ 12 ≤ number.length ∧ digits = number.drop 2)

instance (number digits : PhoneText) : Decidable (KeptAs number digits) :=
  inferInstanceAs (Decidable (_ ∨ _))

/-! ## Digits -/

theorem isDigit_of_isBlank {c : Char} (h : isBlank c = true) : c.isDigit = false := by
  rw [Bool.eq_false_iff]
  intro hdigit
  unfold isBlank at h
  rw [Char.isDigit, Bool.and_eq_true, decide_eq_true_eq, decide_eq_true_eq] at hdigit
  have hlow : 48 ≤ c.toNat := UInt32.le_iff_toNat_le.1 hdigit.1
  have hhigh : c.toNat ≤ 57 := UInt32.le_iff_toNat_le.1 hdigit.2
  simp only [Bool.or_eq_true, Bool.and_eq_true, decide_eq_true_eq, beq_iff_eq] at h
  omega

theorem digitsOf_dropWhile_isBlank (t : PhoneText) : digitsOf (t.dropWhile isBlank) = digitsOf t := by
  induction t with
  | nil => rfl
  | cons c t ih =>
    by_cases h : isBlank c = true
    · rw [List.dropWhile_cons_of_pos h, ih]
      unfold digitsOf
      rw [List.filter_cons_of_neg (by rw [isDigit_of_isBlank h]; decide)]
    · rw [List.dropWhile_cons_of_neg h]

@[simp] theorem digitsOf_trimmed (t : PhoneText) : digitsOf (trimmed t) = digitsOf t := by
  have hreverse : ∀ l : PhoneText, digitsOf l.reverse = (digitsOf l).reverse := fun l =>
    List.filter_reverse
  rw [trimmed, hreverse, digitsOf_dropWhile_isBlank, hreverse, List.reverse_reverse,
    digitsOf_dropWhile_isBlank]

theorem digitsOf_eq {t : PhoneText} (h : ∀ c ∈ t, c.isDigit = true) : digitsOf t = t :=
  List.filter_eq_self.2 h

theorem isDigit_of_mem_digitsOf {t : PhoneText} {c : Char} (h : c ∈ digitsOf t) :
    c.isDigit = true := (List.mem_filter.1 h).2

theorem isDigit_of_mem_significant {t : PhoneText} {c : Char} (h : c ∈ significant t) :
    c.isDigit = true := isDigit_of_mem_digitsOf ((List.dropWhile_sublist _).subset h)

theorem isNational_length {code s : PhoneText} (h : isNational code s = true) :
    8 ≤ s.length ∧ s.length ≤ 11 := by
  rw [isNational, Bool.and_eq_true, List.contains_iff_mem] at h
  have hmem := h.1
  unfold nationalLengths at hmem
  split at hmem
  · simp only [List.mem_singleton] at hmem
    omega
  · split at hmem
    · simp only [List.mem_cons, List.not_mem_nil, or_false] at hmem
      omega
    · simp only [List.mem_cons, List.not_mem_nil, or_false] at hmem
      omega

/-! ## Reading a number -/

variable (code : CallingCode) {t number digits : PhoneText}

theorem CallingCode.taken : digitsOf (if code.digits.isEmpty then DEFAULT_COUNTRY_CODE else
    code.digits) = code.digits := by
  rw [if_neg (by rw [List.isEmpty_iff]; exact code.ne_nil), digitsOf_eq code.isDigit]

theorem normalizePhoneToE164_eq_some {raw e164 : PhoneText} :
    normalizePhoneToE164 raw code.digits = some e164 ↔
      ∃ number, e164 = '+' :: number ∧ ReadAs code.digits (trimmed raw) number := by
  have hcode : code.digits.isEmpty = false := by
    rw [Bool.eq_false_iff, Ne, List.isEmpty_iff]
    exact code.ne_nil
  unfold normalizePhoneToE164
  rw [code.taken]
  dsimp only
  rw [hcode, Bool.false_or]
  have hsome : ∀ l : PhoneText, 8 ≤ l.length → ¬ l.isEmpty = true := by
    intro l hl hempty
    rw [List.isEmpty_iff.1 hempty] at hl
    cases hl
  constructor
  · intro h
    split at h
    · cases h
    split at h
    · next hplus =>
      split at h
      · next hlength =>
        obtain rfl := Option.some.inj h
        exact ⟨_, rfl, .written hplus hlength.1 hlength.2⟩
      · cases h
    next hplus =>
    split at h
    · cases h
    next hlength =>
    rw [Bool.or_eq_true, decide_eq_true_eq, not_or, Nat.not_lt] at hlength
    split at h
    · next hnational =>
      split at h
      · next hlong =>
        obtain rfl := Option.some.inj h
        exact ⟨_, rfl, .national hplus hnational hlong⟩
      · cases h
    next hnational =>
    split at h
    · next hwith =>
      rw [Bool.and_eq_true, Bool.and_eq_true, List.isPrefixOf_iff_prefix, decide_eq_true_eq] at hwith
      obtain rfl := Option.some.inj h
      exact ⟨_, rfl, .withCode hplus (Bool.eq_false_iff.2 hnational) hwith.1.1 hwith.1.2 hlength.2
        hwith.2⟩
    · cases h
  · rintro ⟨number, rfl, hread⟩
    cases hread with
    | written hplus hlow hhigh =>
      rw [if_neg (hsome _ hlow), if_pos hplus, if_pos ⟨hlow, hhigh⟩]
    | national hplus hnational hlong =>
      have hlength := isNational_length hnational
      have hdigits := Nat.le_trans hlength.1 (List.dropWhile_sublist _).length_le
      unfold significant at *
      rw [if_neg (hsome _ hdigits), if_neg hplus, if_neg, if_pos hnational, if_pos hlong]
      rw [Bool.or_eq_true, decide_eq_true_eq, not_or]
      exact ⟨hsome _ hlength.1, by omega⟩
    | withCode hplus hnational hbegins hlow hhigh hrest =>
      have hdigits := Nat.le_trans hlow (List.dropWhile_sublist _).length_le
      unfold significant at *
      rw [if_neg (hsome _ hdigits), if_neg hplus, if_neg, if_neg (Bool.eq_false_iff.1 hnational),
        if_pos]
      · rw [Bool.and_eq_true, Bool.and_eq_true, List.isPrefixOf_iff_prefix, decide_eq_true_eq]
        exact ⟨⟨hbegins, hlow⟩, hrest⟩
      · rw [Bool.or_eq_true, decide_eq_true_eq, not_or]
        exact ⟨hsome _ hlow, by omega⟩

/-- What a text is read as is digits, eight to fifteen. -/
theorem ReadAs.number_digits (h : ReadAs code.digits t number) :
    (∀ c ∈ number, c.isDigit = true) ∧ 8 ≤ number.length ∧ number.length ≤ 15 := by
  cases h with
  | written _ hlow hhigh => exact ⟨fun c hc => isDigit_of_mem_digitsOf hc, hlow, hhigh⟩
  | national _ hnational hlong =>
    have hlength := isNational_length hnational
    refine ⟨fun c hc => ?_, ?_, hlong⟩
    · rcases List.mem_append.1 hc with hc | hc
      · exact code.isDigit c hc
      · exact isDigit_of_mem_significant hc
    · rw [List.length_append]
      omega
  | withCode _ _ _ hlow hhigh _ => exact ⟨fun c hc => isDigit_of_mem_significant hc, hlow, hhigh⟩

/-- A text is read as one number. -/
theorem ReadAs.unique {number' : PhoneText} (h : ReadAs code.digits t number)
    (h' : ReadAs code.digits t number') : number = number' := by
  cases h with
  | written hplus => cases h' with
    | written => rfl
    | national hplus' => exact absurd hplus hplus'
    | withCode hplus' => exact absurd hplus hplus'
  | national hplus hnational => cases h' with
    | written hplus' => exact absurd hplus' hplus
    | national => rfl
    | withCode _ hnational' => rw [hnational] at hnational'; cases hnational'
  | withCode hplus hnational => cases h' with
    | written hplus' => exact absurd hplus' hplus
    | national _ hnational' => rw [hnational] at hnational'; cases hnational'
    | withCode => rfl

section Number

variable (hdigits : ∀ c ∈ number, c.isDigit = true)
include hdigits

theorem digitsOf_plus : digitsOf ('+' :: number) = number := by
  unfold digitsOf
  rw [List.filter_cons_of_neg (by decide)]
  exact digitsOf_eq hdigits

theorem trimmed_plus : trimmed ('+' :: number) = '+' :: number := by
  refine trimmed_eq fun c hc => ?_
  rcases List.mem_cons.1 hc with rfl | hc
  · rfl
  · rw [Bool.eq_false_iff]
    intro hblank
    have hdigit := isDigit_of_isBlank hblank
    rw [hdigits c hc] at hdigit
    cases hdigit

/-- An international number is read as itself, in every unit. -/
theorem readAs_plus (hlow : 8 ≤ number.length) (hhigh : number.length ≤ 15) :
    ReadAs code.digits (trimmed ('+' :: number)) number := by
  have hnumber := digitsOf_plus hdigits
  rw [trimmed_plus hdigits]
  have hread : 8 ≤ (digitsOf ('+' :: number)).length → (digitsOf ('+' :: number)).length ≤ 15 →
      ReadAs code.digits ('+' :: number) (digitsOf ('+' :: number)) := .written rfl
  rw [hnumber] at hread
  exact hread hlow hhigh

end Number

/-! ## Looking for a number -/

/-- The calling code of Brazil. -/
def CallingCode.default : CallingCode where
  digits := DEFAULT_COUNTRY_CODE
  ne_nil := by decide
  isDigit := List.all_eq_true.1 (by decide)
  brazil _ := rfl

/-- What a text is looked for by: its own digits, and those its number is kept as. -/
theorem mem_phoneDigitVariants {raw : PhoneText} : digits ∈ phoneDigitVariants raw ↔
    digitsOf raw ≠ [] ∧ (digits = digitsOf raw ∨
      ∃ number, ReadAs DEFAULT_COUNTRY_CODE (trimmed raw) number ∧ KeptAs number digits) := by
  unfold phoneDigitVariants
  dsimp only
  split
  · next hnil =>
    rw [List.isEmpty_iff] at hnil
    exact ⟨fun h => absurd h List.not_mem_nil, fun h => absurd hnil h.1⟩
  next hsome =>
  rw [List.isEmpty_iff] at hsome
  rw [List.mem_eraseDups, List.mem_cons, List.mem_append, Option.mem_toList, Option.mem_toList,
    and_iff_right hsome]
  refine or_congr_right ?_
  constructor
  · rintro (h | h)
    · obtain ⟨e164, he164, rfl⟩ := Option.map_eq_some_iff.1 h
      obtain ⟨number, rfl, hread⟩ := (normalizePhoneToE164_eq_some .default).1 he164
      exact ⟨number, hread, .inl rfl⟩
    · obtain ⟨number, hnumber, rfl⟩ := Option.map_eq_some_iff.1 h
      obtain ⟨hnumber, hlong⟩ := Option.filter_eq_some_iff.1 hnumber
      obtain ⟨e164, he164, rfl⟩ := Option.map_eq_some_iff.1 hnumber
      obtain ⟨number, rfl, hread⟩ := (normalizePhoneToE164_eq_some .default).1 he164
      rw [Bool.and_eq_true, List.isPrefixOf_iff_prefix, decide_eq_true_eq] at hlong
      exact ⟨number, hread, .inr ⟨hlong.1, hlong.2, rfl⟩⟩
  · rintro ⟨number, hread, hkept⟩
    have he164 := (normalizePhoneToE164_eq_some .default).2 ⟨number, rfl, hread⟩
    change normalizePhoneToE164 raw DEFAULT_COUNTRY_CODE = _ at he164
    rw [he164]
    rcases hkept with rfl | ⟨hbegins, hlong, rfl⟩
    · exact .inl rfl
    · refine .inr (Option.map_eq_some_iff.2 ⟨number, Option.filter_eq_some_iff.2 ⟨rfl, ?_⟩, rfl⟩)
      rw [Bool.and_eq_true, List.isPrefixOf_iff_prefix, decide_eq_true_eq]
      exact ⟨hbegins, hlong⟩

/-- An international number is looked for by what it is kept as. -/
theorem mem_variants_plus (hdigits : ∀ c ∈ number, c.isDigit = true) (hlow : 8 ≤ number.length)
    (hhigh : number.length ≤ 15) :
    digits ∈ phoneDigitVariants ('+' :: number) ↔ KeptAs number digits := by
  have hread := readAs_plus .default hdigits hlow hhigh
  rw [mem_phoneDigitVariants, digitsOf_plus hdigits]
  constructor
  · rintro ⟨-, rfl | ⟨number', hread', hkept⟩⟩
    · exact .inl rfl
    · exact hread'.unique .default hread ▸ hkept
  · intro hkept
    refine ⟨?_, .inr ⟨number, hread, hkept⟩⟩
    rintro rfl
    cases hlow

theorem KeptAs.ne_nil (h : KeptAs number digits) (hlow : 8 ≤ number.length) : digits ≠ [] := by
  rcases h with rfl | ⟨-, hlong, rfl⟩
  · rintro rfl
    cases hlow
  · intro hnil
    have hlength := congrArg List.length hnil
    rw [List.length_drop, List.length_nil] at hlength
    omega

/-- Only in Brazil a text without the calling code is kept as its number. -/
theorem ReadAs.brazil (h : ReadAs code.digits (trimmed t) number)
    (hbegins : DEFAULT_COUNTRY_CODE <+: number) (hlong : 12 ≤ number.length)
    (hdrop : digitsOf t = number.drop 2) : code.digits = DEFAULT_COUNTRY_CODE := by
  have hshort : (significant (trimmed t)).length ≤ number.length - 2 := by
    have hle : (significant (trimmed t)).length ≤ (digitsOf (trimmed t)).length :=
      (List.dropWhile_sublist _).length_le
    rwa [digitsOf_trimmed, hdrop, List.length_drop] at hle
  generalize hs : significant (trimmed t) = s at hshort
  cases h with
  | written =>
    have hlength := congrArg List.length hdrop
    rw [digitsOf_trimmed, List.length_drop] at *
    omega
  | national =>
    rw [hs] at *
    refine code.brazil (List.prefix_of_prefix_length_le hbegins (List.prefix_append _ _) ?_)
    rw [List.length_append] at hshort hlong
    change 2 ≤ code.digits.length
    omega
  | withCode =>
    rw [hs] at *
    omega

/-- A text that is stored as its number is kept finds every other one stored so. -/
theorem mem_variants_of_kept {stored : PhoneText} (hread : ReadAs code.digits (trimmed t) number)
    (hkept : KeptAs number (digitsOf t)) (hstored : ReadAs code.digits (trimmed stored) number)
    (hstored' : KeptAs number (digitsOf stored)) :
    digitsOf stored ∈ phoneDigitVariants t := by
  have hlow := (hread.number_digits code).2.1
  rw [mem_phoneDigitVariants]
  refine ⟨hkept.ne_nil hlow, ?_⟩
  have hfound : code.digits = DEFAULT_COUNTRY_CODE → digitsOf stored = digitsOf t ∨
      ∃ number, ReadAs DEFAULT_COUNTRY_CODE (trimmed t) number ∧ KeptAs number (digitsOf stored) :=
    fun hcode => .inr ⟨number, hcode ▸ hread, hstored'⟩
  rcases hkept with ht | ⟨hbegins, hlong, ht⟩
  · rcases hstored' with hs | ⟨hbegins, hlong, hs⟩
    · exact .inl (hs.trans ht.symm)
    · exact hfound (hstored.brazil code hbegins hlong hs)
  · exact hfound (hread.brazil code hbegins hlong ht)

end Barbershop
