import Mathlib.Data.List.Basic

/-!
# Telephone numbers

A phone is free text. `normalizePhoneToE164` reads it as an international number, with the calling
code of the unit where none is written, and `phoneDigitVariants` lists the ways the same number is
stored as digits, by which a customer's records are found.
-/

namespace Barbershop

/-- The text of a phone. -/
abbrev PhoneText := List Char

/-- `replace(/\D/g, '')` -/
def digitsOf (raw : PhoneText) : PhoneText := raw.filter Char.isDigit

/-- What `trim` strips. -/
def isBlank (c : Char) : Bool :=
  (0x9 ≤ c.toNat && c.toNat ≤ 0xd) || c.toNat == 0x20 || c.toNat == 0xa0 || c.toNat == 0x1680 ||
    (0x2000 ≤ c.toNat && c.toNat ≤ 0x200a) || c.toNat == 0x2028 || c.toNat == 0x2029 ||
    c.toNat == 0x202f || c.toNat == 0x205f || c.toNat == 0x3000 || c.toNat == 0xfeff

def trimmed (raw : PhoneText) : PhoneText :=
  ((raw.dropWhile isBlank).reverse.dropWhile isBlank).reverse

/-- A text without blanks is not trimmed. -/
theorem trimmed_eq {t : PhoneText} (h : ∀ c ∈ t, isBlank c = false) : trimmed t = t := by
  have hdrop : ∀ l : PhoneText, (∀ c ∈ l, isBlank c = false) → l.dropWhile isBlank = l := by
    intro l hl
    cases l with
    | nil => rfl
    | cons c l => exact List.dropWhile_cons_of_neg (by rw [hl c List.mem_cons_self]; decide)
  unfold trimmed
  rw [hdrop t h, hdrop _ fun c hc => h c (List.mem_reverse.1 hc), List.reverse_reverse]

/-- The calling code that is taken where none is given. -/
def DEFAULT_COUNTRY_CODE : PhoneText := ['5', '5']

/-- The lengths of a number without its calling code. -/
def nationalLengths (callingCode : PhoneText) : List ℕ :=
  if callingCode = ['1'] then [10]
  else if callingCode = ['5', '5'] then [10, 11]
  else [8, 9, 10, 11]

/-- North American area codes do not begin with 0 or 1. The text holds digits only. -/
def nationalOk (callingCode national : PhoneText) : Bool :=
  match national with
  | [] => false
  | first :: _ =>
    if first = '0' then false
    else if callingCode = ['1'] then '2' ≤ first && national.length == 10
    else true

/-- The number is a national one of the code. -/
def isNational (callingCode digits : PhoneText) : Bool :=
  (nationalLengths callingCode).contains digits.length && nationalOk callingCode digits

def normalizePhoneToE164 (raw defaultCountryCode : PhoneText) : Option PhoneText :=
  let callingCode :=
    digitsOf (if defaultCountryCode.isEmpty then DEFAULT_COUNTRY_CODE else defaultCountryCode)
  let digits := digitsOf (trimmed raw)
  if callingCode.isEmpty || digits.isEmpty then none
  -- with a plus, the calling code is written
  else if (trimmed raw).head? = some '+' then
    if 8 ≤ digits.length ∧ digits.length ≤ 15 then some ('+' :: digits) else none
  else
    let digits := digits.dropWhile (· = '0')
    if digits.isEmpty || 15 < digits.length then none
    else if isNational callingCode digits then
      if (callingCode ++ digits).length ≤ 15 then some ('+' :: (callingCode ++ digits)) else none
    -- longer than a national number, and it begins with the calling code
    else if callingCode.isPrefixOf digits && 8 ≤ digits.length &&
        isNational callingCode (digits.drop callingCode.length) then some ('+' :: digits)
    else none

/-- The ways of storing one number, digits only. -/
def phoneDigitVariants (raw : PhoneText) (defaultCountryCode : PhoneText := DEFAULT_COUNTRY_CODE) :
    List PhoneText :=
  let digits := digitsOf raw
  if digits.isEmpty then []
  else
    let e164 := (normalizePhoneToE164 raw defaultCountryCode).map List.tail
    let national := (e164.filter fun e =>
      defaultCountryCode.isPrefixOf e && 12 ≤ e.length).map (·.drop defaultCountryCode.length)
    (digits :: (e164.toList ++ national.toList)).eraseDups

example : phoneDigitVariants "(11) 99999-0000".toList = phoneDigitVariants "11 99999 0000".toList ∧
    phoneDigitVariants "+55 11 99999-0000".toList =
      ["5511999990000".toList, "11999990000".toList] := by decide +kernel

end Barbershop
