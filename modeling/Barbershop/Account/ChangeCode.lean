import Barbershop.Lib.Calls
import Barbershop.Lib.Table

/-!
# Codes for a change of the password

`sendChangePasswordCode` creates a row; `verifyChangePasswordCode` reads the newest unused one,
compares, and writes what came of it: a wrong guess its number of attempts, a right one that the
code is used. Both writes are by the row's key alone, and what is written is computed from what was
read. `changePassword` begins with a check that consumes, and writes no code.

The fields `wrong`, `checking` and `consumed` of a row and `accepted` of the books are no columns:
wrong guesses the code was compared with, requests between their read of it and their write, times
it was consumed; and for each code accepted the key that was free then.
-/

namespace Barbershop

open Lib

def CHANGE_PASSWORD_CODE_EXPIRY_MINUTES : ℕ := 10

def CHANGE_PASSWORD_MAX_ATTEMPTS : ℕ := 6

structure VerificationCode where
  code : String
  expiresAt : ℤ
  attempts : ℕ
  used : Bool
  wrong : ℕ
  checking : ℕ
  consumed : ℕ

/-- The codes of one user. -/
structure ChangeCodes where
  now : ℤ
  codes : Table VerificationCode
  accepted : List (ℕ × ℕ)

namespace VerificationCode

def created (code : String) (expiresAt : ℤ) : VerificationCode where
  code := code
  expiresAt := expiresAt
  attempts := 0
  used := false
  wrong := 0
  checking := 0
  consumed := 0

/-- A wrong guess was compared with the code. -/
def compared (v : VerificationCode) : VerificationCode :=
  { v with wrong := v.wrong + 1, checking := v.checking + 1 }

/-- The guess is written; `attempts` is from the row that was read. -/
def missed (attempts : ℕ) (v : VerificationCode) : VerificationCode :=
  { v with
    attempts := attempts
    used := decide (CHANGE_PASSWORD_MAX_ATTEMPTS ≤ attempts)
    checking := v.checking - 1 }

def matched (v : VerificationCode) : VerificationCode := { v with checking := v.checking + 1 }

def consume (v : VerificationCode) : VerificationCode :=
  { v with used := true, checking := v.checking - 1, consumed := v.consumed + 1 }

def expire (v : VerificationCode) : VerificationCode := { v with used := true }

end VerificationCode

inductive ChangeCodeEvent where
  | pass (time : ℕ)
  | sendChangePasswordCode (code : String)
  | verifyChangePasswordCode (code : String) (consume : Bool)

/-- Where a request is; the codes and attempts in it are from what it read. -/
inductive ChangeCodeCall where
  | creating (code : String) (expiresAt : ℤ)
  | finding (code : String) (consume : Bool)
  | expiring (id : ℕ)
  | missing (id attempts : ℕ)
  | consuming (id : ℕ)

namespace ChangeCodes

def write (s : ChangeCodes) (id : ℕ) (f : VerificationCode → VerificationCode) : ChangeCodes :=
  { s with codes := s.codes.modify id f }

def accept (s : ChangeCodes) (id : ℕ) : ChangeCodes :=
  { s with accepted := (id, s.codes.next) :: s.accepted }

/-- The newest code that is not used. -/
def newestUnused (s : ChangeCodes) : Option (ℕ × VerificationCode) :=
  (s.codes.filter fun _ v => !v.used).getLast?

end ChangeCodes

def ChangeCodeEvent.step (e : ChangeCodeEvent) (s : ChangeCodes) :
    Option (ChangeCodes × Option ChangeCodeCall) :=
  match e with
  | pass time => some ({ s with now := s.now + time }, none)
  | sendChangePasswordCode code =>
    some (s, some (.creating code (s.now + CHANGE_PASSWORD_CODE_EXPIRY_MINUTES * 60 * 1000)))
  | verifyChangePasswordCode code consume => some (s, some (.finding code consume))

def ChangeCodeCall.step (c : ChangeCodeCall) (s : ChangeCodes) :
    Option (ChangeCodes × Option ChangeCodeCall) :=
  match c with
  | creating code expiresAt =>
    some ({ s with codes := s.codes.insert (.created code expiresAt) }, none)
  | finding code consume =>
    match s.newestUnused with
    | none => some (s, none)
    | some (id, record) =>
      if record.expiresAt < s.now then some (s, some (expiring id))
      else if record.code ≠ code then
        some (s.write id VerificationCode.compared, some (missing id (record.attempts + 1)))
      else if consume then some (s.write id VerificationCode.matched, some (consuming id))
      else some (s.accept id, none)
  | expiring id => some (s.write id VerificationCode.expire, none)
  | missing id attempts => some (s.write id (VerificationCode.missed attempts), none)
  | consuming id => some ((s.write id VerificationCode.consume).accept id, none)

/-- Steps decide nothing: what a call does next is in the state and in what it read. -/
def changeCodes : CallSystem ChangeCodes ChangeCodeCall ChangeCodeEvent Unit :=
  ⟨ChangeCodeEvent.step, fun _ => ChangeCodeCall.step⟩

/-! ## The law -/

structure ChangeCodes.Guarded (s : ChangeCodes) : Prop where
  guesses : ∀ id v, s.codes.get? id = some v → v.wrong ≤ CHANGE_PASSWORD_MAX_ATTEMPTS
  once : ∀ id v, s.codes.get? id = some v → v.consumed ≤ 1
  /-- What was accepted was the newest code. -/
  newest : ∀ a ∈ s.accepted, a.2 = a.1 + 1

/-- A code is created once those before it are used or expired and in no check, and is read by one
check at a time. -/
def ChangeCodeCall.apart (c : ChangeCodeCall) (s : ChangeCodes) : Bool :=
  match c with
  | creating _ _ => !s.codes.any fun _ v => v.checking != 0 || !v.used && decide (s.now ≤ v.expiresAt)
  | finding _ _ => s.newestUnused.all fun r => r.2.checking == 0
  | _ => true

/-! ## Why it holds -/

/-- What a row says of its guesses. -/
structure VerificationCode.Counted (v : VerificationCode) : Prop where
  wrong : v.wrong ≤ CHANGE_PASSWORD_MAX_ATTEMPTS
  consumed : v.consumed ≤ 1
  open_lt : v.used = false → v.attempts < CHANGE_PASSWORD_MAX_ATTEMPTS
  written : v.checking = 0 → v.wrong = v.attempts ∧ (v.used = false → v.consumed = 0)

structure ChangeCodes.Sound (s : ChangeCodes) : Prop where
  counted : ∀ {id v}, s.codes.get? id = some v → v.Counted
  /-- Older codes are over. -/
  older : ∀ {id v}, s.codes.get? id = some v → id + 1 ≠ s.codes.next →
    v.checking = 0 ∧ (v.used = true ∨ v.expiresAt < s.now)
  newest : ∀ a ∈ s.accepted, a.2 = a.1 + 1

/-- The code that a call is between its read and its write of. -/
def ChangeCodeCall.held : ChangeCodeCall → Option ℕ
  | missing id _ | consuming id => some id
  | _ => none

/-- What a call knows of the code that it holds. -/
def ChangeCodeCall.Knows (s : ChangeCodes) : ChangeCodeCall → Prop
  | missing id attempts => ∃ v, s.codes.get? id = some v ∧ v.checking = 1 ∧ v.consumed = 0 ∧
      v.wrong = v.attempts + 1 ∧ attempts = v.wrong
  | consuming id => ∃ v, s.codes.get? id = some v ∧ v.checking = 1 ∧ v.consumed = 0 ∧
      v.wrong = v.attempts
  | _ => True

def changeCodesInv : CallInv ChangeCodes ChangeCodeCall ℕ where
  weight _ := 0
  whole s _ := s.Sound
  each s c := c.Knows s
  pair a b := ∀ id ∈ a.held, id ∉ b.held
  symm h id hb ha := h id ha hb

/-- The columns that a call in flight relies on. -/
structure VerificationCode.Same (v v' : VerificationCode) : Prop where
  attempts : v'.attempts = v.attempts
  wrong : v'.wrong = v.wrong
  checking : v'.checking = v.checking
  consumed : v'.consumed = v.consumed

section Frame

variable {s s' : ChangeCodes} {c d : ChangeCodeCall} {id : ℕ}

theorem VerificationCode.Same.refl (v : VerificationCode) : v.Same v := ⟨rfl, rfl, rfl, rfl⟩

/-- The code that a call holds is left alone. -/
theorem ChangeCodeCall.Knows.frame (h : d.Knows s)
    (hsame : ∀ id ∈ d.held, ∀ v, s.codes.get? id = some v →
      ∃ v', s'.codes.get? id = some v' ∧ v.Same v') : d.Knows s' := by
  cases d with
  | creating code expiresAt | finding code consume | expiring id => trivial
  | missing id attempts =>
    obtain ⟨v, hv, hchecking, hconsumed, hwrong, hattempts⟩ := h
    obtain ⟨v', hv', hs⟩ := hsame id rfl v hv
    refine ⟨v', hv', hs.checking.trans hchecking, hs.consumed.trans hconsumed, ?_,
      hattempts.trans hs.wrong.symm⟩
    rw [hs.wrong, hs.attempts, hwrong]
  | consuming id =>
    obtain ⟨v, hv, hchecking, hconsumed, hwrong⟩ := h
    obtain ⟨v', hv', hs⟩ := hsame id rfl v hv
    refine ⟨v', hv', hs.checking.trans hchecking, hs.consumed.trans hconsumed, ?_⟩
    rw [hs.wrong, hs.attempts, hwrong]

/-- A write to another code. -/
theorem ChangeCodeCall.Knows.write (h : d.Knows s) (f : VerificationCode → VerificationCode)
    (hother : id ∉ d.held) : d.Knows (s.write id f) := by
  refine h.frame fun j hj v hv => ⟨v, ?_, .refl v⟩
  have hne : j ≠ id := by
    rintro rfl
    exact hother hj
  rw [ChangeCodes.write, Table.get?_modify_of_ne _ _ hne, hv]

/-- One code is written, and is the newest or over. -/
theorem ChangeCodes.Sound.write (h : s.Sound) {v : VerificationCode}
    {f : VerificationCode → VerificationCode} (hv : s.codes.get? id = some v)
    (hcounted : (f v).Counted)
    (holder : id + 1 ≠ s.codes.next →
      (f v).checking = 0 ∧ ((f v).used = true ∨ (f v).expiresAt < s.now)) : (s.write id f).Sound where
  counted := by
    intro j w hw
    rw [ChangeCodes.write, Table.get?_modify] at hw
    split at hw
    · next hj =>
      rw [hj, hv] at hw
      obtain rfl := Option.some.inj hw
      exact hcounted
    · exact h.counted hw
  older := by
    intro j w hw hj
    rw [ChangeCodes.write, Table.get?_modify] at hw
    split at hw
    · next hid =>
      rw [hid, hv] at hw
      obtain rfl := Option.some.inj hw
      exact holder (hid ▸ hj)
    · exact h.older hw hj
  newest := h.newest

theorem ChangeCodes.Sound.accept (h : s.Sound) (hnewest : id + 1 = s.codes.next) :
    (s.accept id).Sound where
  counted := h.counted
  older := h.older
  newest := by
    intro a ha
    rcases List.mem_cons.1 ha with rfl | ha
    · exact hnewest.symm
    · exact h.newest a ha

theorem ChangeCodes.Sound.guarded (h : s.Sound) : s.Guarded where
  guesses _ _ hv := (h.counted hv).wrong
  once _ _ hv := (h.counted hv).consumed
  newest := h.newest

theorem ChangeCodes.newestUnused_some {r : ℕ × VerificationCode} (h : s.newestUnused = some r) :
    s.codes.get? r.1 = some r.2 ∧ r.2.used = false := by
  have hmem := Table.mem_filter.1 (List.mem_of_getLast? h)
  simpa using hmem

/-- A code that is held is the newest. -/
theorem ChangeCodes.Sound.newest_of_held (h : s.Sound) {v : VerificationCode}
    (hv : s.codes.get? id = some v) (hchecking : v.checking = 1) : id + 1 = s.codes.next := by
  by_contra hne
  have hzero := (h.older hv hne).1
  omega

end Frame

/-! ### Moves -/

section Moves

variable {s : ChangeCodes} {id : ℕ} {r : ChangeCodes × Option ChangeCodeCall}

theorem changeCodes_event {e : ChangeCodeEvent} (hevent : e.step s = some r) :
    changeCodesInv.Keeps s none r := by
  intro m hwhole _
  have hbegin : ∀ {c : ChangeCodeCall}, c.held = none → c.Knows s →
      changeCodesInv.Kept s none m s (some c) := by
    intro c hheld hknows
    refine .stay hwhole rfl (fun b hb => ?_) fun d _ b hb id hid => ?_
    · obtain rfl := Option.mem_some.1 hb
      exact hknows
    · obtain rfl := Option.mem_some.1 hb
      rw [hheld] at hid
      cases hid
  cases e with
  | pass time =>
    obtain rfl := Option.some.inj hevent
    refine .over ⟨hwhole.counted, fun hv hne => ?_, hwhole.newest⟩ ?_
    · obtain ⟨hchecking, hover⟩ := hwhole.older hv hne
      refine ⟨hchecking, hover.imp_right fun hexpired => hexpired.trans_le ?_⟩
      simp
    · intro d hd _
      exact ChangeCodeCall.Knows.frame hd fun _ _ v hv => ⟨v, hv, .refl v⟩
  | sendChangePasswordCode code =>
    obtain rfl := Option.some.inj hevent
    exact hbegin rfl trivial
  | verifyChangePasswordCode code consume =>
    obtain rfl := Option.some.inj hevent
    exact hbegin rfl trivial

theorem ChangeCodesKept.creating {code : String} {expiresAt : ℤ}
    (happart : (ChangeCodeCall.creating code expiresAt).apart s = true)
    (hstep : (ChangeCodeCall.creating code expiresAt).step s = some r) :
    changeCodesInv.Keeps s (some (.creating code expiresAt)) r := by
  intro m hwhole _
  obtain rfl := Option.some.inj hstep
  have hover : ∀ {id v}, s.codes.get? id = some v →
      v.checking = 0 ∧ (v.used = true ∨ v.expiresAt < s.now) := by
    intro id v hv
    rw [ChangeCodeCall.apart, Bool.not_eq_true', Table.any_eq_false] at happart
    have hrow := happart id v hv
    simp only [Bool.or_eq_false_iff, bne_eq_false_iff_eq, Bool.and_eq_false_iff,
      Bool.not_eq_false', decide_eq_false_iff_not, not_le] at hrow
    exact hrow
  refine .over ⟨?_, ?_, hwhole.newest⟩ ?_
  · intro id v hv
    rcases Table.get?_insert_cases hv with ⟨-, rfl⟩ | hv
    · exact ⟨Nat.zero_le _, Nat.zero_le _, fun _ => Nat.succ_pos 5, fun _ => ⟨rfl, fun _ => rfl⟩⟩
    · exact hwhole.counted hv
  · intro id v hv hne
    rcases Table.get?_insert_cases hv with ⟨hid, -⟩ | hv
    · exact absurd (by rw [hid, Table.next_insert]) hne
    · exact hover hv
  · intro d hd _
    exact ChangeCodeCall.Knows.frame hd fun _ _ v hv => ⟨v, Table.get?_insert_of_some _ hv, .refl v⟩

/-- A check begins to hold the code that it found. -/
theorem ChangeCodesKept.hold {code : String} {consume : Bool} {m : ℕ} {c : ChangeCodeCall}
    {v : VerificationCode} {f : VerificationCode → VerificationCode} (hwhole : s.Sound)
    (hv : s.codes.get? id = some v) (hfree : v.checking = 0) (hcounted : (f v).Counted)
    (hnewest : id + 1 = s.codes.next) (hheld : c.held = some id) (hc : c.Knows (s.write id f)) :
    changeCodesInv.Kept s (some (.finding code consume)) m (s.write id f) (some c) := by
  have hother : ∀ {d : ChangeCodeCall}, d.Knows s → id ∉ d.held := by
    intro d hd hid
    cases d with
    | creating code expiresAt | finding code consume | expiring j => cases hid
    | missing j attempts | consuming j =>
      obtain rfl := Option.some.inj hid
      obtain ⟨w, hw, hchecking, -⟩ := hd
      rw [hv] at hw
      obtain rfl := Option.some.inj hw
      omega
  refine ⟨hwhole.write hv hcounted fun hne => absurd hnewest hne, ?_, ?_, ?_⟩
  · intro b hb
    obtain rfl := Option.mem_some.1 hb
    exact hc
  · intro d hd _
    exact ChangeCodeCall.Knows.write hd f (hother hd)
  · intro d hd _ b hb j hj
    obtain rfl := Option.mem_some.1 hb
    rw [hheld] at hj
    obtain rfl := Option.some.inj hj
    exact hother hd

theorem ChangeCodesKept.finding {code : String} {consume : Bool}
    (happart : (ChangeCodeCall.finding code consume).apart s = true)
    (hstep : (ChangeCodeCall.finding code consume).step s = some r) :
    changeCodesInv.Keeps s (some (.finding code consume)) r := by
  intro m hwhole _
  simp only [ChangeCodeCall.step] at hstep
  split at hstep
  · obtain rfl := Option.some.inj hstep
    exact .stay hwhole rfl (fun b hb => by cases hb) fun _ _ b hb => by cases hb
  next id v hfound =>
  obtain ⟨hv, hunused⟩ := ChangeCodes.newestUnused_some hfound
  dsimp only at hv hunused
  have hfree : v.checking = 0 := by simpa [ChangeCodeCall.apart, hfound] using happart
  have hcounted := hwhole.counted hv
  obtain ⟨hwritten, hconsumed⟩ := hcounted.written hfree
  replace hconsumed := hconsumed hunused
  have hlt := hcounted.open_lt hunused
  split_ifs at hstep with hexpired hwrong hconsume
  · obtain rfl := Option.some.inj hstep
    refine .stay hwhole rfl (fun b hb => ?_) fun _ _ b hb id hid => ?_
    · obtain rfl := Option.mem_some.1 hb
      trivial
    · obtain rfl := Option.mem_some.1 hb
      cases hid
  all_goals
    have hnewest : id + 1 = s.codes.next := by
      by_contra hne
      rcases (hwhole.older hv hne).2 with hused | hover
      · rw [hunused] at hused
        cases hused
      · exact hexpired hover
    obtain rfl := Option.some.inj hstep
  · have hc : v.compared.Counted := by
      refine ⟨?_, hcounted.consumed, hcounted.open_lt, fun hzero => ?_⟩
      · show v.wrong + 1 ≤ _
        omega
      · exact absurd hzero (Nat.succ_ne_zero _)
    refine ChangeCodesKept.hold hwhole hv hfree hc hnewest rfl ⟨v.compared, ?_, ?_, hconsumed, ?_, ?_⟩
    · rw [ChangeCodes.write, Table.get?_modify_self, hv, Option.map_some]
    · show v.checking + 1 = 1
      omega
    · show v.wrong + 1 = v.attempts + 1
      omega
    · show v.attempts + 1 = v.wrong + 1
      omega
  · have hc : v.matched.Counted := by
      refine ⟨hcounted.wrong, hcounted.consumed, hcounted.open_lt, fun hzero => ?_⟩
      exact absurd hzero (Nat.succ_ne_zero _)
    refine ChangeCodesKept.hold hwhole hv hfree hc hnewest rfl ⟨v.matched, ?_, ?_, hconsumed, hwritten⟩
    · rw [ChangeCodes.write, Table.get?_modify_self, hv, Option.map_some]
    · show v.checking + 1 = 1
      omega
  · refine .over (hwhole.accept hnewest) fun d hd _ => ?_
    exact ChangeCodeCall.Knows.frame hd fun _ _ w hw => ⟨w, hw, .refl w⟩

theorem ChangeCodesKept.expiring (hstep : (ChangeCodeCall.expiring id).step s = some r) :
    changeCodesInv.Keeps s (some (.expiring id)) r := by
  intro m hwhole _
  obtain rfl := Option.some.inj hstep
  refine .over ?_ ?_
  · show (s.write id VerificationCode.expire).Sound
    cases hv : s.codes.get? id with
    | none =>
      rw [ChangeCodes.write, Table.modify_of_none hv]
      exact hwhole
    | some v =>
      have hcounted := hwhole.counted hv
      have hused : ∀ {P : Prop}, v.expire.used = false → P := fun hopen => by cases hopen
      refine hwhole.write hv ⟨hcounted.wrong, hcounted.consumed, hused, fun hzero => ?_⟩
        fun hne => ⟨(hwhole.older hv hne).1, .inl rfl⟩
      exact ⟨(hcounted.written hzero).1, hused⟩
  · intro d hd _
    refine ChangeCodeCall.Knows.frame hd fun j _ v hv => ?_
    by_cases hj : j = id
    · subst hj
      refine ⟨v.expire, ?_, rfl, rfl, rfl, rfl⟩
      show (s.codes.modify j VerificationCode.expire).get? j = _
      rw [Table.get?_modify_self, hv, Option.map_some]
    · refine ⟨v, ?_, .refl v⟩
      show (s.codes.modify id VerificationCode.expire).get? j = _
      rw [Table.get?_modify_of_ne _ _ hj, hv]

/-- A check writes the code that it holds, and is over. -/
theorem ChangeCodesKept.release {m : ℕ} {c : ChangeCodeCall} {s' : ChangeCodes}
    {f : VerificationCode → VerificationCode} (hheld : c.held = some id) (hs' : s'.Sound)
    (hcodes : s'.codes = (s.write id f).codes) :
    changeCodesInv.Kept s (some c) m s' none := by
  refine .over hs' fun d hd hpair => ?_
  have hother : id ∉ d.held := hpair c rfl id hheld
  have hknows : d.Knows (s.write id f) := ChangeCodeCall.Knows.write hd f hother
  exact hknows.frame fun j _ v hv => ⟨v, by rw [hcodes, hv], .refl v⟩

theorem ChangeCodesKept.missing {attempts : ℕ} (hstep : (ChangeCodeCall.missing id attempts).step s = some r) :
    changeCodesInv.Keeps s (some (.missing id attempts)) r := by
  intro m hwhole hmine
  obtain ⟨v, hv, hchecking, hconsumed, hwrong, rfl⟩ := hmine _ rfl
  obtain rfl := Option.some.inj hstep
  have hcounted := hwhole.counted hv
  refine ChangeCodesKept.release rfl (hwhole.write hv ⟨hcounted.wrong, hcounted.consumed, ?_, ?_⟩
    fun hne => absurd (hwhole.newest_of_held hv hchecking) hne) rfl
  · intro hopen
    simpa [VerificationCode.missed] using hopen
  · exact fun _ => ⟨rfl, fun _ => hconsumed⟩

theorem ChangeCodesKept.consuming (hstep : (ChangeCodeCall.consuming id).step s = some r) :
    changeCodesInv.Keeps s (some (.consuming id)) r := by
  intro m hwhole hmine
  obtain ⟨v, hv, hchecking, hconsumed, hwrong⟩ := hmine _ rfl
  obtain rfl := Option.some.inj hstep
  have hcounted := hwhole.counted hv
  have hnewest := hwhole.newest_of_held hv hchecking
  have hused : ∀ {P : Prop}, v.consume.used = false → P := fun hopen => by cases hopen
  have hwrite : (s.write id VerificationCode.consume).Sound := by
    refine hwhole.write hv ⟨hcounted.wrong, ?_, hused, fun _ => ⟨hwrong, hused⟩⟩
      fun hne => absurd hnewest hne
    show v.consumed + 1 ≤ 1
    omega
  exact ChangeCodesKept.release rfl (hwrite.accept hnewest) rfl

theorem changeCodes_step {c : ChangeCodeCall} (happart : c.apart s = true)
    (hstep : c.step s = some r) : changeCodesInv.Keeps s (some c) r := by
  cases c with
  | creating code expiresAt => exact ChangeCodesKept.creating happart hstep
  | finding code consume => exact ChangeCodesKept.finding happart hstep
  | expiring id => exact ChangeCodesKept.expiring hstep
  | missing id attempts => exact ChangeCodesKept.missing hstep
  | consuming id => exact ChangeCodesKept.consuming hstep

end Moves

/-! ### Runs -/

/-- A user without codes. -/
def ChangeCodes.initial (now : ℤ) : ChangeCodes := ⟨now, .empty, []⟩

theorem changeCodes_guarded {now : ℤ} {x : Calls ChangeCodes ChangeCodeCall}
    {moves : List (Move ChangeCodeEvent Unit)}
    (hmeets : changeCodes.machine.Meets (CallSystem.When (fun _ _ => True)
      fun _ c s => c.apart s = true) (.idle (.initial now)) moves)
    (hrun : changeCodes.machine.run (.idle (.initial now)) moves = some x) : x.shared.Guarded := by
  have hidle : changeCodesInv.Holds (.idle (.initial now)) :=
    CallInv.holds_idle ⟨fun hv => (by cases hv), fun hv => (by cases hv), fun _ ha => (by cases ha)⟩
  have hevents : ∀ {e : ChangeCodeEvent} {s : ChangeCodes} {r}, True →
      changeCodes.event e s = some r → changeCodesInv.Keeps s none r :=
    fun _ hevent => changeCodes_event hevent
  have hholds := hidle.run hevents (fun happart hstep => changeCodes_step happart hstep) hmeets hrun
  exact hholds.whole.guarded

end Barbershop
