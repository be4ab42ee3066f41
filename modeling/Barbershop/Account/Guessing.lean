import Barbershop.Account.ChangeCode
import Barbershop.Account.LoginCode

/-!
# Guessing a code

Both kinds of code bound wrong guesses, are consumed once and are accepted only while no newer one
was made, in the runs in which their checks do not overlap: `ChangeCodeCall.apart` and
`LoginCodeCall.apart`. Where they do overlap, seven guesses are compared with one code of either
kind; and of two codes the older one is accepted, for a change of the password even one request
after the other.
-/

namespace Barbershop

open Lib

theorem codes_resist_guessing {now : ℤ} {x : Calls ChangeCodes ChangeCodeCall}
    {y : Calls LoginCodes LoginCodeCall} {moves : List (Move ChangeCodeEvent Unit)}
    {logins : List (Move LoginCodeEvent Unit)}
    (hmeets : changeCodes.machine.Meets (CallSystem.When (fun _ _ => True)
      fun _ c s => c.apart s = true) (.idle (.initial now)) moves)
    (hrun : changeCodes.machine.run (.idle (.initial now)) moves = some x)
    (hmeets' : loginCodes.machine.Meets (CallSystem.When (fun _ _ => True)
      fun _ c s => c.apart s = true) (.idle (.initial now)) logins)
    (hrun' : loginCodes.machine.run (.idle (.initial now)) logins = some y) :
    x.shared.Guarded ∧ y.shared.Guarded :=
  ⟨changeCodes_guarded hmeets hrun, loginCodes_guarded hmeets' hrun'⟩

/-! ## Runs -/

section Runs

variable {ε : Type} (i n : ℕ)

/-- The next steps of a call. -/
def codeSteps : List (Move ε Unit) := List.replicate n (.step i ())

/-- One step of each of the calls from the `i`th on. -/
def codeStepEach : List (Move ε Unit) := (List.range' i n).map fun j => .step j ()

end Runs

/-- A wrong guess, a right one, and the right one again. -/
def guessedThenChanged : List (Move ChangeCodeEvent Unit) :=
  .event (.sendChangePasswordCode "111111") :: codeSteps 1 1 ++
    .event (.verifyChangePasswordCode "999999" true) :: codeSteps 2 2 ++
    .event (.verifyChangePasswordCode "111111" true) :: codeSteps 3 2 ++
    .event (.verifyChangePasswordCode "111111" true) :: codeSteps 4 1

/-- The code is sent and sent again; a wrong guess, and the right one. -/
def guessedThenIn : List (Move LoginCodeEvent Unit) :=
  .event (.sendLoginCode "111111") :: codeSteps 1 3 ++
    .event (.resendLoginCode 1 "222222") :: codeSteps 2 5 ++
    .event (.verifyLoginCode 2 "999999") :: codeSteps 3 5 ++
    .event (.verifyLoginCode 2 "222222") :: codeSteps 4 5

theorem guessed_then_accepted : ∃ x y,
    changeCodes.machine.run (.idle (.initial 0)) guessedThenChanged = some x ∧
    loginCodes.machine.run (.idle (.initial 0)) guessedThenIn = some y ∧
    x.shared.accepted = [(1, 2)] ∧ y.shared.accepted = [(2, 3)] ∧
    x.shared.Guarded ∧ y.shared.Guarded := by
  have hmeets : changeCodes.machine.Meets (CallSystem.When (fun _ _ => True)
      fun _ c s => c.apart s = true) (.idle (.initial 0)) guessedThenChanged := by
    decide +kernel
  have hmeets' : loginCodes.machine.Meets (CallSystem.When (fun _ _ => True)
      fun _ c s => c.apart s = true) (.idle (.initial 0)) guessedThenIn := by
    decide +kernel
  have hsome : (changeCodes.machine.run (.idle (.initial 0)) guessedThenChanged).any
      (·.shared.accepted == [(1, 2)]) = true := by
    decide +kernel
  have hsome' : (loginCodes.machine.run (.idle (.initial 0)) guessedThenIn).any
      (·.shared.accepted == [(2, 3)]) = true := by
    decide +kernel
  obtain ⟨x, hrun, hout⟩ := (Option.any_eq_true _ _).1 hsome
  obtain ⟨y, hrun', hout'⟩ := (Option.any_eq_true _ _).1 hsome'
  exact ⟨x, y, hrun, hrun', eq_of_beq hout, eq_of_beq hout',
    codes_resist_guessing hmeets hrun hmeets' hrun'⟩

/-- Seven guesses find one code before any of them is written. -/
def guessedTogether : List (Move ChangeCodeEvent Unit) :=
  .event (.sendChangePasswordCode "111111") :: codeSteps 1 1 ++
    List.replicate 7 (.event (.verifyChangePasswordCode "999999" true)) ++ codeStepEach 2 7

/-- A second code is sent and consumed, and then the first one is tried. -/
def olderTried : List (Move ChangeCodeEvent Unit) :=
  .event (.sendChangePasswordCode "111111") :: codeSteps 1 1 ++
    .event (.sendChangePasswordCode "222222") :: codeSteps 2 1 ++
    .event (.verifyChangePasswordCode "222222" true) :: codeSteps 3 2 ++
    .event (.verifyChangePasswordCode "111111" true) :: codeSteps 4 2

/-- Seven guesses read one code before any of them is counted. -/
def loginGuessedTogether : List (Move LoginCodeEvent Unit) :=
  .event (.sendLoginCode "111111") :: codeSteps 1 3 ++
    List.replicate 7 (.event (.verifyLoginCode 1 "999999")) ++ codeStepEach 2 7 ++ codeStepEach 2 7

/-- Two sendings read the account's key before either writes it; the first code is tried when both
are over. -/
def olderLoginTried : List (Move LoginCodeEvent Unit) :=
  [.event (.sendLoginCode "111111"), .event (.sendLoginCode "222222")] ++ codeStepEach 1 2 ++
    codeSteps 1 2 ++ codeSteps 2 2 ++ .event (.verifyLoginCode 1 "111111") :: codeSteps 3 3

/-- More guesses than the limit are compared with one code of either kind, and a replaced code of
either kind is accepted. -/
theorem codes_guessed :
    (∃ x v, changeCodes.machine.run (.idle (.initial 0)) guessedTogether = some x ∧
      x.shared.codes.get? 1 = some v ∧ v.wrong = 7 ∧ ¬x.shared.Guarded) ∧
    (∃ x, changeCodes.machine.run (.idle (.initial 0)) olderTried = some x ∧
      (1, 3) ∈ x.shared.accepted ∧ ¬x.shared.Guarded) ∧
    (∃ x v, loginCodes.machine.run (.idle (.initial 0)) loginGuessedTogether = some x ∧
      x.shared.logins.get? 1 = some v ∧ v.wrong = 7 ∧ v.code.isSome = true ∧
        ¬x.shared.Guarded) ∧
    ∃ x, loginCodes.machine.run (.idle (.initial 0)) olderLoginTried = some x ∧
      (1, 3) ∈ x.shared.accepted ∧ ¬x.shared.Guarded := by
  refine ⟨?_, ?_, ?_, ?_⟩
  · have hsome : (changeCodes.machine.run (.idle (.initial 0)) guessedTogether).any (fun x =>
        (x.shared.codes.get? 1).any fun v => v.wrong == 7) = true := by
      decide +kernel
    simp only [Option.any_eq_true, beq_iff_eq] at hsome
    obtain ⟨x, hrun, v, hv, hwrong⟩ := hsome
    refine ⟨x, v, hrun, hv, hwrong, fun hguarded => ?_⟩
    have hle := hguarded.guesses 1 v hv
    rw [hwrong] at hle
    exact absurd hle (by decide)
  · have hsome : (changeCodes.machine.run (.idle (.initial 0)) olderTried).any (fun x =>
        decide ((1, 3) ∈ x.shared.accepted)) = true := by
      decide +kernel
    simp only [Option.any_eq_true, decide_eq_true_eq] at hsome
    obtain ⟨x, hrun, hmem⟩ := hsome
    exact ⟨x, hrun, hmem, fun hguarded => absurd (hguarded.newest _ hmem) (by decide)⟩
  · have hsome : (loginCodes.machine.run (.idle (.initial 0)) loginGuessedTogether).any (fun x =>
        (x.shared.logins.get? 1).any fun v => v.wrong == 7 && v.code.isSome) = true := by
      decide +kernel
    simp only [Option.any_eq_true, Bool.and_eq_true, beq_iff_eq] at hsome
    obtain ⟨x, hrun, v, hv, hwrong, hcode⟩ := hsome
    refine ⟨x, v, hrun, hv, hwrong, hcode, fun hguarded => ?_⟩
    have hle := hguarded.guesses 1 v hv
    rw [hwrong] at hle
    exact absurd hle (by decide)
  · have hsome : (loginCodes.machine.run (.idle (.initial 0)) olderLoginTried).any (fun x =>
        decide ((1, 3) ∈ x.shared.accepted)) = true := by
      decide +kernel
    simp only [Option.any_eq_true, decide_eq_true_eq] at hsome
    obtain ⟨x, hrun, hmem⟩ := hsome
    exact ⟨x, hrun, hmem, fun hguarded => absurd (hguarded.newest _ hmem) (by decide)⟩

end Barbershop
