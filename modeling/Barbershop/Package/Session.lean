import Barbershop.Sale.Issued

/-!
# Package sessions at the desk

Outside a sale, a session is debited and a debit undone by two statements each, with no transaction
around them: first the counter of the package moves, by a conditional update, then the row of the
use is written. Other requests commit between the two.
-/

namespace Barbershop

open Lib

/-! ## Debiting -/

/-- The row of a session debited at the desk. -/
def deskUse (userId clientPackageId : ℕ) : ClientPackageUse where
  clientPackageId := clientPackageId
  appointmentId := none
  saleId := none
  usedByUserId := userId
  undoneAt := none
  undoneByUserId := none

/-- The checks and the first statement of `debitClientPackageSession`: the counter. -/
def startDebit (ctx : Caller) (clientPackageId : ℕ) (seen db : Db) : Result Db := do
  ctx.ensureBarbershopAccess .reception
  let pkg ← orRefuse
    ((seen.packages.get? clientPackageId).filter (·.barbershopId == ctx.shop.id))
    (.notFound "Pacote do cliente não encontrado")
  refuseIf (pkg.status ≠ .active) (.badRequest "Pacote não está ativo")
  refuseIf (∃ e ∈ pkg.expiresAt, e ≤ ctx.now) (.badRequest "Este pacote venceu.")
  let packages ← debitPackage clientPackageId ctx.now db.packages
  return { db with packages := packages }

/-- The second statement: the row of the use. -/
def recordDebit (userId clientPackageId : ℕ) (db : Db) : Db :=
  { db with packageUses := db.packageUses.insert (deskUse userId clientPackageId) }

/-- `debitClientPackageSession` with nothing in between. -/
def debitClientPackageSession (ctx : Caller) (clientPackageId : ℕ) (db : Db) : Result Db :=
  recordDebit ctx.userId clientPackageId <$> startDebit ctx clientPackageId db db

/-! ## Undoing -/

/-- The reads of `undoClientPackageUse`, in order. -/
inductive UndoRead where
  | use | package
  deriving DecidableEq, Repr

/-- The checks of `undoClientPackageUse`, and the use it found. -/
def checkUndo (ctx : Caller) (useId : ℕ) (reads : UndoRead → Db) : Result ClientPackageUse := do
  ctx.ensureBarbershopAccess .reception
  let use ← orRefuse (((reads .use).packageUses.get? useId).filter fun u =>
      ((reads .use).packages.get? u.clientPackageId).any (·.barbershopId == ctx.shop.id))
    (.notFound "Baixa não encontrada")
  refuseIf (use.undoneAt.isSome) (.badRequest "Esta baixa já foi desfeita.")
  refuseIf (use.saleId.isSome) (.badRequest
    "A baixa deste pacote está na venda. Apague a venda para desfazer.")
  refuseIf (∃ p ∈ (reads .package).packages.get? use.clientPackageId,
      p.status = .cancelled ∨ p.remainderRefundedAt.isSome)
    (.badRequest "Este pacote foi cancelado ou teve o restante devolvido: a sessão não volta.")
  return use

/-- The checks and the first statement of `undoClientPackageUse`: the counter. -/
def startUndo (ctx : Caller) (useId : ℕ) (reads : UndoRead → Db) (db : Db) : Result Db := do
  let use ← checkUndo ctx useId reads
  let packages ← orRefuse
    (db.packages.tryModify use.clientPackageId (·.restorable) (·.restore))
    (.badRequest "Pacote não tem sessões restantes")
  return { db with packages := packages }

/-- The second statement: the use is marked as undone, whatever it is by now. -/
def markUndone (now : ℤ) (userId useId : ℕ) (db : Db) : Db :=
  { db with packageUses := db.packageUses.modify useId (·.undo now userId) }

/-- `undoClientPackageUse` with nothing in between. -/
def undoClientPackageUse (ctx : Caller) (useId : ℕ) (db : Db) : Result Db :=
  markUndone ctx.now ctx.userId useId <$> startUndo ctx useId (fun _ => db) db

theorem startDebit_ok {ctx : Caller} {clientPackageId : ℕ} {seen db db' : Db}
    (h : startDebit ctx clientPackageId seen db = .ok db') :
    ∃ packages, debitPackage clientPackageId ctx.now db.packages = .ok packages ∧
      db' = { db with packages := packages } := by
  simp only [startDebit, bind_eq_ok, exists_punit, pure_eq_ok] at h
  obtain ⟨-, _, -, -, -, packages, hp, rfl⟩ := h
  exact ⟨packages, hp, rfl⟩

theorem checkUndo_ok {ctx : Caller} {useId : ℕ} {reads : UndoRead → Db} {use : ClientPackageUse}
    (h : checkUndo ctx useId reads = .ok use) :
    (reads .use).packageUses.get? useId = some use ∧ use.undoneAt = none ∧ use.saleId = none := by
  simp only [checkUndo, bind_eq_ok, exists_punit, orRefuse_eq_ok, refuseIf_eq_ok, pure_eq_ok,
    Option.filter_eq_some_iff] at h
  obtain ⟨-, u, ⟨hu, -⟩, hundone, hsale, -, rfl⟩ := h
  exact ⟨hu, by simpa using hundone, by simpa using hsale⟩

theorem startUndo_ok {ctx : Caller} {useId : ℕ} {reads : UndoRead → Db} {db db' : Db}
    (h : startUndo ctx useId reads db = .ok db') :
    ∃ use packages, checkUndo ctx useId reads = .ok use ∧
      db.packages.tryModify use.clientPackageId (·.restorable) (·.restore) = some packages ∧
      db' = { db with packages := packages } := by
  simp only [startUndo, bind_eq_ok, orRefuse_eq_ok, pure_eq_ok] at h
  obtain ⟨use, hcheck, packages, hp, rfl⟩ := h
  exact ⟨use, packages, hcheck, hp, rfl⟩

end Barbershop
