import Barbershop.Lib.Guard
import Barbershop.Model.Db

/-!
# Slots of the agenda

Which appointments take their slot, and the two checks a booking makes before it writes one: the
person who attends is free (`ensureBarberAvailable`), in all units where that person works, and the
chair or room is (`ensureResourceAvailable`).
-/

namespace Barbershop

open Lib

/-- Does an appointment in this state take its slot? Cancellations and no-shows do not. -/
def AppointmentStatus.occupies : AppointmentStatus → Bool
  | .cancelled | .noShow => false
  | _ => true

/-- The appointment takes part of the time between the two instants. -/
def Appointment.takes (a : Appointment) (startAt endAt : ℤ) : Bool :=
  a.status.occupies && decide (a.startAt < endAt) && decide (startAt < a.endAt)

/-- `withinEngagement` -/
def Barber.withinEngagement (b : Barber) (startAt : ℤ) : Bool :=
  b.accessStartsAt.all (fun t => decide (t ≤ startAt)) &&
    b.accessEndsAt.all fun t => decide (startAt ≤ t)

/-- The rows of one person in all units: by professional, else by account, else the row alone. -/
def samePersonBarberIds (cat : Catalog) (barberId : ℕ) (person : Option Barber) : List ℕ :=
  match person.bind (·.professionalId), person.bind (·.userId) with
  | some p, _ => (barberId :: (cat.barbers.filter fun _ b => b.professionalId == some p).map
      (·.1)).eraseDups
  | none, some u => (barberId :: (cat.barbers.filter fun _ b => b.userId == some u).map
      (·.1)).eraseDups
  | none, none => [barberId]

def ensureBarberAvailable (cat : Catalog) (shop barberId : ℕ) (startAt endAt : ℤ)
    (exclude : Option ℕ) (db : Db) : Result Unit := do
  let barber := (cat.barbers.get? barberId).filter (·.barbershopId == shop)
  refuseIf (∃ b ∈ barber, b.withinEngagement startAt = false)
    (.badRequest "Esse horário está fora do período deste profissional na unidade")
  let barberIds := samePersonBarberIds cat barberId barber
  match db.appointments.find? fun id a =>
      barberIds.contains a.barberId && exclude != some id && a.takes startAt endAt with
  | none => return ()
  | some (_, conflict) => .error (.badRequest (if conflict.barbershopId = shop then
      "Este profissional já tem um agendamento nesse horário"
    else "Este profissional já está ocupado em outra unidade nesse horário"))

def ensureResourceAvailable (shop resourceId : ℕ) (startAt endAt : ℤ) (exclude : Option ℕ)
    (db : Db) : Result Unit :=
  refuseIf (db.appointments.any (fun id a => a.barbershopId == shop &&
      a.resourceId == some resourceId && exclude != some id && a.takes startAt endAt) = true)
    (.badRequest "Recurso já reservado nesse horário")

end Barbershop
