import Barbershop.Lib.Machine

/-!
# Handlers that may stop between their writes

A `Handler` answers a request by a list of writes, planned from the state in which it starts. Each
write is committed on its own, so a handling that fails leaves the writes before the failure, and
the request is delivered again. `Handler.deliveries` is the machine of such deliveries.

What every write keeps, a delivery keeps wherever it stops (`execAll_inv`, `execAll_rel`). What one
write establishes and the others keep holds after every delivery that gets as far as that write
(`execAll_of_mem`).
-/

namespace Lib

universe u v w

/-- `δ` are the requests as they are delivered, `ω` the writes. -/
structure Handler (σ : Type u) (δ : Type v) (ω : Type w) where
  writes : δ → σ → List ω
  exec : ω → σ → σ

namespace Handler

variable {σ : Type u} {δ : Type v} {ω : Type w} (h : Handler σ δ ω)

def execAll (ws : List ω) (s : σ) : σ := ws.foldl (fun s x => h.exec x s) s

/-- The writes of a delivery that stops after `stop` of them; `none` does not stop. -/
def done (d : δ) (stop : Option ℕ) (s : σ) : List ω :=
  match stop with
  | none => h.writes d s
  | some n => (h.writes d s).take n

def handle (d : δ) (stop : Option ℕ) (s : σ) : σ := h.execAll (h.done d stop s) s

/-- Deliveries one after another, each with where it stops. -/
def deliveries : Machine σ (δ × Option ℕ) where
  step s a := some (h.handle a.1 a.2 s)

@[simp] theorem execAll_nil (s : σ) : h.execAll [] s = s := rfl

@[simp] theorem execAll_cons (x : ω) (ws : List ω) (s : σ) :
    h.execAll (x :: ws) s = h.execAll ws (h.exec x s) := rfl

@[simp] theorem done_none (d : δ) (s : σ) : h.done d none s = h.writes d s := rfl

variable {h}

theorem mem_writes {d : δ} {stop : Option ℕ} {s : σ} {x : ω} (hx : x ∈ h.done d stop s) :
    x ∈ h.writes d s := by
  cases stop with
  | none => exact hx
  | some n => exact List.mem_of_mem_take hx

theorem execAll_rel {R : σ → σ → Prop} (hrefl : ∀ s, R s s)
    (htrans : ∀ {s₁ s₂ s₃}, R s₁ s₂ → R s₂ s₃ → R s₁ s₃) {ws : List ω}
    (hexec : ∀ x ∈ ws, ∀ s, R s (h.exec x s)) (s : σ) : R s (h.execAll ws s) := by
  induction ws generalizing s with
  | nil => exact hrefl s
  | cons x ws ih =>
    have hrest := ih (fun y hy => hexec y (List.mem_cons_of_mem _ hy)) (h.exec x s)
    exact htrans (hexec x List.mem_cons_self s) hrest

theorem execAll_inv {I : σ → Prop} {ws : List ω} (hexec : ∀ x ∈ ws, ∀ s, I s → I (h.exec x s))
    {s : σ} (hI : I s) : I (h.execAll ws s) :=
  execAll_rel (R := fun s s' => I s → I s') (fun _ => id) (fun h₁ h₂ hs => h₂ (h₁ hs)) hexec s hI

/-- `I` is kept by every write; `Q` is established by one of them and kept by all. -/
theorem execAll_of_mem {I Q : σ → Prop} {ws : List ω} {x : ω} (hx : x ∈ ws)
    (hI : ∀ y ∈ ws, ∀ s, I s → I (h.exec y s)) (hQ : ∀ s, I s → Q (h.exec x s))
    (hkeep : ∀ y ∈ ws, ∀ s, I s → Q s → Q (h.exec y s)) {s : σ} (hs : I s) :
    Q (h.execAll ws s) := by
  obtain ⟨before, after, rfl⟩ := List.append_of_mem hx
  have hbefore : I (h.execAll before s) :=
    execAll_inv (fun y hy => hI y (List.mem_append_left _ hy)) hs
  have hafter : ∀ y ∈ after, y ∈ before ++ x :: after := fun y hy =>
    List.mem_append_right _ (List.mem_cons_of_mem _ hy)
  have hrest : I (h.execAll after (h.exec x (h.execAll before s))) ∧
      Q (h.execAll after (h.exec x (h.execAll before s))) := by
    refine execAll_inv (I := fun s => I s ∧ Q s) (fun y hy s hs => ?_)
      ⟨hI x hx _ hbefore, hQ _ hbefore⟩
    exact ⟨hI y (hafter y hy) s hs.1, hkeep y (hafter y hy) s hs.1 hs.2⟩
  have hsplit : h.execAll (before ++ x :: after) s =
      h.execAll after (h.exec x (h.execAll before s)) := by
    unfold execAll
    rw [List.foldl_append, List.foldl_cons]
  rw [hsplit]
  exact hrest.2

/-- Some delivery of the request got to its end. -/
def Handled (P : δ → Prop) (as : List (δ × Option ℕ)) : Prop := ∃ a ∈ as, P a.1 ∧ a.2 = none

end Handler

end Lib
