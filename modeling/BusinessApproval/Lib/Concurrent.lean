import BusinessApproval.Lib.Prog
import Mathlib.Logic.Function.Basic
import Mathlib.Logic.Relation

/-!
# Programs running side by side

Any number of clients, each running one program, over one machine. At every step
some client is called, gets an answer to its operation, or returns; or the machine
works on an operation that has no answer yet, or moves by itself. Which of these
happens is left open, so what holds of every reachable world holds of every
interleaving.

The history records when calls begin and end, newest first.
-/

namespace Concurrent

variable {Op : Type} {Res : Op → Type} {ι α σ : Type}

/-- What stands behind the operations of the clients. -/
structure Machine (Res : Op → Type) (σ : Type) where
  /-- An operation of a client is done, with an answer. -/
  answers : Nat → (o : Op) → σ → Res o → σ → Prop
  /-- An operation of a client gets on, but is not done. -/
  works : Nat → Op → σ → σ → Prop
  /-- Something happens that is no client's operation. -/
  moves : σ → σ → Prop

inductive Status (Res : Op → Type) (ι α : Type) where
  | idle
  | running (call : ι) (rest : Prog Res α)
  | finished (call : ι) (answer : α)

/-- The call a client has been given. -/
def Status.call : Status Res ι α → Option ι
  | idle => none
  | running call _ => some call
  | finished call _ => some call

@[simp] theorem Status.call_idle : (idle : Status Res ι α).call = none := rfl

@[simp] theorem Status.call_running (call : ι) (rest : Prog Res α) :
    (running call rest).call = some call := rfl

@[simp] theorem Status.call_finished (call : ι) (answer : α) :
    (finished call answer : Status Res ι α).call = some call := rfl

/-- The calls of the clients when the status of one has changed. -/
theorem call_update (clients : Nat → Status Res ι α) (t : Nat) (status : Status Res ι α) :
    (fun u => (Function.update clients t status u).call)
      = Function.update (fun u => (clients u).call) t status.call :=
  funext fun u => Function.apply_update (fun _ => Status.call) clients t status u

theorem call_update_same {clients : Nat → Status Res ι α} {t : Nat} {status : Status Res ι α}
    (h : status.call = (clients t).call) :
    (fun u => (Function.update clients t status u).call) = fun u => (clients u).call := by
  rw [call_update, h]
  exact Function.update_eq_self t _

inductive Event (ι α : Type) where
  | invoked (client : Nat) (call : ι)
  | responded (client : Nat) (call : ι) (answer : α)

structure World (Res : Op → Type) (ι α σ : Type) where
  shared : σ
  clients : Nat → Status Res ι α
  history : List (Event ι α)

/-- Nobody has been called yet. -/
def World.initial (s : σ) : World Res ι α σ := ⟨s, fun _ => .idle, []⟩

section Steps

variable (M : Machine Res σ) (body : ι → Prog Res α)

inductive Step (w : World Res ι α σ) : World Res ι α σ → Prop
  | invoke (t : Nat) (call : ι) (h : w.clients t = .idle) :
      Step w {
        shared := w.shared
        clients := Function.update w.clients t (.running call (body call))
        history := .invoked t call :: w.history }
  | answer {t : Nat} {call : ι} {o : Op} {k : Res o → Prog Res α} {r : Res o} {s : σ}
      (h : w.clients t = .running call (.call o k)) (hs : M.answers t o w.shared r s) :
      Step w {
        shared := s
        clients := Function.update w.clients t (.running call (k r))
        history := w.history }
  | work {t : Nat} {call : ι} {o : Op} {k : Res o → Prog Res α} {s : σ}
      (h : w.clients t = .running call (.call o k)) (hs : M.works t o w.shared s) :
      Step w { shared := s, clients := w.clients, history := w.history }
  | move {s : σ} (hs : M.moves w.shared s) :
      Step w { shared := s, clients := w.clients, history := w.history }
  | respond {t : Nat} {call : ι} {a : α} (h : w.clients t = .running call (.ret a)) :
      Step w {
        shared := w.shared
        clients := Function.update w.clients t (.finished call a)
        history := .responded t call a :: w.history }

/-- The worlds that some interleaving leads to from `s₀`. -/
inductive Reachable (s₀ : σ) : World Res ι α σ → Prop
  | initial : Reachable s₀ (.initial s₀)
  | step {w w' : World Res ι α σ} (h : Reachable s₀ w) (hstep : Step M body w w') :
      Reachable s₀ w'

/-- The worlds that come after a world, itself included. -/
abbrev Later : World Res ι α σ → World Res ι α σ → Prop := Relation.ReflTransGen (Step M body)

end Steps

/-! ## The history and the clients -/

/-- A client that has been called has its call in the history, and its answer when it has one. -/
structure World.Recorded (w : World Res ι α σ) : Prop where
  invoked : ∀ t call, .invoked t call ∈ w.history ↔ (w.clients t).call = some call
  responded : ∀ t call a, .responded t call a ∈ w.history ↔ w.clients t = .finished call a

theorem recorded_initial (s₀ : σ) : (World.initial s₀ : World Res ι α σ).Recorded :=
  ⟨fun t call => ⟨fun h => (by cases h), fun h => (by cases h)⟩,
    fun t call a => ⟨fun h => (by cases h), fun h => (by cases h)⟩⟩

theorem World.Recorded.step {M : Machine Res σ} {body : ι → Prog Res α}
    {w w' : World Res ι α σ} (hw : w.Recorded) (hstep : Step M body w w') : w'.Recorded := by
  cases hstep with
  | invoke t call h =>
      refine ⟨fun u c => ?_, fun u c a => ?_⟩
      · simp only [List.mem_cons, hw.invoked, Function.update_apply]
        by_cases hu : u = t
        · subst hu
          simp [h, eq_comm]
        · simp [hu]
      · simp only [List.mem_cons, hw.responded, Function.update_apply]
        by_cases hu : u = t
        · subst hu
          simp [h]
        · simp [hu]
  | @answer t call o k r s h hs =>
      refine ⟨fun u c => ?_, fun u c a => ?_⟩
      · simp only [hw.invoked, Function.update_apply]
        by_cases hu : u = t
        · subst hu
          simp [h]
        · simp [hu]
      · simp only [hw.responded, Function.update_apply]
        by_cases hu : u = t
        · subst hu
          simp [h]
        · simp [hu]
  | work h hs => exact ⟨hw.invoked, hw.responded⟩
  | move hs => exact ⟨hw.invoked, hw.responded⟩
  | @respond t call a h =>
      refine ⟨fun u c => ?_, fun u c b => ?_⟩
      · simp only [List.mem_cons, hw.invoked, Function.update_apply]
        by_cases hu : u = t
        · subst hu
          simp [h]
        · simp [hu]
      · simp only [List.mem_cons, hw.responded, Function.update_apply]
        by_cases hu : u = t
        · subst hu
          simp [h, eq_comm]
        · simp [hu]

theorem Reachable.recorded {M : Machine Res σ} {body : ι → Prog Res α} {s₀ : σ}
    {w : World Res ι α σ} (h : Reachable M body s₀ w) : w.Recorded := by
  induction h with
  | initial => exact recorded_initial s₀
  | step h hstep ih => exact ih.step hstep

/-- What one step keeps holds in every reachable world. -/
theorem Reachable.inv {M : Machine Res σ} {body : ι → Prog Res α} {s₀ : σ}
    {I : World Res ι α σ → Prop} (hinit : I (.initial s₀))
    (hstep : ∀ w w', w.Recorded → I w → Step M body w w' → I w') {w : World Res ι α σ}
    (h : Reachable M body s₀ w) : I w := by
  induction h with
  | initial => exact hinit
  | step h hs ih => exact hstep _ _ h.recorded ih hs

/-! ## Later worlds -/

section Later

variable {M : Machine Res σ} {body : ι → Prog Res α} {w w' : World Res ι α σ}

theorem Reachable.later {s₀ : σ} (h : Reachable M body s₀ w) (hlater : Later M body w w') :
    Reachable M body s₀ w' := by
  induction hlater with
  | refl => exact h
  | tail _ hstep ih => exact ih.step hstep

/-- A client keeps its call. -/
theorem Step.call (hstep : Step M body w w') {t : Nat} {call : ι}
    (h : (w.clients t).call = some call) : (w'.clients t).call = some call := by
  cases hstep with
  | @invoke u _ hidle =>
      simp only [Function.update_apply]
      by_cases ht : t = u
      · subst ht
        rw [hidle] at h
        cases h
      · simp [ht, h]
  | @answer u _ _ _ _ _ hrunning =>
      simp only [Function.update_apply]
      by_cases ht : t = u
      · subst ht
        rw [hrunning] at h
        simpa using h
      · simp [ht, h]
  | work => exact h
  | move => exact h
  | @respond u _ _ hrunning =>
      simp only [Function.update_apply]
      by_cases ht : t = u
      · subst ht
        rw [hrunning] at h
        simpa using h
      · simp [ht, h]

theorem Later.call (hlater : Later M body w w') {t : Nat} {call : ι}
    (h : (w.clients t).call = some call) : (w'.clients t).call = some call := by
  induction hlater with
  | refl => exact h
  | tail _ hstep ih => exact hstep.call ih

/-- What is on a record that every step only adds to stays there. -/
theorem Later.mem {ε : Type} (record : σ → List ε)
    (hstep : ∀ w w', Step M body w w' → record w.shared ⊆ record w'.shared)
    (hlater : Later M body w w') : record w.shared ⊆ record w'.shared := by
  induction hlater with
  | refl => exact List.Subset.refl _
  | tail _ hs ih => exact List.Subset.trans ih (hstep _ _ hs)

end Later

end Concurrent
