import BusinessApproval.Lib.Concurrent
import Mathlib.Data.List.Chain
import Mathlib.Order.Lattice.Nat

/-!
# Programs and runs that come to an end

A program that performs at most so many operations, whatever they answer, has a `depth`,
and every operation it performs brings it nearer to its end. A relation whose steps lower
a measure has no long runs, and from everywhere a run to where it can go no further.
-/

namespace Prog

variable {Op : Type} {Res : Op → Type} {α : Type}

/-- The program performs at most so many operations. -/
def Within : Nat → Prog Res α → Prop
  | _, ret _ => True
  | 0, call _ _ => False
  | n + 1, call _ k => ∀ r, Within n (k r)

/-- The most operations the program performs. -/
noncomputable def depth (p : Prog Res α) : Nat := sInf {n | p.Within n}

theorem Within.mono {p : Prog Res α} {n m : Nat} (h : p.Within n) (hle : n ≤ m) :
    p.Within m := by
  induction p generalizing n m with
  | ret a => cases m <;> trivial
  | call o k ih =>
      cases n with
      | zero => exact h.elim
      | succ n =>
          cases m with
          | zero => omega
          | succ m => exact fun r => ih r (h r) (by omega)

theorem Within.bounded {p : Prog Res α} {n : Nat} (h : p.Within n) : p.Within p.depth :=
  Nat.sInf_mem (s := {n | p.Within n}) ⟨n, h⟩

theorem Within.depth_le {p : Prog Res α} {n : Nat} (h : p.Within n) : p.depth ≤ n :=
  Nat.sInf_le h

/-- What comes after an operation is less deep. -/
theorem Within.depth_lt {o : Op} {k : Res o → Prog Res α} {n : Nat}
    (h : (call o k).Within n) (r : Res o) : (k r).depth < (call o k).depth := by
  have hd := h.bounded
  generalize (call o k).depth = d at hd
  cases d with
  | zero => exact hd.elim
  | succ d => exact Nat.lt_succ_of_le (Within.depth_le (hd r))

theorem Within.next {o : Op} {k : Res o → Prog Res α} {n : Nat} (h : (call o k).Within n)
    (r : Res o) : (k r).Within n := by
  cases n with
  | zero => exact h.elim
  | succ n => exact (h r).mono (Nat.le_succ n)

end Prog

namespace Concurrent

/-! ## Clients -/

section Clients

variable {Op : Type} {Res : Op → Type} {ι α σ : Type}

/-- A client that is under way has at most so many operations left. -/
def Status.Within (n : Nat) : Status Res ι α → Prop
  | idle => True
  | running _ rest => rest.Within n
  | finished _ _ => True

/-- No client has more left than the programs of all calls have. -/
theorem Reachable.within {M : Machine Res σ} {body : ι → Prog Res α} {s₀ : σ} {n : Nat}
    (hbody : ∀ call, (body call).Within n) {w : World Res ι α σ} (h : Reachable M body s₀ w) :
    ∀ t, (w.clients t).Within n := by
  refine Reachable.inv (I := fun w => ∀ t, (w.clients t).Within n) (fun t => trivial)
    (fun w w' _ ih hstep => ?_) h
  cases hstep with
  | invoke u call hidle =>
      exact (Function.forall_update_iff w.clients _).mpr ⟨hbody call, fun t _ => ih t⟩
  | @answer u call o k r s hrunning hs =>
      have hwithin := ih u
      rw [hrunning] at hwithin
      exact (Function.forall_update_iff w.clients _).mpr
        ⟨Prog.Within.next hwithin r, fun t _ => ih t⟩
  | work => exact ih
  | move => exact ih
  | respond hrunning =>
      exact (Function.forall_update_iff w.clients _).mpr ⟨trivial, fun t _ => ih t⟩

end Clients

/-- The client that has been called, when that is what the event is. -/
def Event.called {ι α : Type} : Event ι α → Option Nat
  | invoked t _ => some t
  | responded .. => none

/-! ## Runs -/

section Runs

variable {σ : Type} {R : σ → σ → Prop} {I : σ → Prop} {m : σ → Nat}

/-- A run is no longer than what it has to lower. -/
theorem length_le_of_lowers (hstep : ∀ x y, I x → R x y → I y ∧ m y < m x) {x : σ} (hx : I x)
    {xs : List σ} (h : List.IsChain R (x :: xs)) : xs.length ≤ m x := by
  induction xs generalizing x with
  | nil => exact Nat.zero_le _
  | cons y xs ih =>
      obtain ⟨hxy, hrest⟩ := List.isChain_cons_cons.mp h
      obtain ⟨hy, hlt⟩ := hstep x y hx hxy
      have := ih hy hrest
      simp only [List.length_cons]
      omega

/-- From everywhere some run leads to where it can go no further. -/
theorem exists_rest (hstep : ∀ x y, I x → R x y → I y ∧ m y < m x) {x : σ} (hx : I x) :
    ∃ y, Relation.ReflTransGen R x y ∧ ∀ z, ¬ R y z := by
  induction hn : m x using Nat.strong_induction_on generalizing x with
  | h n ih =>
      by_cases hrest : ∃ y, R x y
      · obtain ⟨y, hxy⟩ := hrest
        obtain ⟨hy, hlt⟩ := hstep x y hx hxy
        obtain ⟨z, hyz, hz⟩ := ih (m y) (hn ▸ hlt) hy rfl
        exact ⟨z, .head hxy hyz, hz⟩
      · exact ⟨x, .refl, fun z hz => hrest ⟨z, hz⟩⟩

end Runs

end Concurrent
