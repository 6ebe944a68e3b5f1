import BusinessApproval.Lib.Concurrent

/-!
# A shared clock

A machine together with a clock that never goes back. It stands still while an operation is
answered, and may move on between any two steps. Which answers agree with what it shows is a
parameter. Every answer is on record with the time it was given at, the newest first.

A timed world forgets its clock to a world of the machine as it was (`Reachable.forget`), so
what holds whatever the clocks show is there for the timed worlds too.
-/

namespace Concurrent

variable {Op : Type} {Res : Op → Type} {ι α σ : Type}

/-- An operation of a client was answered at a time. -/
structure Observation (Op : Type) where
  client : Nat
  op : Op
  time : Int

structure Timed (Op σ : Type) where
  state : σ
  clock : Int
  observations : List (Observation Op)

namespace Timed

/-- An operation has been answered, and the state is a new one. -/
def answered (c : Timed Op σ) (t : Nat) (o : Op) (s : σ) : Timed Op σ :=
  ⟨s, c.clock, ⟨t, o, c.clock⟩ :: c.observations⟩

/-- The state has changed, and nothing else. -/
def withState (c : Timed Op σ) (s : σ) : Timed Op σ := { c with state := s }

/-- The first of two observations was made before the second one. -/
def Before (c : Timed Op σ) (r r' : Observation Op) : Prop :=
  ∃ older, r' :: older <:+ c.observations ∧ r ∈ older

end Timed

namespace Machine

/-- What happens besides the operations: the machine moves, or the clock goes on. -/
inductive TimedMoves (M : Machine Res σ) (c : Timed Op σ) : Timed Op σ → Prop
  | move {s : σ} (h : M.moves c.state s) : TimedMoves M c (c.withState s)
  | tick {clock : Int} (h : c.clock ≤ clock) : TimedMoves M c { c with clock := clock }

/-- The machine with a clock; `shows` says which answers agree with the time. -/
def timed (M : Machine Res σ) (shows : Nat → Int → (o : Op) → Res o → σ → Prop) :
    Machine Res (Timed Op σ) where
  answers t o c r c' :=
    ∃ s, M.answers t o c.state r s ∧ shows t c.clock o r s ∧ c' = c.answered t o s
  works t o c c' := ∃ s, M.works t o c.state s ∧ c' = c.withState s
  moves c c' := M.TimedMoves c c'

end Machine

variable {M : Machine Res σ} {shows : Nat → Int → (o : Op) → Res o → σ → Prop}
  {body : ι → Prog Res α}

/-! ## Without the clock -/

/-- The world without the clock and the observations. -/
def World.forget (w : World Res ι α (Timed Op σ)) : World Res ι α σ :=
  ⟨w.shared.state, w.clients, w.history⟩

/-- A timed step is a step of the machine, or leaves everything but the clock as it is. -/
theorem Step.forget {w w' : World Res ι α (Timed Op σ)}
    (h : Step (M.timed shows) body w w') :
    Step M body w.forget w'.forget ∨ w'.forget = w.forget := by
  cases h with
  | invoke t call hidle => exact Or.inl (.invoke t call hidle)
  | answer hrunning hs =>
      obtain ⟨s, hs, -, rfl⟩ := hs
      exact Or.inl (.answer hrunning hs)
  | work hrunning hs =>
      obtain ⟨s, hs, rfl⟩ := hs
      exact Or.inl (.work hrunning hs)
  | move hs =>
      cases hs with
      | move hs => exact Or.inl (.move hs)
      | tick hclock => exact Or.inr rfl
  | respond hrunning => exact Or.inl (.respond hrunning)

theorem Reachable.forget {c₀ : Timed Op σ} {w : World Res ι α (Timed Op σ)}
    (h : Reachable (M.timed shows) body c₀ w) : Reachable M body c₀.state w.forget := by
  induction h with
  | initial => exact .initial
  | step h hstep ih =>
      rcases hstep.forget with hs | heq
      · exact ih.step hs
      · rw [heq]
        exact ih

/-! ## The order of the observations -/

/-- The observations come in the order of their times, and none is of the future. -/
structure Timed.Ordered (c : Timed Op σ) : Prop where
  past : ∀ r ∈ c.observations, r.time ≤ c.clock
  sorted : c.observations.Pairwise fun newer older => older.time ≤ newer.time

theorem Timed.ordered_nil (s : σ) (clock : Int) : (⟨s, clock, []⟩ : Timed Op σ).Ordered :=
  ⟨List.forall_mem_nil _, List.Pairwise.nil⟩

theorem Timed.Ordered.answered {c : Timed Op σ} (h : c.Ordered) (t : Nat) (o : Op) (s : σ) :
    (c.answered t o s).Ordered where
  past := List.forall_mem_cons.mpr ⟨Int.le_refl _, h.past⟩
  sorted := List.pairwise_cons.mpr ⟨h.past, h.sorted⟩

/-- **The clock never goes back**: of two observations the earlier one has the earlier time. -/
theorem Timed.Ordered.le_of_before {c : Timed Op σ} (h : c.Ordered) {r r' : Observation Op}
    (hbefore : c.Before r r') : r.time ≤ r'.time := by
  obtain ⟨older, hsuffix, hr⟩ := hbefore
  have hsorted := h.sorted.sublist hsuffix.sublist
  exact (List.pairwise_cons.mp hsorted).1 r hr

/-- What answers, work and moves keep of the state and the observations, and the clock too. -/
theorem Reachable.timed {P : Timed Op σ → Prop} {s₀ : σ} {clock : Int}
    (hinit : P ⟨s₀, clock, []⟩)
    (hanswer : ∀ {t o c r s}, M.answers t o c.state r s → shows t c.clock o r s → P c →
      P (c.answered t o s))
    (hwork : ∀ {t o c s}, M.works t o c.state s → P c → P (c.withState s))
    (hmove : ∀ {c s}, M.moves c.state s → P c → P (c.withState s))
    (htick : ∀ {c : Timed Op σ} {clock}, c.clock ≤ clock → P c → P { c with clock := clock })
    {w : World Res ι α (Timed Op σ)} (h : Reachable (M.timed shows) body ⟨s₀, clock, []⟩ w) :
    P w.shared := by
  refine h.inv (I := fun w => P w.shared) hinit fun w w' _ hP hstep => ?_
  cases hstep with
  | invoke => exact hP
  | answer hrunning hs =>
      obtain ⟨s, hs, hshows, rfl⟩ := hs
      exact hanswer hs hshows hP
  | work hrunning hs =>
      obtain ⟨s, hs, rfl⟩ := hs
      exact hwork hs hP
  | move hs =>
      cases hs with
      | move hs => exact hmove hs hP
      | tick hclock => exact htick hclock hP
  | respond => exact hP

theorem Reachable.ordered {s₀ : σ} {clock : Int} {w : World Res ι α (Timed Op σ)}
    (h : Reachable (M.timed shows) body ⟨s₀, clock, []⟩ w) : w.shared.Ordered :=
  h.timed (Timed.ordered_nil s₀ clock) (fun _ _ hc => hc.answered _ _ _)
    (fun _ hc => ⟨hc.past, hc.sorted⟩) (fun _ hc => ⟨hc.past, hc.sorted⟩)
    fun hclock hc => ⟨fun r hr => Int.le_trans (hc.past r hr) hclock, hc.sorted⟩

end Concurrent
