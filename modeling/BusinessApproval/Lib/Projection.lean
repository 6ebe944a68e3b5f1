import BusinessApproval.Lib.Concurrent

/-!
# Clients of two kinds

A machine serves clients of two kinds, each with operations of its own. When a smaller
machine serves the second kind as well, and what the first kind does leaves it in the state
it is in, then there is an interleaving of the smaller machine in every interleaving of the
larger one: that of the clients of the second kind.
-/

namespace Prog

variable {Op₁ Op₂ : Type} {Res₁ : Op₁ → Type} {Res₂ : Op₂ → Type} {α β : Type}

/-- A program over the first of two signatures. -/
def onLeft (f : α → β) : Prog Res₁ α → Prog (Sum.elim Res₁ Res₂) β
  | ret a => ret (f a)
  | call o k => call (.inl o) fun r => onLeft f (k r)

/-- A program over the second. -/
def onRight (f : α → β) : Prog Res₂ α → Prog (Sum.elim Res₁ Res₂) β
  | ret a => ret (f a)
  | call o k => call (.inr o) fun r => onRight f (k r)

end Prog

namespace Concurrent

variable {Op₁ Op₂ : Type} {Res₁ : Op₁ → Type} {Res₂ : Op₂ → Type} {ι₁ ι₂ α₁ α₂ σ τ : Type}

/-- The clients of both kinds. -/
def both (body₁ : ι₁ → Prog Res₁ α₁) (body₂ : ι₂ → Prog Res₂ α₂) :
    ι₁ ⊕ ι₂ → Prog (Sum.elim Res₁ Res₂) (α₁ ⊕ α₂)
  | .inl i => (body₁ i).onLeft .inl
  | .inr i => (body₂ i).onRight .inr

/-- An event of the second kind of clients. -/
def Event.second : Event (ι₁ ⊕ ι₂) (α₁ ⊕ α₂) → Option (Event ι₂ α₂)
  | .invoked t (.inr i) => some (.invoked t i)
  | .responded t (.inr i) (.inr a) => some (.responded t i a)
  | _ => none

/-- A client, and what is left of it when the first kind is hidden. -/
inductive Shows (P : Op₁ → Prop) :
    Status (Sum.elim Res₁ Res₂) (ι₁ ⊕ ι₂) (α₁ ⊕ α₂) → Status Res₂ ι₂ α₂ → Prop
  | idle : Shows P .idle .idle
  | hidden (i : ι₁) {p : Prog Res₁ α₁} (hp : p.Emits P fun _ _ => True) :
      Shows P (.running (.inl i) (p.onLeft .inl)) .idle
  | ended (i : ι₁) (a : α₁) : Shows P (.finished (.inl i) (.inl a)) .idle
  | running (i : ι₂) (p : Prog Res₂ α₂) :
      Shows P (.running (.inr i) (p.onRight .inr)) (.running i p)
  | finished (i : ι₂) (a : α₂) : Shows P (.finished (.inr i) (.inr a)) (.finished i a)

/-- A world of both kinds of clients, and what is left of it when the first kind is hidden. -/
structure Projects (P : Op₁ → Prop) (R : σ → τ → Prop)
    (w : World (Sum.elim Res₁ Res₂) (ι₁ ⊕ ι₂) (α₁ ⊕ α₂) σ) (v : World Res₂ ι₂ α₂ τ) : Prop where
  shared : R w.shared v.shared
  clients : ∀ t, Shows P (w.clients t) (v.clients t)
  history : v.history = w.history.filterMap Event.second

/-- The smaller machine does for the second kind of clients what the larger one does, and does
not see what the larger one does for the first kind, if it asks only for what it may. -/
structure Hides (M : Machine (Sum.elim Res₁ Res₂) σ) (N : Machine Res₂ τ) (P : Op₁ → Prop)
    (R : σ → τ → Prop) : Prop where
  hidden : ∀ {t o s r s' u}, P o → M.answers t (.inl o) s r s' → R s u → R s' u
  hiddenWorks : ∀ {t o s s' u}, P o → M.works t (.inl o) s s' → R s u → R s' u
  answers : ∀ {t o s r s' u}, M.answers t (.inr o) s r s' → R s u →
    ∃ u', N.answers t o u r u' ∧ R s' u'
  works : ∀ {t o s s' u}, M.works t (.inr o) s s' → R s u → ∃ u', N.works t o u u' ∧ R s' u'
  moves : ∀ {s s' u}, M.moves s s' → R s u → ∃ u', N.moves u u' ∧ R s' u'

section Steps

variable {M : Machine (Sum.elim Res₁ Res₂) σ} {N : Machine Res₂ τ} {P : Op₁ → Prop}
  {R : σ → τ → Prop} {body₁ : ι₁ → Prog Res₁ α₁} {body₂ : ι₂ → Prog Res₂ α₂}
  {w w' : World (Sum.elim Res₁ Res₂) (ι₁ ⊕ ι₂) (α₁ ⊕ α₂) σ} {v : World Res₂ ι₂ α₂ τ}

/-- The clients when one of them has changed on both sides. -/
theorem Projects.update (h : Projects P R w v) {t : Nat}
    {status : Status (Sum.elim Res₁ Res₂) (ι₁ ⊕ ι₂) (α₁ ⊕ α₂)} {status' : Status Res₂ ι₂ α₂}
    (hshows : Shows P status status') (u : Nat) :
    Shows P (Function.update w.clients t status u) (Function.update v.clients t status' u) := by
  by_cases hu : u = t
  · subst hu
    rw [Function.update_self, Function.update_self]
    exact hshows
  · rw [Function.update_of_ne hu, Function.update_of_ne hu]
    exact h.clients u

/-- The clients when a hidden one has changed. -/
theorem Projects.update_hidden (h : Projects P R w v) {t : Nat} (ht : v.clients t = .idle)
    {status : Status (Sum.elim Res₁ Res₂) (ι₁ ⊕ ι₂) (α₁ ⊕ α₂)} (hshows : Shows P status .idle)
    (u : Nat) : Shows P (Function.update w.clients t status u) (v.clients u) := by
  have hupdate := h.update (t := t) hshows u
  rwa [← ht, Function.update_eq_self] at hupdate

/-- **A step of both kinds of clients** is a step of the second kind, or hidden. -/
theorem Projects.step (hM : Hides M N P R) (hbody : ∀ i, (body₁ i).Emits P fun _ _ => True)
    (h : Projects P R w v) (hstep : Step M (both body₁ body₂) w w') :
    ∃ v', (v' = v ∨ Step N body₂ v v') ∧ Projects P R w' v' := by
  cases hstep with
  | invoke t call hidle =>
      have hclient := h.clients t
      rw [hidle] at hclient
      generalize hv : v.clients t = status at hclient
      cases hclient with
      | idle =>
          cases call with
          | inl i =>
              exact ⟨v, Or.inl rfl, h.shared, h.update_hidden hv (.hidden i (hbody i)), h.history⟩
          | inr i =>
              exact ⟨_, Or.inr (.invoke t i hv), h.shared, h.update (.running i (body₂ i)),
                congrArg (List.cons _) h.history⟩
  | @answer t call o k r s hrunning hs =>
      have hclient := h.clients t
      rw [hrunning] at hclient
      generalize hv : v.clients t = status at hclient
      generalize hp : Prog.call o k = p at hclient
      cases hclient with
      | @hidden i q hq =>
          cases q with
          | ret a => cases hp
          | call o₁ k₁ =>
              cases hp
              exact ⟨v, Or.inl rfl, hM.hidden hq.1 hs h.shared,
                h.update_hidden hv (.hidden i (hq.2 r trivial)), h.history⟩
      | running i q =>
          cases q with
          | ret a => cases hp
          | call o₂ k₂ =>
              cases hp
              obtain ⟨u, hu, hR⟩ := hM.answers hs h.shared
              exact ⟨_, Or.inr (.answer hv hu), hR, h.update (.running i (k₂ r)), h.history⟩
  | @work t call o k s hrunning hs =>
      have hclient := h.clients t
      rw [hrunning] at hclient
      generalize hv : v.clients t = status at hclient
      generalize hp : Prog.call o k = p at hclient
      cases hclient with
      | @hidden i q hq =>
          cases q with
          | ret a => cases hp
          | call o₁ k₁ =>
              cases hp
              exact ⟨v, Or.inl rfl, hM.hiddenWorks hq.1 hs h.shared, h.clients, h.history⟩
      | running i q =>
          cases q with
          | ret a => cases hp
          | call o₂ k₂ =>
              cases hp
              obtain ⟨u, hu, hR⟩ := hM.works hs h.shared
              exact ⟨_, Or.inr (.work hv hu), hR, h.clients, h.history⟩
  | move hs =>
      obtain ⟨u, hu, hR⟩ := hM.moves hs h.shared
      exact ⟨_, Or.inr (.move hu), hR, h.clients, h.history⟩
  | @respond t call a hrunning =>
      have hclient := h.clients t
      rw [hrunning] at hclient
      generalize hv : v.clients t = status at hclient
      generalize hp : Prog.ret a = p at hclient
      cases hclient with
      | @hidden i q hq =>
          cases q with
          | call o₁ k₁ => cases hp
          | ret a₁ =>
              cases hp
              exact ⟨v, Or.inl rfl, h.shared, h.update_hidden hv (.ended i a₁), h.history⟩
      | running i q =>
          cases q with
          | call o₂ k₂ => cases hp
          | ret a₂ =>
              cases hp
              exact ⟨_, Or.inr (.respond hv), h.shared, h.update (.finished i a₂),
                congrArg (List.cons _) h.history⟩

/-- **An interleaving of both kinds of clients is one of the second kind**, with the rest hidden. -/
theorem Reachable.projects (hM : Hides M N P R) (hbody : ∀ i, (body₁ i).Emits P fun _ _ => True)
    {s₀ : σ} {t₀ : τ} (hR : R s₀ t₀) (h : Reachable M (both body₁ body₂) s₀ w) :
    ∃ v, Reachable N body₂ t₀ v ∧ Projects P R w v := by
  induction h with
  | initial => exact ⟨_, .initial, hR, fun _ => .idle, rfl⟩
  | step _ hstep ih =>
      obtain ⟨v, hv, hprojects⟩ := ih
      obtain ⟨v', hnext, hprojects'⟩ := hprojects.step hM hbody hstep
      rcases hnext with rfl | hnext
      · exact ⟨v', hv, hprojects'⟩
      · exact ⟨v', hv.step hnext, hprojects'⟩

end Steps

end Concurrent
