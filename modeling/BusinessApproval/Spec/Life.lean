import BusinessApproval.Spec.Ledger
import BusinessApproval.Proof.Admission

/-!
# The life of an approval

What one store call can do to a ledger: nothing, create an approval whose keys are
free, or settle a pending one. `Change` says so once, with all that is known of the
call, and every invariant of the ledger is a case analysis on it. `Evolves` is what
is left of it over any number of calls: an approval keeps its terms, and is settled
at most once.
-/

namespace BusinessApproval

/-! ## Sound approvals -/

/-- What is true of every stored approval. -/
structure StoredApproval.Sound (a : StoredApproval) : Prop where
  consistent : evidenceConsistent a = true
  requestedAt : Storable a.requestedAt
  expiresAt : Storable a.expiresAt
  order : a.requestedAt < a.expiresAt
  terminalAt : ∀ t, a.terminalAt = some t → InYears t

/-- An approval is pending at revision 1 and settled at revision 2. -/
theorem StoredApproval.Sound.revision {a : StoredApproval} (h : a.Sound) :
    a.revision = if a.status = .pending then 1 else 2 := revision_of_consistent h.consistent

/-- An approval at revision 2 is settled. -/
theorem StoredApproval.Sound.settled_of_revision {a : StoredApproval} (h : a.Sound)
    (hr : a.revision = 2) : a.status ≠ .pending := by
  intro hp
  rw [h.revision, if_pos hp] at hr
  cases hr

/-- The instants of a call are in the years 0 to 9999. -/
structure Moments.InYears (m : Moments) : Prop where
  now : BusinessApproval.InYears m.now
  settled : BusinessApproval.InYears m.settled
  due : BusinessApproval.InYears m.due

theorem sound_ofIntent {intent : RequestIntent}
    (h : ApprovalService.Admissible (.request intent)) :
    (StoredApproval.ofIntent intent).Sound :=
  ⟨rfl, h.1, h.2.1, h.2.2.1, fun _ ht => by cases ht⟩

/-! ## Evolution -/

/-- An approval before and after any number of calls. -/
structure Evolves (a b : StoredApproval) : Prop where
  requestId : b.requestId = a.requestId
  requesterInstance : b.requesterInstance = a.requesterInstance
  idempotencyKey : b.idempotencyKey = a.idempotencyKey
  requestedBy : b.requestedBy = a.requestedBy
  approvalKind : b.approvalKind = a.approvalKind
  subjectKind : b.subjectKind = a.subjectKind
  subjectId : b.subjectId = a.subjectId
  intentDigest : b.intentDigest = a.intentDigest
  requestedAt : b.requestedAt = a.requestedAt
  expiresAt : b.expiresAt = a.expiresAt
  /-- It is the same, or it was pending and has been settled. -/
  moves : b = a
    ∨ a.status = .pending ∧ a.revision = 1 ∧ b.status ≠ .pending ∧ b.revision = 2

namespace Evolves

variable {a b c : StoredApproval}

theorem refl (a : StoredApproval) : Evolves a a :=
  ⟨rfl, rfl, rfl, rfl, rfl, rfl, rfl, rfl, rfl, rfl, Or.inl rfl⟩

theorem trans (h : Evolves a b) (h' : Evolves b c) : Evolves a c := by
  rcases h'.moves with rfl | ⟨hp, -, hs', hr'⟩
  · exact h
  · rcases h.moves with rfl | ⟨-, -, hs, -⟩
    · exact h'
    · exact absurd hp hs

/-- A settled approval stays as it is. -/
theorem frozen (h : Evolves a b) (hs : a.status ≠ .pending) : b = a := by
  rcases h.moves with rfl | ⟨hp, -⟩
  · rfl
  · exact absurd hp hs

theorem pair (h : Evolves a b) : b.pair = a.pair := Prod.ext h.requesterInstance h.idempotencyKey

theorem revision_le (h : Evolves a b) : a.revision ≤ b.revision := by
  rcases h.moves with rfl | ⟨-, h1, -, h2⟩
  · exact Int.le_refl _
  · omega

/-- An approval with the same intent keeps it. -/
theorem sameIntent (h : Evolves a b) (intent : RequestIntent) :
    BusinessApproval.sameIntent b intent = BusinessApproval.sameIntent a intent := by
  unfold BusinessApproval.sameIntent
  rw [h.requestId, h.requesterInstance, h.idempotencyKey, h.requestedBy, h.approvalKind,
    h.subjectKind, h.subjectId, h.intentDigest, h.expiresAt]

/-- Settling a pending approval is a step of its life. -/
theorem settle (hs : a.Sound) (hp : a.status = .pending) {set : Settlement}
    (hset : set.status ≠ .pending) (instant : Int) : Evolves a (a.settle set instant) :=
  ⟨rfl, rfl, rfl, rfl, rfl, rfl, rfl, rfl, rfl, rfl,
    Or.inr ⟨hp, by rw [hs.revision, if_pos hp], hset, rfl⟩⟩

end Evolves

/-! ## What a store call changes -/

/-- A settlement a store call asks for, of an approval it may settle. -/
inductive Settles : StoreOp → String → StoredApproval → Settlement → Prop
  | decide (id : String) (status : ApprovalStatus) (caller actor evidence : String)
      (reason : Option String) (a : StoredApproval) :
      Settles (.decide id status caller actor evidence reason) id a
        ⟨status, caller, some actor, some evidence, reason⟩
  | cancel (id caller actor : String) (reason : Option String) {a : StoredApproval}
      (hcaller : a.requesterInstance = caller) :
      Settles (.cancel id caller actor reason) id a
        ⟨.cancelled, caller, some actor, none, reason⟩
  | expire (id caller : String) (a : StoredApproval) :
      Settles (.expire id caller) id a ⟨.expired, caller, none, none, none⟩

/-- The evidence of an admissible settlement is consistent. -/
theorem Settles.consistent {o : StoreOp} {id : String} {a : StoredApproval} {set : Settlement}
    (h : Settles o id a set) (ho : ApprovalService.Admissible o) (instant : Int) :
    evidenceConsistent (a.settle set instant) = true ∧ set.status ≠ .pending := by
  cases h with
  | decide id status caller actor evidence reason =>
      rcases ho with rfl | rfl <;> exact ⟨rfl, fun h => by cases h⟩
  | cancel => exact ⟨rfl, fun h => by cases h⟩
  | expire => exact ⟨rfl, fun h => by cases h⟩

namespace Ledger

/-- What a store call makes of a ledger. -/
inductive Change (m : Moments) (o : StoreOp) (L : Ledger) : Ledger → Prop
  | same : Change m o L L
  | created {intent : RequestIntent} (ho : o = .request intent) (hid : L intent.requestId = none)
      (hpair : ¬ L.PairTaken (intent.requesterInstance, intent.idempotencyKey)) :
      Change m o L (Function.update L intent.requestId (some (.ofIntent intent)))
  | settled {id : String} {a : StoredApproval} {set : Settlement} (hset : Settles o id a set)
      (ha : L id = some a) (hp : a.status = .pending) :
      Change m o L (Function.update L id (some (a.settle set m.settled)))

variable {m : Moments} {L L' : Ledger} {o : StoreOp}

theorem request_change (intent : RequestIntent) :
    Change m (.request intent) L (L.request intent).2 := by
  unfold request
  cases hL : L intent.requestId with
  | some a =>
      simp only
      split <;> exact .same
  | none =>
      by_cases hp : L.PairTaken (intent.requesterInstance, intent.idempotencyKey)
      · simp only [hp, if_true]
        exact .same
      · simp only [hp, if_false]
        exact .created rfl hL hp

theorem settle_change {id : String} {refuse : StoredApproval → Option DomainFailure}
    {set : Settlement} (hset : ∀ a, refuse a = none → Settles o id a set ∧ a.status = .pending) :
    Change m o L (L.settle id refuse set m.settled).2 := by
  unfold settle
  cases hL : L id with
  | none => exact .same
  | some a =>
      simp only
      cases hr : refuse a with
      | some failure => exact .same
      | none => exact .settled (hset a hr).1 hL (hset a hr).2

theorem requester_of_refuseOthers {caller : String} {a : StoredApproval}
    (h : refuseOthers caller a = none) : a.requesterInstance = caller := by
  by_contra hne
  rw [refuseOthers, if_pos hne] at h
  cases h

/-! ## Sound ledgers -/

/-- Keys find their approvals and no other's, and every approval is sound. -/
structure Sound (L : Ledger) : Prop where
  wellKeyed : L.WellKeyed
  approvals : ∀ {id a}, L id = some a → a.Sound

/-- The ledger with no approvals. -/
def empty : Ledger := fun _ => none

theorem sound_empty : empty.Sound where
  wellKeyed := {
    ids := fun h => by cases h
    pairs := fun h => by cases h }
  approvals := fun h => by cases h

/-- Writing an approval under its id, with a second key no other approval has. -/
theorem WellKeyed.update (h : L.WellKeyed) {a : StoredApproval}
    (hpair : ∀ id b, id ≠ a.requestId → L id = some b → b.pair ≠ a.pair) :
    WellKeyed (Function.update L a.requestId (some a)) where
  ids {id b} hb := by
    by_cases hid : id = a.requestId
    · subst hid
      rw [Function.update_self] at hb
      rw [← Option.some.inj hb]
    · rw [Function.update_of_ne hid] at hb
      exact h.ids hb
  pairs {id id' b c} hb hc heq := by
    by_cases hid : id = a.requestId
    · by_cases hid' : id' = a.requestId
      · rw [hid, hid']
      · subst hid
        rw [Function.update_self] at hb
        rw [Function.update_of_ne hid'] at hc
        exact absurd (heq.symm.trans (by rw [← Option.some.inj hb])) (hpair _ _ hid' hc)
    · rw [Function.update_of_ne hid] at hb
      by_cases hid' : id' = a.requestId
      · subst hid'
        rw [Function.update_self] at hc
        exact absurd (heq.trans (by rw [← Option.some.inj hc])) (hpair _ _ hid hb)
      · rw [Function.update_of_ne hid'] at hc
        exact h.pairs hb hc heq

theorem Sound.update (h : L.Sound) {a : StoredApproval} (ha : a.Sound)
    (hpair : ∀ id b, id ≠ a.requestId → L id = some b → b.pair ≠ a.pair) :
    Sound (Function.update L a.requestId (some a)) where
  wellKeyed := h.wellKeyed.update hpair
  approvals {id b} hb := by
    by_cases hid : id = a.requestId
    · subst hid
      rw [Function.update_self] at hb
      exact Option.some.inj hb ▸ ha
    · rw [Function.update_of_ne hid] at hb
      exact h.approvals hb

/-- An admissible call keeps a ledger sound. -/
theorem Change.sound (hc : Change m o L L') (h : L.Sound) (hm : m.InYears)
    (ho : ApprovalService.Admissible o) : L'.Sound := by
  cases hc with
  | same => exact h
  | @created intent heq hid hpair =>
      subst heq
      exact h.update (a := .ofIntent intent) (sound_ofIntent ho)
        (fun id b _ hb hp => hpair ⟨id, b, hb, hp⟩)
  | @settled id a set hset ha hp =>
      have hsound := h.approvals ha
      have hid : a.requestId = id := h.wellKeyed.ids ha
      have hnew : (a.settle set m.settled).Sound :=
        ⟨(hset.consistent ho _).1, hsound.requestedAt, hsound.expiresAt, hsound.order,
          fun t ht => Option.some.inj ht ▸ hm.settled⟩
      have hupdate := h.update hnew (fun id' b hne hb hpair =>
        hne ((h.wellKeyed.pairs hb ha hpair).trans hid.symm))
      rw [show (a.settle set m.settled).requestId = id from hid] at hupdate
      exact hupdate

/-- Every approval of one ledger is in the other, further on in its life. -/
def Evolves (L L' : Ledger) : Prop :=
  ∀ id a, L id = some a → ∃ b, L' id = some b ∧ BusinessApproval.Evolves a b

theorem Evolves.refl (L : Ledger) : L.Evolves L := fun _ a ha => ⟨a, ha, .refl a⟩

theorem Evolves.trans {L₁ L₂ L₃ : Ledger} (h : L₁.Evolves L₂) (h' : L₂.Evolves L₃) :
    L₁.Evolves L₃ := by
  intro id a ha
  obtain ⟨b, hb, hab⟩ := h id a ha
  obtain ⟨c, hc, hbc⟩ := h' id b hb
  exact ⟨c, hc, hab.trans hbc⟩

/-- An admissible call only moves approvals on in their lives. -/
theorem Change.evolves (hc : Change m o L L') (h : L.Sound)
    (ho : ApprovalService.Admissible o) : L.Evolves L' := by
  intro id a ha
  cases hc with
  | same => exact ⟨a, ha, .refl a⟩
  | @created intent heq hid hpair =>
      have hne : id ≠ intent.requestId := by
        rintro rfl
        rw [hid] at ha
        cases ha
      exact ⟨a, by rw [Function.update_of_ne hne, ha], .refl a⟩
  | @settled id' b set hset hb hp =>
      by_cases hid : id = id'
      · subst hid
        rw [hb] at ha
        cases ha
        exact ⟨_, Function.update_self .., .settle (h.approvals hb) hp (hset.consistent ho 0).2 _⟩
      · exact ⟨a, by rw [Function.update_of_ne hid, ha], .refl a⟩

/-! ## What a store call answers with -/

theorem request_ok {L : Ledger} (h : L.WellKeyed) {intent : RequestIntent} {out : RequestOutcome}
    (ho : (L.request intent).1 = .ok out) :
    (L.request intent).2 out.approval.requestId = some out.approval
      ∧ (out.created = true → out.approval.revision = 1) := by
  unfold request at ho ⊢
  cases hL : L intent.requestId with
  | some a =>
      rw [hL] at ho
      simp only at ho ⊢
      split at ho
      next hsame =>
        cases ho
        rw [if_pos hsame]
        exact ⟨by simp only [h.ids hL, hL], fun hc => by cases hc⟩
      next => cases ho
  | none =>
      rw [hL] at ho
      simp only at ho ⊢
      split at ho
      next => cases ho
      next hfree =>
        cases ho
        rw [if_neg hfree]
        exact ⟨Function.update_self .., fun _ => rfl⟩

theorem settle_ok {L : Ledger} (h : L.WellKeyed) {id : String}
    {refuse : StoredApproval → Option DomainFailure} {set : Settlement} {instant : Int}
    {a : StoredApproval} (ha : (L.settle id refuse set instant).1 = .ok a) :
    (L.settle id refuse set instant).2 a.requestId = some a := by
  unfold settle at ha ⊢
  cases hL : L id with
  | none => rw [hL] at ha; cases ha
  | some b =>
      rw [hL] at ha
      simp only at ha ⊢
      cases hr : refuse b with
      | some failure => rw [hr] at ha; cases ha
      | none =>
          rw [hr] at ha
          cases ha
          have hid : b.requestId = id := h.ids hL
          rw [show (b.settle set instant).requestId = id from hid]
          exact Function.update_self ..

theorem read_some {L : Ledger} (h : L.WellKeyed) {id : String} {requester : Option String}
    {a : StoredApproval} (ha : L.read id requester = some a) : L a.requestId = some a := by
  obtain ⟨hL, -⟩ := Option.filter_eq_some_iff.mp ha
  rw [h.ids hL, hL]

/-- What is settled is an approval of the ledger that nothing was against. -/
theorem settle_eq {L : Ledger} {id : String} {refuse : StoredApproval → Option DomainFailure}
    {set : Settlement} {instant : Int} {a : StoredApproval}
    (ha : (L.settle id refuse set instant).1 = .ok a) :
    ∃ b, L id = some b ∧ refuse b = none ∧ a = b.settle set instant := by
  unfold settle at ha
  cases hL : L id with
  | none => rw [hL] at ha; cases ha
  | some b =>
      rw [hL] at ha
      simp only at ha
      cases hr : refuse b with
      | some failure => rw [hr] at ha; cases ha
      | none =>
          rw [hr] at ha
          exact ⟨b, rfl, hr, (Except.ok.inj ha).symm⟩

end Ledger

end BusinessApproval
