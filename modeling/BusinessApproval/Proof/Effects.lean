import BusinessApproval.Proof.Outcomes
import BusinessApproval.Proof.Resolution

/-!
# The effect of a call

`ServeChange` says what a call can make of a ledger. `Effect` says as well which instants
go into it: a created approval was requested at the time the call was told, and what
expires was due by the time the deadline was compared with. `Alters` is the same of two
states of a backend.
-/

namespace BusinessApproval

open ApprovalService

variable {Ctx Clock State Row : Type} {deps : Deps Ctx} {config : ApprovalPolicy}

/-! ## On the ledger -/

/-- What a service call makes of a ledger, and when. -/
inductive Effect (deps : Deps Ctx) (config : ApprovalPolicy) (m : Moments)
    (call : ServiceCall Ctx) (L : Ledger) : Ledger → Prop
  | same : Effect deps config m call L L
  | created {intent : RequestIntent} (hsends : Sends deps config call (.request intent))
      (hnow : intent.requestedAt = floorMicros m.now)
      (hfree : ∀ id a, L id = some a → ¬ Ledger.SharesKey intent a) :
      Effect deps config m call L
        (Function.update L intent.requestId (some (.ofIntent intent)))
  | settled {o : StoreOp} {id : String} {a : StoredApproval} {set : Settlement}
      (hsends : Sends deps config call o) (hset : Settles o id a set) (ha : L id = some a)
      (hp : a.status = .pending) (hdue : set.status = .expired → a.expiresAt ≤ m.due) :
      Effect deps config m call L (Function.update L id (some (a.settle set m.settled)))

section Ledger

variable {m : Moments} {L L' : Ledger} {call : ServiceCall Ctx}

theorem settle_effect {o : StoreOp} (hsends : Sends deps config call o) {id : String}
    {refuse : StoredApproval → Option DomainFailure} {set : Settlement}
    (hset : ∀ a, refuse a = none → Settles o id a set ∧ a.status = .pending
      ∧ (set.status = .expired → a.expiresAt ≤ m.due)) :
    Effect deps config m call L (L.settle id refuse set m.settled).2 := by
  unfold Ledger.settle
  cases hL : L id with
  | none => exact .same
  | some a =>
      simp only
      cases hr : refuse a with
      | some failure => exact .same
      | none =>
          obtain ⟨hsettles, hp, hdue⟩ := hset a hr
          exact .settled hsends hsettles hL hp hdue

/-- **Every service call has such an effect.** -/
theorem serve_effect (config : ApprovalPolicy) (hlaw : deps.time.Lawful) (hm : m.InYears)
    (hL : L.Sound) (call : ServiceCall Ctx) :
    Effect deps config m call L (L.serve deps config m call).2 := by
  obtain ⟨f, hf, hgoes⟩ := exists_goes deps config m call
  rw [hf]
  cases hgoes with
  | turnedAway h => exact .same
  | @request context body caller intent hcaller hadmitted =>
      have hadmits := admission_ok hlaw hm.now hadmitted
      have hresolves := Ledger.request_resolves hL.wellKeyed intent
      simp only
      generalize L.request intent = outcome at hresolves
      cases hresolves with
      | created hfree =>
          refine .created (.request hcaller hadmits) ?_ hfree
          obtain ⟨expiresAt, -, rfl⟩ := hadmits.deadline
          rfl
      | repeated => exact .same
      | conflict => exact .same
  | settle hsends hasks => exact settle_effect hsends fun a ha => hasks.settles ha
  | read context body requester => exact .same

end Ledger

/-! ## On a backend -/

section Backends

variable (B : Backend Clock State Row) (deps : Deps Ctx) (config : ApprovalPolicy)

/-- What a call makes of one row, with all other rows as they were. -/
inductive Alters (m : Moments) (call : ServiceCall Ctx) (s s' : State) : Prop
  | created {intent : RequestIntent} (hsends : Sends deps config call (.request intent))
      (hnow : intent.requestedAt = floorMicros m.now) (hfree : Unclaimed B s intent)
      (hnew : B.find s' intent.requestId = some (.ofIntent intent))
      (hframe : ∀ id, id ≠ intent.requestId → B.row s' id = B.row s id)
  | settled {o : StoreOp} {id : String} {a : StoredApproval} {set : Settlement}
      (hsends : Sends deps config call o) (hset : Settles o id a set)
      (ha : B.find s id = some a) (hp : a.status = .pending)
      (hdue : set.status = .expired → a.expiresAt ≤ m.due)
      (hnew : B.find s' id = some (a.settle set m.settled))
      (hframe : ∀ id', id' ≠ id → B.row s' id' = B.row s id')

variable {B} {deps} {config} {represents : State → Ledger → Prop} {moments : Clock → Moments}

/-- **A call over a backend leaves every row as it is, or alters one.** -/
theorem Implements.alters (hB : Implements B represents moments) (hlaw : deps.time.Lawful)
    {clock : Clock} (hclock : B.inYears clock) (call : ServiceCall Ctx) {s : State} {L : Ledger}
    (h : Stands represents s L) :
    (∀ id, B.row (B.serve deps config clock call s).2 id = B.row s id)
      ∨ Alters B deps config (moments clock) call s (B.serve deps config clock call s).2 := by
  obtain ⟨-, h'⟩ := hB.stands_serve config hlaw hclock call h
  have heffect := serve_effect config hlaw (hB.inYears hclock) h.sound call
  generalize (L.serve deps config (moments clock) call).2 = L' at h' heffect
  cases heffect with
  | same => exact Or.inl fun id => hB.row_eq h'.represents h.represents id rfl
  | created hsends hnow hfree =>
      refine Or.inr
        (.created hsends hnow ((hB.unclaimed_iff h.represents).mpr hfree) ?_ fun id hid => ?_)
      · rw [hB.find h'.represents, Function.update_self]
      · exact hB.row_eq h'.represents h.represents id (Function.update_of_ne hid ..)
  | settled hsends hset ha hp hdue =>
      refine Or.inr (.settled hsends hset ?_ hp hdue ?_ fun id hid => ?_)
      · rw [hB.find h.represents, ha]
      · rw [hB.find h'.represents, Function.update_self]
      · exact hB.row_eq h'.represents h.represents id (Function.update_of_ne hid ..)

end Backends

end BusinessApproval
