import BusinessApproval.Proof.Commute
import BusinessApproval.Proof.Effects
import BusinessApproval.Proof.Monotone

/-!
# Why a call is answered as it is

A success repeats the approval with the id of the call, and a refusal has a reason: it is
the first that applies to the state the call met. Both are stated of a response as such,
so that they can be used where calls do not come one after another.
-/

namespace BusinessApproval

open ApprovalService

variable {Ctx Clock State Row : Type} {deps : Deps Ctx} {config : ApprovalPolicy}

def Response.succeeded : Response → Bool
  | .request (.ok _) | .decide (.ok _) | .cancel (.ok _) | .read (.ok _) | .expire (.ok _) => true
  | _ => false

/-- The response is a domain error. -/
def Response.refused : Response → Bool
  | .request (.error (.domain _)) | .decide (.error (.domain _)) | .cancel (.error (.domain _))
  | .read (.error (.domain _)) | .expire (.error (.domain _)) => true
  | _ => false

theorem Response.field_of_succeeded {r : Response} (h : r.succeeded = true) :
    ∃ v, r.field .requestId = some v := by
  match r with
  | .request (.ok _) | .decide (.ok _) | .cancel (.ok _) | .read (.ok _) | .expire (.ok _) =>
      exact ⟨_, rfl⟩
  | .request (.error _) | .decide (.error _) | .cancel (.error _) | .read (.error _)
  | .expire (.error _) => cases h

/-- A failure of the runtime is neither a success nor a refusal. -/
theorem Response.of_runtimeFailure {r : Response} {failure : RuntimeFailure}
    (h : r.runtimeFailure = some failure) : r.succeeded = false ∧ r.refused = false := by
  match r with
  | .request (.error (.runtime _)) | .decide (.error (.runtime _)) | .cancel (.error (.runtime _))
  | .read (.error (.runtime _)) | .expire (.error (.runtime _)) => exact ⟨rfl, rfl⟩
  | .request (.ok _) | .decide (.ok _) | .cancel (.ok _) | .read (.ok _) | .expire (.ok _)
  | .request (.error (.domain _)) | .decide (.error (.domain _)) | .cancel (.error (.domain _))
  | .read (.error (.domain _)) | .expire (.error (.domain _)) => cases h

def ServiceCall.Writes : ServiceCall Ctx → Prop
  | .read _ _ => False
  | _ => True

/-- Why a refusal is right, for a state and a time. -/
inductive Reason (B : Backend Clock State Row) (deps : Deps Ctx) (config : ApprovalPolicy)
    (now : Int) (s : State) : ServiceCall Ctx → Response → Prop
  | decide {context : Ctx} {body : DecideRequest} {e : DecideError}
      (h : decideRefusal deps config context body (B.find s body.requestId) = some e) :
      Reason B deps config now s (.decide context body) (.decide (.error (.domain e)))
  | cancel {context : Ctx} {body : CancelRequest} {e : CancelError}
      (h : cancelRefusal deps config context body (B.find s body.requestId) = some e) :
      Reason B deps config now s (.cancel context body) (.cancel (.error (.domain e)))
  | expire {context : Ctx} {body : ExpireRequest} {e : ExpireError}
      (h : expireRefusal deps config context body now (B.find s body.requestId) = some e) :
      Reason B deps config now s (.expire context body) (.expire (.error (.domain e)))
  | forbidden {context : Ctx} {body : RequestRequest}
      (h : authorizedCaller deps config context ApprovalPolicy.canRequest = none) :
      Reason B deps config now s (.request context body) (.request (.error (.domain .forbidden)))
  | invalid {context : Ctx} {body : RequestRequest} (h : ¬ Passes deps.time body now) :
      Reason B deps config now s (.request context body)
        (.request (.error (.domain .invalidRequest)))
  /-- Some approval has a key of the intent, and none has the intent. -/
  | conflict {context : Ctx} {body : RequestRequest} {intent : RequestIntent}
      (hsends : Sends deps config (.request context body) (.request intent))
      (hclaimed : ¬ Unclaimed B s intent)
      (hother : ∀ id a, B.find s id = some a → ¬ Agrees a intent) :
      Reason B deps config now s (.request context body)
        (.request (.error (.domain .idempotencyConflict)))

section Ledger

variable {m : Moments} {L : Ledger}

theorem Ledger.Answers.reports {E : Type} {time : TimeCrate}
    {wrap : PluginResult TransitionResponse E → Response} {id : String} {set : Settlement}
    {instant : Int} {refusal : Option E} {result : Response × Ledger}
    (h : L.Answers time wrap id set instant refusal result)
    (herror : ∀ e, (wrap (.error e)).field = fun _ => none)
    (hok : ∀ r, (wrap (.ok r)).field = r.field) {f : Field} {v : FieldValue}
    (hv : result.1.field f = some v) :
    ∃ a, result.2 id = some a ∧ Reports time result.1.field a := by
  cases h with
  | refused e =>
      rw [herror] at hv
      cases hv
  | made ha hr =>
      refine ⟨_, Function.update_self .., ?_⟩
      rw [hok]
      exact hr

/-- A success reports the approval with the id of the call, as the call leaves it. -/
theorem serve_reports_own (hlaw : deps.time.Lawful) (hm : m.InYears) (hL : L.Sound)
    {call : ServiceCall Ctx} (hwrites : call.Writes) {f : Field} {v : FieldValue}
    (hv : (L.serve deps config m call).1.field f = some v) :
    ∃ a, (L.serve deps config m call).2 call.requestId = some a
      ∧ Reports deps.time (L.serve deps config m call).1.field a := by
  cases call with
  | request context body =>
      revert hv
      rw [serve_request]
      cases authorizedCaller deps config context ApprovalPolicy.canRequest with
      | none => intro hv; cases hv
      | some caller =>
          simp only
          cases ha : admission deps.time caller body m.now with
          | error e => intro hv; cases hv
          | ok intent =>
              have hid : intent.requestId = body.requestId := by
                obtain ⟨expiresAt, -, rfl⟩ := (admission_ok hlaw hm.now ha).deadline
                rfl
              have hresolves := Ledger.request_resolves hL.wellKeyed intent
              simp only [ServiceCall.requestId, ← hid]
              generalize L.request intent = outcome at hresolves
              cases hresolves with
              | created hfree =>
                  exact fun hv => ⟨_, Function.update_self .., reports_request (fun _ => rfl) hv⟩
              | repeated ha hagrees =>
                  exact fun hv => ⟨_, ha, reports_request (fun h => (by cases h)) hv⟩
              | conflict => intro hv; cases hv
  | decide context body =>
      obtain ⟨caller, -, h⟩ := serve_decide_answers config hlaw hm hL context body
      exact h.reports (fun _ => rfl) (fun _ => rfl) hv
  | cancel context body =>
      obtain ⟨caller, -, h⟩ := serve_cancel_answers config hlaw hm hL context body
      exact h.reports (fun _ => rfl) (fun _ => rfl) hv
  | expire context body =>
      obtain ⟨caller, -, h⟩ := serve_expire_answers config hlaw hm hL context body
      exact h.reports (fun _ => rfl) (fun _ => rfl) hv
  | read context body => exact hwrites.elim

end Ledger

section Backends

variable {B : Backend Clock State Row} {represents : State → Ledger → Prop}
  {moments : Clock → Moments}

/-- A refused transition has its reason, and leaves the rows as they are. -/
theorem Outcome.reason {E : Type} {context : Ctx} {s : State}
    {wrap : PluginResult TransitionResponse E → Response} {id : String} {settling : Settling}
    {instant : Int} {refusal : Option E} {result : Response × State}
    (h : Outcome B deps context s wrap id settling instant refusal result)
    (hok : ∀ r, (wrap (.ok r)).refused = false) (hr : result.1.refused = true) :
    ∃ e, refusal = some e ∧ result.1 = wrap (.error (.domain e))
      ∧ ∀ id', B.row result.2 id' = B.row s id' := by
  cases hrefusal : refusal with
  | none =>
      obtain ⟨caller, a, r, -, -, -, hmade, -⟩ := h.made hrefusal
      rw [hmade, hok] at hr
      cases hr
  | some e =>
      obtain ⟨hanswer, hrows⟩ := h.refused e hrefusal
      exact ⟨e, rfl, hanswer, hrows⟩

/-- A refused request has its reason, and the ledger is as it was. -/
theorem Implements.request_reason (hB : Implements B represents moments)
    (hlaw : deps.time.Lawful) {m : Moments} (hm : m.InYears) {context : Ctx}
    {body : RequestRequest} {s : State} {L : Ledger} (hL : Stands represents s L)
    (hr : (L.serve deps config m (.request context body)).1.refused = true) :
    Reason B deps config m.now s (.request context body)
        (L.serve deps config m (.request context body)).1
      ∧ (L.serve deps config m (.request context body)).2 = L := by
  obtain ⟨serve, hserve, hgoes⟩ := exists_goes deps config m (.request context body)
  rw [hserve] at hr ⊢
  cases hgoes with
  | turnedAway h =>
      refine ⟨?_, rfl⟩
      cases h with
      | forbidden hc => exact .forbidden hc
      | @notAdmitted _ _ caller e hcaller ha =>
          cases e with
          | runtime failure => cases hr
          | domain e =>
              rw [admission_refusal ha]
              refine .invalid fun hpasses => ?_
              obtain ⟨intent, hadmitted⟩ := admission_of_passes hlaw hm.now caller hpasses
              rw [hadmitted] at ha
              cases ha
  | @request _ _ caller intent hcaller hadmitted =>
      have hsends : Sends deps config (.request context body) (.request intent) :=
        .request hcaller (admission_ok hlaw hm.now hadmitted)
      have hresolves := Ledger.request_resolves hL.sound.wellKeyed intent
      simp only at hr ⊢
      generalize L.request intent = outcome at hresolves hr
      cases hresolves with
      | created hfree => cases hr
      | repeated ha hagrees =>
          simp only [respondRequest,
            (presentable_of_sound hlaw (hL.sound.approvals ha)).revisionString] at hr
          cases hr
      | conflict hclaimed hother =>
          refine ⟨.conflict hsends (fun hun => ?_) fun id a hid => ?_, rfl⟩
          · -- an approval with a key of the intent is in the way
            obtain ⟨id, a, ha, hshares⟩ := hclaimed
            exact (hB.unclaimed_iff hL.represents).mp hun id a ha hshares
          · rw [hB.find hL.represents] at hid
            exact hother id a hid
  | settle hsends hasks => cases hasks

/-- **A refusal has its reason, and leaves the rows as they are.** -/
theorem Implements.reason (hB : Implements B represents moments) (hlaw : deps.time.Lawful)
    {clock : Clock} (hclock : B.inYears clock) (hnow : (moments clock).due = (moments clock).now)
    {call : ServiceCall Ctx} (hwrites : call.Writes) {s : State}
    (hs : B.Reachable deps config s) (hr : (B.serve deps config clock call s).1.refused = true) :
    Reason B deps config (moments clock).now s call (B.serve deps config clock call s).1
      ∧ ∀ id, B.row (B.serve deps config clock call s).2 id = B.row s id := by
  have hexact : TransitionsExact B deps config moments := hB.transitionsExact hlaw
  cases call with
  | decide context body =>
      obtain ⟨e, hrefusal, hanswer, hrows⟩ :=
        (hexact.decide s hs clock hclock context body).reason (fun _ => rfl) hr
      exact ⟨hanswer ▸ .decide hrefusal, hrows⟩
  | cancel context body =>
      obtain ⟨e, hrefusal, hanswer, hrows⟩ :=
        (hexact.cancel s hs clock hclock context body).reason (fun _ => rfl) hr
      exact ⟨hanswer ▸ .cancel hrefusal, hrows⟩
  | expire context body =>
      obtain ⟨e, hrefusal, hanswer, hrows⟩ :=
        (hexact.expire s hs clock hclock context body).reason (fun _ => rfl) hr
      rw [hnow] at hrefusal
      exact ⟨hanswer ▸ .expire hrefusal, hrows⟩
  | read context body => exact hwrites.elim
  | request context body =>
      obtain ⟨L, hL⟩ := hB.reachable hlaw hs
      obtain ⟨hserve, hL'⟩ := hB.stands_serve config hlaw hclock (.request context body) hL
      rw [hserve] at hr ⊢
      obtain ⟨hreason, hsame⟩ := hB.request_reason hlaw (hB.inYears hclock) hL hr
      rw [hsame] at hL'
      exact ⟨hreason, fun id => hB.row_eq hL'.represents hL.represents id rfl⟩

end Backends

end BusinessApproval
