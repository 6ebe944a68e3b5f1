import BusinessApproval.Proof.Equivalence

/-!
# What a transition answers

Four layers have a say in the answer to a `decide`, `cancel` or `expire`: the guards of
the service, the checks of the store, the mapping of its refusals, and the response
builder. Here is what they come to. Each operation has a list of refusals, in order of
priority; the answer is the first that applies, and if none does, the approval is
settled and the response repeats it.
-/

namespace BusinessApproval

open ApprovalService

variable {Ctx Clock State Row : Type}

/-! ## Refusals -/

/-- The first refusal of a list that applies. -/
def firstOf {E : Type} (refusals : List (Bool × E)) : Option E :=
  (refusals.find? Prod.fst).map Prod.snd

theorem firstOf_cons {E : Type} (applies : Bool) (e : E) (rest : List (Bool × E)) :
    firstOf ((applies, e) :: rest) = if applies then some e else firstOf rest := by
  unfold firstOf
  rw [List.find?_cons]
  cases applies <;> rfl

/-- A refusal for either of two reasons can be told in two steps. -/
theorem firstOf_or {E : Type} (first second : Bool) (e : E) (rest : List (Bool × E)) :
    firstOf ((first || second, e) :: rest)
      = if first then some e else firstOf ((second, e) :: rest) := by
  rw [firstOf_cons, firstOf_cons]
  cases first <;> rfl

@[simp] theorem firstOf_nil {E : Type} : firstOf ([] : List (Bool × E)) = none := rfl

/-- Nothing is refused when no refusal applies. -/
theorem firstOf_eq_none {E : Type} {refusals : List (Bool × E)} :
    firstOf refusals = none ↔ ∀ refusal ∈ refusals, refusal.1 = false := by
  simp [firstOf]

section Refusals

variable (deps : Deps Ctx) (config : ApprovalPolicy) (context : Ctx)

/-- The context has a caller, and the allowlist of the operation names it. -/
def permitted (predicate : ApprovalPolicy → String → Bool) : Bool :=
  (deps.callerInstance context).any (predicate config)

def decideRefusal (body : DecideRequest) (found : Option StoredApproval) : Option DecideError :=
  firstOf [
    (!permitted deps config context ApprovalPolicy.canDecide || deps.deniesHumanContext context,
      .forbidden),
    (!(validRequestId body.requestId && validReference body.decidedBy
        && validReference body.evidenceRef && validReason body.reason), .invalidRequest),
    (found.isNone, .requestNotFound),
    (found.any (fun a => a.status ≠ .pending), .alreadyTerminal)]

def cancelRefusal (body : CancelRequest) (found : Option StoredApproval) : Option CancelError :=
  firstOf [
    (!permitted deps config context ApprovalPolicy.canRequest, .forbidden),
    (!(validRequestId body.requestId && validReference body.cancelledBy
        && validReason body.reason), .invalidRequest),
    (found.isNone, .requestNotFound),
    (found.any (fun a => deps.callerInstance context ≠ some a.requesterInstance), .notRequester),
    (found.any (fun a => a.status ≠ .pending), .alreadyTerminal)]

def expireRefusal (body : ExpireRequest) (clock : Int) (found : Option StoredApproval) :
    Option ExpireError :=
  firstOf [
    (!permitted deps config context ApprovalPolicy.canExpire, .forbidden),
    (!validRequestId body.requestId, .invalidRequest),
    (found.isNone, .requestNotFound),
    (found.any (fun a => a.status ≠ .pending), .alreadyTerminal),
    (found.any (fun a => clock < a.expiresAt), .notDue)]

variable {deps config context}

/-- Whoever is permitted is the authorized caller. -/
theorem authorized_of_permitted {predicate : ApprovalPolicy → String → Bool}
    (h : permitted deps config context predicate = true) :
    ∃ caller, deps.callerInstance context = some caller
      ∧ authorizedCaller deps config context predicate = some caller := by
  unfold permitted at h
  unfold authorizedCaller
  cases hc : deps.callerInstance context with
  | none => rw [hc] at h; cases h
  | some caller =>
      rw [hc, Option.any_some] at h
      exact ⟨caller, rfl, by rw [Option.filter_some, if_pos h]⟩

theorem unauthorized_of_not_permitted {predicate : ApprovalPolicy → String → Bool}
    (h : permitted deps config context predicate = false) :
    authorizedCaller deps config context predicate = none := by
  unfold permitted at h
  unfold authorizedCaller
  cases hc : deps.callerInstance context with
  | none => rfl
  | some caller =>
      rw [hc, Option.any_some] at h
      rw [Option.filter_some, if_neg (by rw [h]; exact Bool.false_ne_true)]

end Refusals

/-! ## On the ledger -/

/-- How an operation settles an approval, once it is known who calls. -/
abbrev Settling := String → Settlement

def decideSettling (body : DecideRequest) : Settling := fun caller =>
  ⟨decidedStatus body.decision, caller, some body.decidedBy, some body.evidenceRef, body.reason⟩

def cancelSettling (body : CancelRequest) : Settling := fun caller =>
  ⟨.cancelled, caller, some body.cancelledBy, none, body.reason⟩

def expireSettling : Settling := fun caller => ⟨.expired, caller, none, none, none⟩

/--
The answer to a transition and the ledger it leaves: the refusal and the ledger as it
was, or the settled approval, in the response and in the ledger.
-/
inductive Ledger.Answers {E : Type} (time : TimeCrate) (L : Ledger)
    (wrap : PluginResult TransitionResponse E → Response) (id : String) (settled : Settlement)
    (instant : Int) : Option E → Response × Ledger → Prop
  | refused (e : E) : Answers time L wrap id settled instant (some e)
      (wrap (.error (.domain e)), L)
  | made {a : StoredApproval} {r : TransitionResponse} (ha : L id = some a)
      (hr : Reports time r.field (a.settle settled instant)) :
      Answers time L wrap id settled instant none
        (wrap (.ok r), Function.update L id (some (a.settle settled instant)))

section Ledger

variable {deps : Deps Ctx} {config : ApprovalPolicy} {m : Moments} {L : Ledger}

/-- What the store is asked for is answered so, when what is settled can be presented. -/
theorem settle_answers {E : Type} (hlaw : deps.time.Lawful) (hL : L.Sound) {id : String}
    {refuse : StoredApproval → Option DomainFailure} {set : Settlement} {instant : Int}
    (hinstant : InYears instant) (wrap : PluginResult TransitionResponse E → Response)
    {mapFailure : DomainFailure → E}
    {build : StoredApproval → Except (PluginError E) TransitionResponse}
    (hbuild : ∀ a, Presentable deps.time a → a.status = set.status →
      a.terminalCallerInstance = some set.caller → a.terminalAt = some instant →
      ∃ r, build a = .ok r ∧ Reports deps.time r.field a) :
    L.Answers deps.time wrap id set instant
      (((L id).elim (some .requestNotFound) refuse).map mapFailure)
      (wrap (respondTransition mapFailure build (.ok (L.settle id refuse set instant).1)),
        (L.settle id refuse set instant).2) := by
  have hpresent : ∀ a, (L.settle id refuse set instant).1 = .ok a → Presentable deps.time a
      ∧ a.status = set.status ∧ a.terminalCallerInstance = some set.caller
      ∧ a.terminalAt = some instant := fun a => settle_presentable hlaw hL hinstant
  unfold Ledger.settle at hpresent ⊢
  cases ha : L id with
  | none => exact .refused _
  | some a =>
      rw [ha] at hpresent
      simp only [Option.elim_some] at hpresent ⊢
      cases hr : refuse a with
      | some failure => exact .refused _
      | none =>
          rw [hr] at hpresent
          -- what is settled can be presented, so the response is built
          obtain ⟨hp, hs, hc, ht⟩ := hpresent _ rfl
          obtain ⟨r, hbuilt, hreports⟩ := hbuild _ hp hs hc ht
          simp only [respondTransition, hbuilt, Option.map_none]
          exact .made ha hreports

/-- One who is not permitted is refused, whatever else would be: the rest is about a caller. -/
theorem answers_of_permitted {E : Type} {predicate : ApprovalPolicy → String → Bool}
    {context : Ctx} {forbidden : E} {wrap : PluginResult TransitionResponse E → Response}
    {id : String} {settling : Settling} {instant : Int} {rest : Option E}
    {serve : String → Response × Ledger}
    (h : ∀ caller, deps.callerInstance context = some caller →
      L.Answers deps.time wrap id (settling caller) instant rest (serve caller)) : ∃ caller,
      ((if !permitted deps config context predicate then some forbidden else rest) = none →
        deps.callerInstance context = some caller)
      ∧ L.Answers deps.time wrap id (settling caller) instant
        (if !permitted deps config context predicate then some forbidden else rest)
        (match authorizedCaller deps config context predicate with
        | none => (wrap (.error (.domain forbidden)), L)
        | some caller => serve caller) := by
  cases hp : permitted deps config context predicate with
  | false =>
      rw [unauthorized_of_not_permitted hp]
      exact ⟨"", fun hnone => (by cases hnone), .refused forbidden⟩
  | true =>
      obtain ⟨caller, hc, hauth⟩ := authorized_of_permitted hp
      rw [hauth]
      exact ⟨caller, fun _ => hc, h caller hc⟩

theorem serve_decide_answers (config : ApprovalPolicy) (hlaw : deps.time.Lawful) (hm : m.InYears)
    (hL : L.Sound) (context : Ctx) (body : DecideRequest) : ∃ caller,
      (decideRefusal deps config context body (L body.requestId) = none →
        deps.callerInstance context = some caller)
      ∧ L.Answers deps.time .decide body.requestId (decideSettling body caller) m.settled
        (decideRefusal deps config context body (L body.requestId))
        (L.serve deps config m (.decide context body)) := by
  rw [serve_decide, decideRefusal, firstOf_or, firstOf_cons]
  have hbody : (!(validRequestId body.requestId && validReference body.decidedBy
      && validReference body.evidenceRef && validReason body.reason)) = decisionRefused body := by
    simp only [decisionRefused, Bool.not_and]
  -- what the ledger refuses, in the order of the service
  have hrefusal : firstOf [((L body.requestId).isNone, DecideError.requestNotFound),
        ((L body.requestId).any (fun a => a.status ≠ .pending), .alreadyTerminal)]
      = ((L body.requestId).elim (some .requestNotFound)
          Ledger.refuseSettled).map mapDecideFailure := by
    cases L body.requestId with
    | none => rfl
    | some a =>
        simp only [firstOf_cons, Option.elim_some, Ledger.refuseSettled]
        by_cases hs : a.status = .pending <;> simp [hs, mapDecideFailure]
  rw [hbody, firstOf_cons, hrefusal]
  refine answers_of_permitted fun caller hc => ?_
  cases deps.deniesHumanContext context with
  | true => exact .refused _
  | false =>
      cases decisionRefused body with
      | true => exact .refused _
      | false =>
          refine settle_answers hlaw hL hm.settled .decide fun a hpres hs hcaller hat => ?_
          have hstatus : a.status = .approved ∨ a.status = .rejected := by
            rw [hs, decideSettling]
            cases body.decision with
            | approved => exact Or.inl rfl
            | rejected => exact Or.inr rfl
          obtain ⟨r, hr⟩ := decideResponse_isOk (hpres.evident hcaller hat) hstatus
          exact ⟨r, hr, reports_decide hr⟩

theorem serve_cancel_answers (config : ApprovalPolicy) (hlaw : deps.time.Lawful) (hm : m.InYears)
    (hL : L.Sound) (context : Ctx) (body : CancelRequest) : ∃ caller,
      (cancelRefusal deps config context body (L body.requestId) = none →
        deps.callerInstance context = some caller)
      ∧ L.Answers deps.time .cancel body.requestId (cancelSettling body caller) m.settled
        (cancelRefusal deps config context body (L body.requestId))
        (L.serve deps config m (.cancel context body)) := by
  rw [serve_cancel, cancelRefusal, firstOf_cons]
  have hbody : (!(validRequestId body.requestId && validReference body.cancelledBy
      && validReason body.reason)) = cancellationRefused body := by
    simp only [cancellationRefused, Bool.not_and]
  rw [hbody, firstOf_cons]
  refine answers_of_permitted fun caller hc => ?_
  cases cancellationRefused body with
  | true => exact .refused _
  | false =>
      -- the requester is compared before the status
      have hrefusal : firstOf [((L body.requestId).isNone, CancelError.requestNotFound),
            ((L body.requestId).any
              (fun a => deps.callerInstance context ≠ some a.requesterInstance), .notRequester),
            ((L body.requestId).any (fun a => a.status ≠ .pending), .alreadyTerminal)]
          = ((L body.requestId).elim (some .requestNotFound)
              (Ledger.refuseOthers caller)).map mapCancelFailure := by
        rw [hc]
        cases L body.requestId with
        | none => rfl
        | some a =>
            simp only [firstOf_cons, Option.elim_some, Ledger.refuseOthers, Ledger.refuseSettled]
            by_cases hr : a.requesterInstance = caller
            · by_cases hs : a.status = .pending <;> simp [hr, hs, mapCancelFailure]
            · simp [hr, Ne.symm hr, mapCancelFailure]
      rw [hrefusal]
      refine settle_answers hlaw hL hm.settled .cancel fun a hpres hs hcaller hat => ?_
      obtain ⟨r, hr⟩ := cancelResponse_isOk (hpres.evident hcaller hat) hs
      exact ⟨r, hr, reports_cancel hr⟩

theorem serve_expire_answers (config : ApprovalPolicy) (hlaw : deps.time.Lawful) (hm : m.InYears)
    (hL : L.Sound) (context : Ctx) (body : ExpireRequest) : ∃ caller,
      (expireRefusal deps config context body m.due (L body.requestId) = none →
        deps.callerInstance context = some caller)
      ∧ L.Answers deps.time .expire body.requestId (expireSettling caller) m.settled
        (expireRefusal deps config context body m.due (L body.requestId))
        (L.serve deps config m (.expire context body)) := by
  rw [serve_expire, expireRefusal, firstOf_cons, firstOf_cons]
  refine answers_of_permitted fun caller _ => ?_
  cases validRequestId body.requestId with
  | false => exact .refused _
  | true =>
      -- the deadline is compared last
      have hrefusal : firstOf [((L body.requestId).isNone, ExpireError.requestNotFound),
            ((L body.requestId).any (fun a => a.status ≠ .pending), .alreadyTerminal),
            ((L body.requestId).any (fun a => m.due < a.expiresAt), .notDue)]
          = ((L body.requestId).elim (some .requestNotFound)
              (Ledger.refuseEarly m.due)).map mapExpireFailure := by
        cases L body.requestId with
        | none => rfl
        | some a =>
            simp only [firstOf_cons, Option.elim_some, Ledger.refuseEarly, Ledger.refuseSettled]
            by_cases hs : a.status = .pending
            · by_cases hd : a.expiresAt ≤ m.due
              · simp [hs, hd, Int.not_lt.mpr hd]
              · simp [hs, hd, Int.not_le.mp hd, mapExpireFailure]
            · simp [hs, mapExpireFailure]
      rw [hrefusal]
      refine settle_answers hlaw hL hm.settled .expire fun a hpres hs hcaller hat => ?_
      obtain ⟨r, hr⟩ := expireResponse_isOk (hpres.evident hcaller hat) hs
      exact ⟨r, hr, reports_expire hr⟩

end Ledger

/-! ## On the backends -/

section Backends

variable (B : Backend Clock State Row) (deps : Deps Ctx) (config : ApprovalPolicy)

/-- The outcome of a transition that is answered with the given refusal, or made. -/
structure Outcome {E : Type} (context : Ctx) (s : State)
    (wrap : PluginResult TransitionResponse E → Response) (id : String) (settling : Settling)
    (instant : Int) (refusal : Option E) (result : Response × State) : Prop where
  refused : ∀ e, refusal = some e → result.1 = wrap (.error (.domain e))
    ∧ ∀ id', B.row result.2 id' = B.row s id'
  /-- The caller settles the approval, the response repeats it, and no other row changes. -/
  made : refusal = none → ∃ caller a r, deps.callerInstance context = some caller
    ∧ B.find s id = some a
    ∧ B.find result.2 id = some (a.settle (settling caller) instant)
    ∧ result.1 = wrap (.ok r) ∧ Reports deps.time r.field (a.settle (settling caller) instant)
    ∧ ∀ id', id' ≠ id → B.row result.2 id' = B.row s id'

/-- In every reachable state, every transition has the outcome its refusals specify. -/
structure TransitionsExact (moments : Clock → Moments) : Prop where
  decide : ∀ s, B.Reachable deps config s → ∀ clock, B.inYears clock → ∀ context body,
    Outcome B deps context s .decide body.requestId (decideSettling body) (moments clock).settled
      (decideRefusal deps config context body (B.find s body.requestId))
      (B.serve deps config clock (.decide context body) s)
  cancel : ∀ s, B.Reachable deps config s → ∀ clock, B.inYears clock → ∀ context body,
    Outcome B deps context s .cancel body.requestId (cancelSettling body) (moments clock).settled
      (cancelRefusal deps config context body (B.find s body.requestId))
      (B.serve deps config clock (.cancel context body) s)
  expire : ∀ s, B.Reachable deps config s → ∀ clock, B.inYears clock → ∀ context body,
    Outcome B deps context s .expire body.requestId expireSettling (moments clock).settled
      (expireRefusal deps config context body (moments clock).due (B.find s body.requestId))
      (B.serve deps config clock (.expire context body) s)

variable {B} {deps} {config} {represents : State → Ledger → Prop} {moments : Clock → Moments}

/-- The outcome over a backend is the one over the ledger it stands for. -/
theorem Implements.outcome {E : Type} (hB : Implements B represents moments) {context : Ctx}
    {s s' : State} {L L' : Ledger} (hs : Stands represents s L) (hs' : Stands represents s' L')
    {wrap : PluginResult TransitionResponse E → Response} {id : String} {settling : Settling}
    {caller : String} {instant : Int} {refusal : Option E} {r : Response}
    (hcaller : refusal = none → deps.callerInstance context = some caller)
    (h : L.Answers deps.time wrap id (settling caller) instant refusal (r, L')) :
    Outcome B deps context s wrap id settling instant refusal (r, s') := by
  generalize hL : (r, L') = result at h
  cases h with
  | refused e =>
      cases hL
      refine ⟨fun e' he => ?_, fun h => (by cases h)⟩
      cases he
      exact ⟨rfl, fun id' => hB.row_eq hs'.represents hs.represents id' rfl⟩
  | @made a response ha hreports =>
      cases hL
      refine ⟨fun e he => (by cases he), fun _ => ⟨caller, a, response, hcaller rfl, ?_, ?_, rfl,
        hreports, fun id' hid => ?_⟩⟩
      · rw [hB.find hs.represents, ha]
      · rw [hB.find hs'.represents, Function.update_self]
      · exact hB.row_eq hs'.represents hs.represents id' (Function.update_of_ne hid ..)

theorem Implements.transitionsExact (hB : Implements B represents moments)
    (hlaw : deps.time.Lawful) : TransitionsExact B deps config moments where
  decide s hs clock hclock context body := by
    obtain ⟨L, hL⟩ := hB.reachable hlaw hs
    obtain ⟨hserve, hL'⟩ := hB.stands_serve config hlaw hclock (.decide context body) hL
    obtain ⟨caller, hcaller, h⟩ :=
      serve_decide_answers config hlaw (hB.inYears hclock) hL.sound context body
    rw [hB.find hL.represents, ← Prod.eta (B.serve deps config clock _ s), hserve]
    exact hB.outcome hL hL' hcaller h
  cancel s hs clock hclock context body := by
    obtain ⟨L, hL⟩ := hB.reachable hlaw hs
    obtain ⟨hserve, hL'⟩ := hB.stands_serve config hlaw hclock (.cancel context body) hL
    obtain ⟨caller, hcaller, h⟩ :=
      serve_cancel_answers config hlaw (hB.inYears hclock) hL.sound context body
    rw [hB.find hL.represents, ← Prod.eta (B.serve deps config clock _ s), hserve]
    exact hB.outcome hL hL' hcaller h
  expire s hs clock hclock context body := by
    obtain ⟨L, hL⟩ := hB.reachable hlaw hs
    obtain ⟨hserve, hL'⟩ := hB.stands_serve config hlaw hclock (.expire context body) hL
    obtain ⟨caller, hcaller, h⟩ :=
      serve_expire_answers config hlaw (hB.inYears hclock) hL.sound context body
    rw [hB.find hL.represents, ← Prod.eta (B.serve deps config clock _ s), hserve]
    exact hB.outcome hL hL' hcaller h

end Backends

/-- **Every transition is answered with the first refusal that applies, or made**, on either
backend, in the years 0 to 9999. -/
theorem transitions_exact (deps : Deps Ctx) (h : deps.Lawful) (config : ApprovalPolicy) :
    TransitionsExact (Postgres.backend deps) deps config Postgres.Clock.moments
      ∧ TransitionsExact (D1.backend deps) deps config D1.Clock.moments :=
  ⟨(Postgres.implements h).transitionsExact h.time, (D1.implements h).transitionsExact h.time⟩

theorem transitions_exact_standard :
    TransitionsExact (Postgres.backend Standard.deps) Standard.deps Standard.policy
        Postgres.Clock.moments
      ∧ TransitionsExact (D1.backend Standard.deps) Standard.deps Standard.policy
        D1.Clock.moments :=
  transitions_exact Standard.deps Standard.deps_lawful Standard.policy

/-- **In the year 10000 a decision on D1 is made, and fails all the same.** -/
theorem transitions_too_late : ¬ TransitionsExact (D1.backend Standard.deps).anytime Standard.deps
    Standard.policy D1.Clock.moments := by
  intro h
  have houtcome := h.decide _ (Standard.requested_reachable _) Standard.year10000 trivial
    Standard.console Standard.approve
  have hpermitted : decideRefusal Standard.deps Standard.policy Standard.console Standard.approve
      ((D1.backend Standard.deps).anytime.find (Standard.requested Standard.policy) "apr_expense")
        = none := by
    decide +kernel
  have hfailed : ((D1.backend Standard.deps).anytime.serve Standard.deps Standard.policy
      Standard.year10000 (.decide Standard.console Standard.approve)
      (Standard.requested Standard.policy)).1.runtimeFailure.isSome = true := by
    decide +kernel
  obtain ⟨caller, a, r, -, -, -, hr, -⟩ := houtcome.made hpermitted
  rw [hr] at hfailed
  cases hfailed

end BusinessApproval
