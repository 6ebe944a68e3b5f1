import BusinessApproval.Proof.Equivalence

/-!
# Retrying a request

A request repeated with the same body by the same caller finds the approval of the
first attempt, whatever has become of it, and is answered with its current status.
But it has to pass the admission checks again, and these compare the deadline with
the clock: from the deadline on, the retry is refused. `retry_iff` says that this is
the only way in which a retry can fail.
-/

namespace BusinessApproval

open ApprovalService

section Ledger

variable {Ctx : Type} {deps : Deps Ctx} {config : ApprovalPolicy} {m : Moments} {L : Ledger}

/-- The intents of one body and one caller differ only in when they were requested. -/
theorem sameIntent_retry (a : StoredApproval) (caller : String) (body : RequestRequest)
    (requestedAt requestedAt' expiresAt : Int) :
    sameIntent a (intentOf caller body requestedAt expiresAt)
      = sameIntent a (intentOf caller body requestedAt' expiresAt) := rfl

/-- A request that succeeds leaves an approval with its intent. -/
theorem request_leaves {intent : RequestIntent} {out : RequestOutcome}
    (ho : (L.request intent).1 = .ok out) :
    ∃ a, (L.request intent).2 intent.requestId = some a ∧ sameIntent a intent = true := by
  unfold Ledger.request at ho ⊢
  cases hL : L intent.requestId with
  | some a =>
      rw [hL] at ho
      simp only at ho ⊢
      split at ho
      next hsame =>
        rw [if_pos hsame]
        exact ⟨a, hL, hsame⟩
      next => cases ho
  | none =>
      rw [hL] at ho
      simp only at ho ⊢
      split at ho
      next => cases ho
      next hfree =>
        rw [if_neg hfree]
        exact ⟨_, Function.update_self .., StoredApproval.sameIntent_ofIntent intent⟩

/-- What passes the checks of `request` once passes them again before the deadline, and not after. -/
theorem admission_again (hlaw : deps.time.Lawful) {caller : String} {body : RequestRequest}
    {now now' : Int} (hnow : InYears now) (hnow' : InYears now') {intent : RequestIntent}
    (h : admission deps.time caller body now = .ok intent) :
    admission deps.time caller body now'
      = if floorMicros now' < intent.expiresAt then
          .ok (intentOf caller body (floorMicros now') intent.expiresAt)
        else .error (.domain .invalidRequest) := by
  have hadmits := admission_ok hlaw hnow h
  obtain ⟨expiresAt, hp, rfl⟩ := hadmits.deadline
  have hn : (normalizeTimestamp deps.time expiresAt : Except (PluginError RequestError) Int)
      = .ok (floorMicros expiresAt) :=
    normalizeTimestamp_of_floor hlaw hadmits.expiresAt.1
  have hrefused : bodyRefused body (floorMicros now') (floorMicros expiresAt) = false
      ↔ floorMicros now' < floorMicros expiresAt := by
    rw [bodyRefused_eq_false]
    exact ⟨fun h => h.2, fun h => ⟨hadmits.fields, h⟩⟩
  unfold admission
  rw [normalizeTimestamp_of_inYears hlaw hnow', hp]
  simp only [bind, Except.bind, hn, intentOf]
  by_cases hlt : floorMicros now' < floorMicros expiresAt
  · simp only [hrefused.mpr hlt, hlt, Bool.false_eq_true, if_false, if_true]
    rfl
  · have htrue : bodyRefused body (floorMicros now') (floorMicros expiresAt) = true := by
      rw [← Bool.not_eq_false, hrefused]
      exact hlt
    simp only [htrue, hlt, if_true, if_false]
    rfl

/-- What a request does once its body has been admitted and its approval stands. -/
theorem serve_retry (hlaw : deps.time.Lawful) (hm : m.InYears) (hL : L.Sound) {caller : String}
    {body : RequestRequest} {now : Int} (hnow : InYears now) {intent : RequestIntent}
    (hadmitted : admission deps.time caller body now = .ok intent) {context : Ctx}
    (hcaller : authorizedCaller deps config context ApprovalPolicy.canRequest = some caller)
    {a : StoredApproval} (ha : L intent.requestId = some a) (hsame : sameIntent a intent = true) :
    L.serve deps config m (.request context body)
      = (if floorMicros m.now < intent.expiresAt then
          .request (.ok ⟨false, a.requestId, requestStatus a.status, toString a.revision⟩)
        else .request (.error (.domain .invalidRequest)), L) := by
  obtain ⟨expiresAt, hp, rfl⟩ := (admission_ok hlaw hnow hadmitted).deadline
  rw [serve_request, hcaller]
  simp only
  rw [admission_again hlaw hnow hm.now hadmitted]
  by_cases hlt : floorMicros m.now < (intentOf caller body (floorMicros now)
      (floorMicros expiresAt)).expiresAt
  · have hsame' := (sameIntent_retry a caller body (floorMicros m.now) (floorMicros now)
      (floorMicros expiresAt)).trans hsame
    have hreq : L.request (intentOf caller body (floorMicros m.now)
        (intentOf caller body (floorMicros now) (floorMicros expiresAt)).expiresAt)
          = (.ok ⟨false, a⟩, L) := Ledger.request_of_sameIntent ha hsame'
    simp only [hlt, if_true, hreq, respondRequest,
      (presentable_of_sound hlaw (hL.approvals ha)).revisionString]
    rfl
  · simp only [hlt, if_false]

/-- A request that was answered was admitted, and its approval stands. -/
theorem serve_answered (hlaw : deps.time.Lawful) (hm : m.InYears) {context : Ctx}
    {body : RequestRequest} {r : RequestResponse}
    (h : (L.serve deps config m (.request context body)).1 = .request (.ok r)) :
    ∃ caller intent a,
      authorizedCaller deps config context ApprovalPolicy.canRequest = some caller
        ∧ admission deps.time caller body m.now = .ok intent ∧ intent.requestId = body.requestId
        ∧ (L.serve deps config m (.request context body)).2 intent.requestId = some a
        ∧ sameIntent a intent = true := by
  revert h
  rw [serve_request]
  cases authorizedCaller deps config context ApprovalPolicy.canRequest with
  | none => intro h; cases h
  | some caller =>
      simp only
      cases hadmitted : admission deps.time caller body m.now with
      | error e => intro h; cases h
      | ok intent =>
          intro h
          simp only at h ⊢
          cases ho : (L.request intent).1 with
          | error failure => rw [ho] at h; cases h
          | ok out =>
              obtain ⟨a, ha, hsame⟩ := request_leaves ho
              obtain ⟨expiresAt, -, rfl⟩ := (admission_ok hlaw hm.now hadmitted).deadline
              exact ⟨caller, _, a, rfl, hadmitted, rfl, ha, hsame⟩

end Ledger

/-! ## Retries in a run -/

section Runs

variable {Ctx Clock State Row : Type}

/-- The answer to a retry: the stored approval's status and revision, with nothing changed. -/
structure AnsweredByRow (B : Backend Clock State Row) (s s' : State) (body : RequestRequest)
    (r : Response) : Prop where
  answer : ∃ row a, B.row s body.requestId = some row ∧ B.approval row = some a
    ∧ r = .request (.ok ⟨false, body.requestId, requestStatus a.status, toString a.revision⟩)
  unchanged : ∀ id, B.row s' id = B.row s id

/-- The `i`th call of a run is a request that succeeds, and the `j`th repeats it. -/
structure Repeats (B : Backend Clock State Row) (deps : Deps Ctx) (config : ApprovalPolicy)
    (calls : List (Clock × ServiceCall Ctx)) (i j : Nat) (clock : Clock) (context : Ctx)
    (body : RequestRequest) : Prop where
  timely : B.Timely calls
  order : i < j
  first : ∃ clock₀ context₀ r, calls[i]? = some (clock₀, .request context₀ body)
    ∧ (B.run deps config calls B.empty).1[i]? = some (.request (.ok r))
    ∧ deps.callerInstance context = deps.callerInstance context₀
  again : calls[j]? = some (clock, .request context body)

/-- Retries are answered by the stored row exactly before the deadline, in whole microseconds. -/
def RetryRule (B : Backend Clock State Row) (now : Clock → Int) (deps : Deps Ctx)
    (config : ApprovalPolicy) : Prop :=
  ∀ calls i j clock context body, Repeats B deps config calls i j clock context body →
    ∀ r, (B.run deps config calls B.empty).1[j]? = some r →
      (AnsweredByRow B (B.before deps config calls B.empty j)
          (B.before deps config calls B.empty (j + 1)) body r
        ↔ ∃ expiresAt, deps.time.parse body.expiresAt = some expiresAt
          ∧ floorMicros (now clock) < floorMicros expiresAt)

/-- What the first attempt left is there when a later call comes, further on in its life. -/
theorem Implements.left_by {B : Backend Clock State Row} {represents : State → Ledger → Prop}
    {moments : Clock → Moments} {deps : Deps Ctx} (config : ApprovalPolicy)
    (hB : Implements B represents moments) (hlaw : deps.time.Lawful)
    {calls : List (Clock × ServiceCall Ctx)} (htimely : B.Timely calls) {i j : Nat} (hij : i < j)
    {clock : Clock} {context : Ctx} {body : RequestRequest} {r : RequestResponse}
    (hi : calls[i]? = some (clock, .request context body))
    (hr : (B.run deps config calls B.empty).1[i]? = some (.request (.ok r))) :
    ∃ caller intent L a,
      authorizedCaller deps config context ApprovalPolicy.canRequest = some caller
        ∧ admission deps.time caller body (moments clock).now = .ok intent
        ∧ intent.requestId = body.requestId
        ∧ Stands represents (B.before deps config calls B.empty j) L
        ∧ L intent.requestId = some a ∧ sameIntent a intent = true := by
  obtain ⟨L₀, hL₀⟩ := hB.stands_before config hlaw htimely i
  have hclock := htimely _ (List.mem_of_getElem? hi)
  rw [Backend.run_getElem?, hi, Option.map_some, Option.some.injEq] at hr
  obtain ⟨hserve, hL₁⟩ := hB.stands_serve config hlaw hclock (.request context body) hL₀
  rw [hserve] at hr
  obtain ⟨caller, intent, a, hauth, hadmitted, hid, ha, hsame⟩ :=
    serve_answered hlaw (hB.inYears hclock) hr
  rw [← Backend.before_succ hi] at hL₁
  obtain ⟨L, hL, hev⟩ := hB.stands_between config hlaw htimely hij hL₁
  obtain ⟨b, hb, hab⟩ := hev _ a ha
  exact ⟨caller, intent, L, b, hauth, hadmitted, hid, hL, hb, by rw [hab.sameIntent, hsame]⟩

theorem Implements.retryRule {B : Backend Clock State Row} {represents : State → Ledger → Prop}
    {moments : Clock → Moments} {deps : Deps Ctx} (config : ApprovalPolicy)
    (hB : Implements B represents moments) (hlaw : deps.time.Lawful) :
    RetryRule B (fun clock => (moments clock).now) deps config := by
  intro calls i j clock context body h r hr
  obtain ⟨clock₀, context₀, r₀, hi, hri, hcaller⟩ := h.first
  have hyears₀ := hB.inYears (h.timely _ (List.mem_of_getElem? hi))
  obtain ⟨caller, intent, L₂, b, hauth, hadmitted, hid, hL₂, hb, hsame'⟩ :=
    hB.left_by config hlaw h.timely h.order hi hri
  have hclock := h.timely _ (List.mem_of_getElem? h.again)
  obtain ⟨hserve, hL₃⟩ := hB.stands_serve config hlaw hclock (.request context body) hL₂
  rw [Backend.run_getElem?, h.again, Option.map_some, Option.some.injEq, hserve] at hr
  rw [← Backend.before_succ h.again] at hL₃
  have hauth' : authorizedCaller deps config context ApprovalPolicy.canRequest = some caller := by
    rw [← hauth, authorizedCaller, authorizedCaller, hcaller]
  have hretry :=
    serve_retry hlaw (hB.inYears hclock) hL₂.sound hyears₀.now hadmitted hauth' hb hsame'
  rw [hretry] at hr hL₃
  -- a retry writes nothing, whatever its answer
  have hunchanged : ∀ id, B.row (B.before deps config calls B.empty (j + 1)) id
      = B.row (B.before deps config calls B.empty j) id := fun id =>
    hB.row_eq hL₃.represents hL₂.represents id rfl
  obtain ⟨expiresAt, hp, hintent⟩ := (admission_ok hlaw hyears₀.now hadmitted).deadline
  have hexpires : intent.expiresAt = floorMicros expiresAt := by rw [hintent]; rfl
  -- the deadline both calls name is the one that was stored
  have hbid : b.requestId = body.requestId := (hL₂.sound.wellKeyed.ids hb).trans hid
  constructor
  · rintro ⟨⟨row, a', hrow, ha', hresponse⟩, -⟩
    refine ⟨expiresAt, hp, ?_⟩
    rw [← hexpires]
    by_contra hlate
    rw [if_neg hlate, hresponse] at hr
    cases hr
  · rintro ⟨expiresAt', hp', hlt⟩
    rw [hp] at hp'
    cases hp'
    rw [← hexpires] at hlt
    rw [if_pos hlt, hbid] at hr
    have hfind := hB.find hL₂.represents body.requestId
    rw [← hid, hb] at hfind
    obtain ⟨row, hrow, hdecodes⟩ := Option.bind_eq_some_iff.mp hfind
    exact ⟨⟨row, b, hid ▸ hrow, hdecodes, hr.symm⟩, hunchanged⟩

/--
**On either backend a retry is answered by the stored row exactly before the deadline.**

The instants compared are the clock read of the retry and the deadline of the body,
both cut to whole microseconds.
-/
theorem retry_iff (deps : Deps Ctx) (h : deps.Lawful) (config : ApprovalPolicy) :
    RetryRule (Postgres.backend deps) (fun clock => clock.nowUtc) deps config
      ∧ RetryRule (D1.backend deps) (fun clock => clock.dateNow * 1000000) deps config :=
  ⟨(Postgres.implements h).retryRule config h.time, (D1.implements h).retryRule config h.time⟩

theorem retry_iff_standard :
    RetryRule (Postgres.backend Standard.deps) (fun clock => clock.nowUtc) Standard.deps
        Standard.policy
      ∧ RetryRule (D1.backend Standard.deps) (fun clock => clock.dateNow * 1000000) Standard.deps
        Standard.policy :=
  retry_iff Standard.deps Standard.deps_lawful Standard.policy

/-- Retries are always answered by the stored row. -/
def AlwaysIdempotent (B : Backend Clock State Row) (deps : Deps Ctx) (config : ApprovalPolicy) :
    Prop :=
  ∀ calls i j clock context body, Repeats B deps config calls i j clock context body →
    ∀ r, (B.run deps config calls B.empty).1[j]? = some r →
      AnsweredByRow B (B.before deps config calls B.empty j)
        (B.before deps config calls B.empty (j + 1)) body r

/-- A request until the first second of 1970 has passed, and the same request at that instant. -/
def lateRetry {Clock : Type} (clock : Int → Clock) : List (Clock × ServiceCall Standard.Context) :=
  [(clock 0, .request Standard.client (Standard.expense "1970-01-01T00:00:01Z")),
    (clock 1000, .request Standard.client (Standard.expense "1970-01-01T00:00:01Z"))]

/-- When the first of two requests succeeds and the other is refused, retries do not always work. -/
theorem not_idempotent_of_refused {B : Backend Clock State Row} (clock : Int → Clock)
    (r : RequestResponse) (htimely : B.Timely (lateRetry clock))
    (hresponses : (B.run Standard.deps Standard.policy (lateRetry clock) B.empty).1
      = [.request (.ok r), .request (.error (.domain .invalidRequest))]) :
    ¬ AlwaysIdempotent B Standard.deps Standard.policy := by
  intro h
  have hrepeats : Repeats B Standard.deps Standard.policy (lateRetry clock) 0 1 (clock 1000)
      Standard.client (Standard.expense "1970-01-01T00:00:01Z") :=
    ⟨htimely, by decide, ⟨clock 0, Standard.client, r, rfl, by rw [hresponses]; rfl, rfl⟩, rfl⟩
  obtain ⟨row, a, -, -, hr⟩ := (h _ _ _ _ _ _ hrepeats _ (by rw [hresponses]; rfl)).answer
  cases hr

/-- **On both backends, a retry at the deadline is refused as invalid.** -/
theorem not_alwaysIdempotent :
    ¬ AlwaysIdempotent (Postgres.backend Standard.deps) Standard.deps Standard.policy
      ∧ ¬ AlwaysIdempotent (D1.backend Standard.deps) Standard.deps Standard.policy := by
  have hyears : ∀ ms : Int, ms = 0 ∨ ms = 1000 → InYears (ms * 1000000) := by
    rintro ms (rfl | rfl) <;> exact ⟨by decide, by decide⟩
  constructor
  · refine not_idempotent_of_refused Postgres.Clock.atMillis
      ⟨true, "apr_expense", .pending, "1"⟩ (fun c hc => ?_) rfl
    rcases List.mem_cons.mp hc with rfl | hc
    · exact ⟨hyears 0 (Or.inl rfl), hyears 0 (Or.inl rfl)⟩
    · rw [List.mem_singleton.mp hc]
      exact ⟨hyears 1000 (Or.inr rfl), hyears 1000 (Or.inr rfl)⟩
  · refine not_idempotent_of_refused D1.Clock.atMillis
      ⟨true, "apr_expense", .pending, "1"⟩ (fun c hc => ?_) rfl
    rcases List.mem_cons.mp hc with rfl | hc
    · exact ⟨hyears 0 (Or.inl rfl), hyears 0 (Or.inl rfl)⟩
    · rw [List.mem_singleton.mp hc]
      exact ⟨hyears 1000 (Or.inr rfl), hyears 1000 (Or.inr rfl)⟩

end Runs

end BusinessApproval
