import BusinessApproval.Proof.Retry

/-!
# One deadline, in many notations

A deadline comes as RFC 3339 text with any offset and any number of digits. It is kept as
an instant in whole microseconds, as a `TIMESTAMPTZ`, as an integer of SQLite and as text
again. All of them name the last whole microsecond not after the instant of the text: two
texts give one deadline exactly when they agree on it.
-/

namespace BusinessApproval

open ApprovalService

/-! ## Cutting to microseconds -/

/-- `normalizeTimestamp` gives the last whole microsecond not after an instant. -/
structure Floors (time : TimeCrate) (E : Type) : Prop where
  succeeds : ∀ t, Holdable t →
    ∃ n, (normalizeTimestamp time t : Except (PluginError E) Int) = .ok n
  floor : ∀ t n, (normalizeTimestamp time t : Except (PluginError E) Int) = .ok n →
    n % 1000 = 0 ∧ n ≤ t ∧ ∀ k, k % 1000 = 0 → k ≤ t → k ≤ n
  idempotent : ∀ t n, (normalizeTimestamp time t : Except (PluginError E) Int) = .ok n →
    (normalizeTimestamp time n : Except (PluginError E) Int) = .ok n
  monotone : ∀ t u n k, (normalizeTimestamp time t : Except (PluginError E) Int) = .ok n →
    (normalizeTimestamp time u : Except (PluginError E) Int) = .ok k → t ≤ u → n ≤ k

theorem normalizeTimestamp_of_holdable {time : TimeCrate} (hlaw : time.Lawful) {E : Type} {t : Int}
    (ht : Holdable t) :
    (normalizeTimestamp time t : Except (PluginError E) Int) = .ok (floorMicros t) := by
  obtain ⟨h0, h1⟩ := ht
  simp only [normalizeTimestamp, hlaw.fromNanos]
  rw [if_pos (by omega)]
  rfl

theorem floors {time : TimeCrate} (hlaw : time.Lawful) (E : Type) : Floors time E where
  succeeds t ht := ⟨_, normalizeTimestamp_of_holdable hlaw ht⟩
  floor t n hn := by
    obtain ⟨rfl, -⟩ := normalizeTimestamp_ok hlaw hn
    unfold floorMicros
    exact ⟨by omega, by omega, fun k hk hle => by omega⟩
  idempotent t n hn := by
    have hhold : Holdable t := by
      by_contra hnot
      have hrange : ¬ (-377705116800000000000 ≤ t - t % 1000
          ∧ t - t % 1000 < 253402300800000000000) := by
        unfold Holdable at hnot
        omega
      simp only [normalizeTimestamp, hlaw.fromNanos, if_neg hrange] at hn
      cases hn
    obtain ⟨rfl, -⟩ := normalizeTimestamp_ok hlaw hn
    have hfloor : Holdable (floorMicros t) := by
      obtain ⟨h0, h1⟩ := hhold
      constructor <;> unfold floorMicros <;> omega
    have htwice : floorMicros (floorMicros t) = floorMicros t := by
      unfold floorMicros
      omega
    rw [normalizeTimestamp_of_holdable hlaw hfloor, htwice]
  monotone t u n k hn hk hle := by
    obtain ⟨rfl, -⟩ := normalizeTimestamp_ok hlaw hn
    obtain ⟨rfl, -⟩ := normalizeTimestamp_ok hlaw hk
    unfold floorMicros
    omega

/-! ## On the ledger -/

section Ledger

variable {Ctx : Type} {deps : Deps Ctx} {config : ApprovalPolicy} {m : Moments} {L : Ledger}

/-- An intent that differs in its deadline meets the approval with a conflict. -/
theorem Ledger.request_of_deadline {intent : RequestIntent} {a : StoredApproval}
    (ha : L intent.requestId = some a) (hdeadline : a.expiresAt ≠ intent.expiresAt) :
    L.request intent = (.error .idempotencyConflict, L) := by
  have hsame : ¬ sameIntent a intent = true := fun hs =>
    hdeadline (sameIntent_iff.mp hs).2.2.2.2.2.2.2.2
  unfold Ledger.request
  rw [ha]
  simp only [hsame, Bool.false_eq_true, if_false]

/-- **A request with another deadline text is a replay when the texts name one microsecond.** -/
theorem serve_renamed (hlaw : deps.time.Lawful) (hm : m.InYears) (hL : L.Sound) {caller : String}
    {body : RequestRequest} {requestedAt expiresAt expiresAt' : Int} {a : StoredApproval}
    (ha : L body.requestId = some a)
    (hsame : sameIntent a (intentOf caller body requestedAt (floorMicros expiresAt)) = true)
    {context : Ctx} (hcaller : authorizedCaller deps config context ApprovalPolicy.canRequest
      = some caller)
    {text : String} (hparse : deps.time.parse text = some expiresAt')
    (hpasses : Passes deps.time { body with expiresAt := text } m.now) :
    L.serve deps config m (.request context { body with expiresAt := text })
      = (if floorMicros expiresAt' = floorMicros expiresAt then
          .request (.ok ⟨false, a.requestId, requestStatus a.status, toString a.revision⟩)
        else .request (.error (.domain .idempotencyConflict)), L) := by
  obtain ⟨intent, hadmitted⟩ := admission_of_passes hlaw hm.now caller hpasses
  obtain ⟨e, he, hintent⟩ := (admission_ok hlaw hm.now hadmitted).deadline
  obtain rfl : e = expiresAt' := Option.some.inj (he.symm.trans hparse)
  rw [serve_request, hcaller]
  simp only [hadmitted]
  subst hintent
  by_cases heq : floorMicros e = floorMicros expiresAt
  · -- the intents differ only in when they were requested
    have hsame' : sameIntent a (intentOf caller { body with expiresAt := text }
        (floorMicros m.now) (floorMicros e)) = true := by
      rw [heq]
      exact hsame
    have hreq : L.request (intentOf caller { body with expiresAt := text } (floorMicros m.now)
        (floorMicros e)) = (.ok ⟨false, a⟩, L) := Ledger.request_of_sameIntent ha hsame'
    rw [hreq, if_pos heq, respondRequest,
      (presentable_of_sound hlaw (hL.approvals ha)).revisionString]
    rfl
  · -- the id is taken by an approval with another deadline
    have hdeadline : a.expiresAt ≠ floorMicros e := fun h =>
      heq (h.symm.trans (sameIntent_iff.mp hsame).2.2.2.2.2.2.2.2)
    have hreq : L.request (intentOf caller { body with expiresAt := text } (floorMicros m.now)
        (floorMicros e)) = (.error .idempotencyConflict, L) :=
      Ledger.request_of_deadline ha hdeadline
    rw [hreq, if_neg heq]
    rfl

end Ledger

/-! ## On the backends -/

section Backends

variable {Ctx Clock State Row : Type}

/--
The `i`th call of a run is a request that succeeds. The `j`th call is the same caller's,
is admitted too, and differs at most in the text of the deadline and the time.
-/
structure Renames (B : Backend Clock State Row) (now : Clock → Int) (deps : Deps Ctx)
    (config : ApprovalPolicy) (calls : List (Clock × ServiceCall Ctx)) (i j : Nat) (clock : Clock)
    (context : Ctx) (body : RequestRequest) (text : String) : Prop where
  timely : B.Timely calls
  order : i < j
  first : ∃ clock₀ context₀ r, calls[i]? = some (clock₀, .request context₀ body)
    ∧ (B.run deps config calls B.empty).1[i]? = some (.request (.ok r))
    ∧ deps.callerInstance context = deps.callerInstance context₀
  again : calls[j]? = some (clock, .request context { body with expiresAt := text })
  passes : Passes deps.time { body with expiresAt := text } (now clock)

/-- A response that only an admitted request gets. -/
def Response.IsAdmitted (r : Response) : Prop :=
  (∃ out, r = .request (.ok out)) ∨ r = .request (.error (.domain .idempotencyConflict))

/-- A deadline is the whole microsecond of its text. -/
structure DeadlineRule (B : Backend Clock State Row) (now : Clock → Int) (deps : Deps Ctx)
    (config : ApprovalPolicy) : Prop where
  /-- The same microsecond makes a replay, and another one a conflict. -/
  identity : ∀ calls i j clock context body text,
    Renames B now deps config calls i j clock context body text →
    ∀ r, (B.run deps config calls B.empty).1[j]? = some r →
    ∃ expiresAt expiresAt', deps.time.parse body.expiresAt = some expiresAt
      ∧ deps.time.parse text = some expiresAt'
      ∧ (AnsweredByRow B (B.before deps config calls B.empty j)
          (B.before deps config calls B.empty (j + 1)) body r
        ↔ floorMicros expiresAt' = floorMicros expiresAt)
      ∧ (floorMicros expiresAt' ≠ floorMicros expiresAt →
        r = .request (.error (.domain .idempotencyConflict))
          ∧ ∀ id, B.row (B.before deps config calls B.empty (j + 1)) id
            = B.row (B.before deps config calls B.empty j) id)
  admitted : ∀ s, B.Reachable deps config s → ∀ clock, B.inYears clock → ∀ context body,
    (B.serve deps config clock (.request context body) s).1.IsAdmitted →
    ∃ expiresAt, deps.time.parse body.expiresAt = some expiresAt
      ∧ floorMicros (now clock) < floorMicros expiresAt

variable {B : Backend Clock State Row} {represents : State → Ledger → Prop}
  {moments : Clock → Moments} {deps : Deps Ctx} {config : ApprovalPolicy}

theorem serve_admitted {m : Moments} {L : Ledger} (hlaw : deps.time.Lawful) (hm : m.InYears)
    {context : Ctx} {body : RequestRequest}
    (h : (L.serve deps config m (.request context body)).1.IsAdmitted) :
    ∃ expiresAt, deps.time.parse body.expiresAt = some expiresAt
      ∧ floorMicros m.now < floorMicros expiresAt := by
  rw [serve_request] at h
  cases hc : authorizedCaller deps config context ApprovalPolicy.canRequest with
  | none => rw [hc] at h; rcases h with ⟨out, h⟩ | h <;> cases h
  | some caller =>
      rw [hc] at h
      simp only at h
      cases ha : admission deps.time caller body m.now with
      | ok intent =>
          have hadmits := admission_ok hlaw hm.now ha
          obtain ⟨expiresAt, hp, rfl⟩ := hadmits.deadline
          exact ⟨expiresAt, hp, hadmits.order⟩
      | error e =>
          rw [ha] at h
          rcases h with ⟨out, h⟩ | h
          · cases h
          · cases h
            cases admission_refusal ha

theorem Implements.deadlineRule (hB : Implements B represents moments) (hlaw : deps.time.Lawful) :
    DeadlineRule B (fun clock => (moments clock).now) deps config where
  identity calls i j clock context body text h r hr := by
    obtain ⟨clock₀, context₀, r₀, hi, hri, hcaller⟩ := h.first
    have hyears₀ := hB.inYears (h.timely _ (List.mem_of_getElem? hi))
    have hclock := h.timely _ (List.mem_of_getElem? h.again)
    obtain ⟨caller, intent, L, a, hauth, hadmitted, -, hL, ha, hsame⟩ :=
      hB.left_by config hlaw h.timely h.order hi hri
    obtain ⟨expiresAt, hp, rfl⟩ := (admission_ok hlaw hyears₀.now hadmitted).deadline
    obtain ⟨-, expiresAt', hp', -, -⟩ := h.passes
    obtain ⟨hserve, hL'⟩ := hB.stands_serve config hlaw hclock
      (.request context { body with expiresAt := text }) hL
    rw [Backend.run_getElem?, h.again, Option.map_some, Option.some.injEq, hserve] at hr
    rw [← Backend.before_succ h.again] at hL'
    have hauth' : authorizedCaller deps config context ApprovalPolicy.canRequest = some caller := by
      rw [← hauth, authorizedCaller, authorizedCaller, hcaller]
    have hanswer := serve_renamed hlaw (hB.inYears hclock) hL.sound ha hsame hauth' hp' h.passes
    rw [hanswer] at hr hL'
    have hunchanged : ∀ id, B.row (B.before deps config calls B.empty (j + 1)) id
        = B.row (B.before deps config calls B.empty j) id := fun id =>
      hB.row_eq hL'.represents hL.represents id rfl
    refine ⟨expiresAt, expiresAt', hp, hp', ⟨?_, fun heq => ?_⟩, fun hne => ?_⟩
    · rintro ⟨⟨row, b, -, -, hresponse⟩, -⟩
      by_contra hne
      rw [if_neg hne, hresponse] at hr
      cases hr
    · have hid : a.requestId = body.requestId := hL.sound.wellKeyed.ids ha
      rw [if_pos heq, hid] at hr
      have hfind := hB.find hL.represents body.requestId
      rw [show L body.requestId = some a from ha] at hfind
      obtain ⟨row, hrow, hdecodes⟩ := Option.bind_eq_some_iff.mp hfind
      exact ⟨⟨row, a, hrow, hdecodes, hr.symm⟩, hunchanged⟩
    · rw [if_neg hne] at hr
      exact ⟨hr.symm, hunchanged⟩
  admitted s hs clock hclock context body h := by
    obtain ⟨L, hL⟩ := hB.reachable hlaw hs
    rw [(hB.stands_serve config hlaw hclock (.request context body) hL).1] at h
    exact serve_admitted hlaw (hB.inYears hclock) h

end Backends

/-! ## The integers of D1 -/

namespace D1

/-- A row's integer is its record's deadline, and is compared with the clock as that is. -/
structure DeadlineExact (row : D1Row) (a : StoredApproval) : Prop where
  micros : row.expiresUs * 1000 = a.expiresAt
  inRange : Decimal.minInt64 ≤ row.expiresUs ∧ row.expiresUs ≤ Decimal.maxInt64
  compared : ∀ ms, InYears (ms * 1000000) →
    Decimal.castInteger (microsText ms) = ms * 1000
      ∧ ∀ caller, constraint .expire caller (microsText ms) row = true
        ↔ a.expiresAt ≤ ms * 1000000

theorem StandsFor.deadlineExact {time : TimeCrate} {row : D1Row} {a : StoredApproval}
    (h : StandsFor time row a) (hsound : a.Sound) : DeadlineExact row a where
  micros := h.expiresUs
  inRange := by
    obtain ⟨hlow, hhigh⟩ := hsound.expiresAt.1
    have hmicros := h.expiresUs
    constructor
    · unfold Decimal.minInt64
      omega
    · unfold Decimal.maxInt64
      omega
  compared ms hms := by
    refine ⟨castInteger_microsText hms, fun caller => ?_⟩
    have hmicros := h.expiresUs
    rw [constraint, castInteger_microsText hms, decide_eq_true_iff]
    omega

/-- Every row of every reachable table keeps its deadline exactly. -/
def IntegersExact {Ctx : Type} (deps : Deps Ctx) (config : ApprovalPolicy) : Prop :=
  ∀ table, (backend deps).Reachable deps config table → ∀ id row, lookup table id = some row →
    ∃ a, StoredApproval.ofJson deps.time row.recordJson = some a ∧ DeadlineExact row a

theorem integersExact {Ctx : Type} {deps : Deps Ctx} (h : deps.Lawful) (config : ApprovalPolicy) :
    IntegersExact deps config := by
  intro table htable id row hrow
  obtain ⟨L, hL⟩ := (implements h).reachable h.time htable
  obtain ⟨a, ha, hstands⟩ := hL.represents.of_lookup hrow
  exact ⟨a, hstands.decodes, hstands.deadlineExact (hL.sound.approvals ha)⟩

end D1

section Backends

variable {Ctx : Type}

/--
**Deadlines are identified by their microsecond**, however they are written, in the years 0
to 9999.

On both backends the microsecond decides whether a request is admitted, and whether it is a
replay. `normalizeTimestamp` finds it for every error type `E`, and D1's integers keep it.
-/
theorem deadlines_by_microsecond (deps : Deps Ctx) (h : deps.Lawful) (config : ApprovalPolicy) :
    DeadlineRule (Postgres.backend deps) (fun clock => clock.nowUtc) deps config
      ∧ DeadlineRule (D1.backend deps) (fun clock => clock.dateNow * 1000000) deps config
      ∧ (∀ E, Floors deps.time E) ∧ D1.IntegersExact deps config :=
  ⟨(Postgres.implements h).deadlineRule h.time, (D1.implements h).deadlineRule h.time,
    floors h.time, D1.integersExact h config⟩

theorem deadlines_by_microsecond_standard :
    DeadlineRule (Postgres.backend Standard.deps) (fun clock => clock.nowUtc) Standard.deps
        Standard.policy
      ∧ DeadlineRule (D1.backend Standard.deps) (fun clock => clock.dateNow * 1000000)
        Standard.deps Standard.policy
      ∧ (∀ E, Floors Standard.deps.time E) ∧ D1.IntegersExact Standard.deps Standard.policy :=
  deadlines_by_microsecond Standard.deps Standard.deps_lawful Standard.policy

end Backends

end BusinessApproval
