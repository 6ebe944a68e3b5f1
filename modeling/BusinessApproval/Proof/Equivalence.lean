import BusinessApproval.Proof.Responses
import BusinessApproval.Proof.Serving
import BusinessApproval.Proof.Standard

/-!
# The two backends are observably the same

Related tables stand for one ledger, and with clocks that show the same whole
milliseconds both backends do with it what the ledger does. They therefore give the
same responses for ever after. A response is a success or a domain error, except
where a request's deadline is beyond what the `time` crate can hold: both then fail
in the same way.
-/

namespace BusinessApproval

open ApprovalService

/-- The failure of the runtime that a response carries, if it is one. -/
def Response.runtimeFailure : Response → Option RuntimeFailure
  | .request (.error (.runtime failure)) => some failure
  | .decide (.error (.runtime failure)) => some failure
  | .cancel (.error (.runtime failure)) => some failure
  | .read (.error (.runtime failure)) => some failure
  | .expire (.error (.runtime failure)) => some failure
  | _ => none

/-! ## When the service fails -/

section Failures

variable {Ctx : Type} {deps : Deps Ctx} {config : ApprovalPolicy}

theorem presentable_of_sound {time : TimeCrate} (hlaw : time.Lawful) {a : StoredApproval}
    (h : a.Sound) : Presentable time a where
  revision := by
    rw [h.revision]
    split <;> decide
  requestedAt := by
    obtain ⟨text, htext, -⟩ := hlaw.parse_format _ h.requestedAt.1
    exact ⟨text, htext⟩
  expiresAt := by
    obtain ⟨text, htext, -⟩ := hlaw.parse_format _ h.expiresAt.1
    exact ⟨text, htext⟩
  terminalAt t ht := by
    obtain ⟨text, htext, -⟩ := hlaw.parse_format _ (h.terminalAt t ht)
    exact ⟨text, htext⟩

/-- The checks of `request` fail in the runtime only for a deadline out of range. -/
theorem admission_runtime {time : TimeCrate} (hlaw : time.Lawful) {caller : String}
    {body : RequestRequest} {now : Int} (hnow : InYears now) {failure : RuntimeFailure}
    (h : admission time caller body now = .error (.runtime failure)) :
    ∃ expiresAt, time.parse body.expiresAt = some expiresAt ∧ ¬ Holdable expiresAt
      ∧ failure = .internal "Business Approval: timestamp is outside PostgreSQL range" := by
  unfold admission at h
  rw [normalizeTimestamp_of_inYears hlaw hnow] at h
  simp only [bind, Except.bind] at h
  cases hp : time.parse body.expiresAt with
  | none => rw [hp] at h; cases h
  | some expiresAt =>
      rw [hp] at h
      simp only [normalizeTimestamp, hlaw.fromNanos] at h
      by_cases hr : -377705116800000000000 ≤ expiresAt - expiresAt % 1000
          ∧ expiresAt - expiresAt % 1000 < 253402300800000000000
      -- it can be held, so only the fields can be wrong
      · simp only [hr, and_self, if_true] at h
        split at h <;> cases h
      · simp only [hr, if_false] at h
        cases h
        exact ⟨expiresAt, rfl, fun hhold => hr (by unfold Holdable at hhold; omega), rfl⟩

/-- A transition's response is no runtime failure when it can be built. -/
theorem transition_runtimeFailure {E : Type} {mapFailure : DomainFailure → E}
    {build : StoredApproval → Except (PluginError E) TransitionResponse}
    (wrap : PluginResult TransitionResponse E → Response)
    (herror : ∀ e, (wrap (.error (.domain e))).runtimeFailure = none)
    (hok : ∀ r, (wrap (.ok r)).runtimeFailure = none)
    {answer : Except DomainFailure StoredApproval}
    (hbuild : ∀ a, answer = .ok a → ∃ r, build a = .ok r) :
    (wrap (respondTransition mapFailure build (.ok answer))).runtimeFailure = none := by
  cases answer with
  | error e => exact herror _
  | ok a =>
      obtain ⟨r, hr⟩ := hbuild a rfl
      rw [respondTransition, hr]
      exact hok r

/-- A settled approval can be presented, and shows who settled it and when. -/
theorem settle_presentable (hlaw : deps.time.Lawful) {L : Ledger} (hL : L.Sound) {id : String}
    {refuse : StoredApproval → Option DomainFailure} {set : Settlement} {instant : Int}
    (hinstant : InYears instant) {a : StoredApproval}
    (ha : (L.settle id refuse set instant).1 = .ok a) : Presentable deps.time a
      ∧ a.status = set.status ∧ a.terminalCallerInstance = some set.caller
      ∧ a.terminalAt = some instant := by
  obtain ⟨b, hb, -, rfl⟩ := Ledger.settle_eq ha
  have hsound := presentable_of_sound hlaw (hL.approvals hb)
  refine ⟨⟨(by decide : ¬ (2 : Int) < 1), hsound.requestedAt, hsound.expiresAt, fun t ht => ?_⟩,
    rfl, rfl, rfl⟩
  cases ht
  obtain ⟨text, htext, -⟩ := hlaw.parse_format _ hinstant
  exact ⟨text, htext⟩

/-- An allowed caller requests an approval until an instant that cannot be held in UTC. -/
def BeyondCalendar (deps : Deps Ctx) (config : ApprovalPolicy) (call : ServiceCall Ctx) : Prop :=
  ∃ context body caller expiresAt, call = .request context body
    ∧ authorizedCaller deps config context ApprovalPolicy.canRequest = some caller
    ∧ deps.time.parse body.expiresAt = some expiresAt ∧ ¬ Holdable expiresAt

section Calls

variable {m : Moments} {L : Ledger} {call : ServiceCall Ctx}

/-- A call that is turned away fails in the runtime only for a deadline out of range. -/
theorem TurnedAway.runtimeFailure (hlaw : deps.time.Lawful) (hm : m.InYears) {r : Response}
    (h : TurnedAway deps config m call r) {failure : RuntimeFailure}
    (hfailure : r.runtimeFailure = some failure) : BeyondCalendar deps config call
      ∧ failure = .internal "Business Approval: timestamp is outside PostgreSQL range" := by
  cases h with
  | @notAdmitted context body caller e hcaller hadmission =>
      cases e with
      | domain e => cases hfailure
      | runtime f =>
          cases hfailure
          obtain ⟨expiresAt, hparse, hhold, hf⟩ := admission_runtime hlaw hm.now hadmission
          exact ⟨⟨context, body, caller, expiresAt, rfl, hcaller, hparse, hhold⟩, hf⟩
  | forbidden | decide | cancel | read | expire => cases hfailure

/-- The response to a transition can be built from what the ledger answers. -/
theorem Asks.runtimeFailure (hlaw : deps.time.Lawful) (hm : m.InYears) (hL : L.Sound)
    {o : StoreOp} {id : String} {refuse : StoredApproval → Option DomainFailure}
    {set : Settlement} {respond : Except DomainFailure StoredApproval → Response}
    (h : Asks deps m call o id refuse set respond) :
    (respond (L.settle id refuse set m.settled).1).runtimeFailure = none := by
  -- what has been settled can be presented
  have hpresent : ∀ a, (L.settle id refuse set m.settled).1 = .ok a →
      Evident deps.time a ∧ a.status = set.status := by
    intro a ha
    obtain ⟨hp, hs, hc, ht⟩ := settle_presentable hlaw hL hm.settled ha
    exact ⟨hp.evident hc ht, hs⟩
  cases h with
  | decide context body caller =>
      refine transition_runtimeFailure Response.decide (fun _ => rfl) (fun _ => rfl) ?_
      intro a ha
      obtain ⟨hevident, hs⟩ := hpresent a ha
      refine decideResponse_isOk hevident ?_
      rw [hs]
      cases body.decision with
      | approved => exact Or.inl rfl
      | rejected => exact Or.inr rfl
  | cancel context body caller =>
      refine transition_runtimeFailure Response.cancel (fun _ => rfl) (fun _ => rfl) ?_
      intro a ha
      obtain ⟨hevident, hs⟩ := hpresent a ha
      exact cancelResponse_isOk hevident hs
  | expire context body caller =>
      refine transition_runtimeFailure Response.expire (fun _ => rfl) (fun _ => rfl) ?_
      intro a ha
      obtain ⟨hevident, hs⟩ := hpresent a ha
      exact expireResponse_isOk hevident hs

/-- **A service call fails in the runtime only for a deadline out of range.** -/
theorem serve_runtimeFailure (hlaw : deps.time.Lawful) (hm : m.InYears) (hL : L.Sound)
    {failure : RuntimeFailure}
    (h : (L.serve deps config m call).1.runtimeFailure = some failure) :
    BeyondCalendar deps config call
      ∧ failure = .internal "Business Approval: timestamp is outside PostgreSQL range" := by
  obtain ⟨f, hf, hgoes⟩ := exists_goes deps config m call
  rw [hf] at h
  cases hgoes with
  | turnedAway haway => exact haway.runtimeFailure hlaw hm h
  | @request context body caller intent hcaller hadmitted =>
      simp only at h
      cases ho : (L.request intent).1 with
      | error f =>
          rw [ho] at h
          cases h
      | ok out =>
          -- what the ledger has can be shown
          have hfind := (Ledger.request_ok hL.wellKeyed ho).1
          have hsound : out.approval.Sound :=
            ((L.request_change (m := m) intent).sound hL hm
              (admission_ok hlaw hm.now hadmitted).admissible).approvals hfind
          rw [ho, respondRequest, (presentable_of_sound hlaw hsound).revisionString] at h
          cases h
  | settle hsends hasks =>
      simp only [hasks.runtimeFailure hlaw hm hL] at h
      cases h
  | read context body requester =>
      simp only at h
      cases ha : L.read body.requestId requester with
      | none =>
          rw [ha] at h
          cases h
      | some a =>
          have hsound := hL.approvals (Ledger.read_some hL.wellKeyed ha)
          obtain ⟨r, hr⟩ := readResponse_isOk (presentable_of_sound hlaw hsound)
          rw [ha, respondRead, hr] at h
          cases h

end Calls

end Failures

/-! ## Related tables -/

/-- Both tables have the same request ids, and rows with one id decode to one approval. -/
structure Related (time : TimeCrate) (pg : Postgres.Table) (d1 : D1.Table) : Prop where
  ids : ∀ id, (∃ row ∈ pg, row.requestId = id) ↔ ∃ row ∈ d1, row.requestId = id
  approvals : ∀ row ∈ pg, ∀ row' ∈ d1, row.requestId = row'.requestId →
    ∃ a, Postgres.decodeApproval row = .ok a
      ∧ D1.StoredApproval.ofJson time row'.recordJson = some a

section Related

variable {time : TimeCrate} {pg : Postgres.Table} {d1 : D1.Table} {L L' : Ledger}

/-- Tables that stand for one ledger are related. -/
theorem related_of_represents (h : Postgres.Represents pg L) (h' : D1.Represents time d1 L) :
    Related time pg d1 where
  ids id := by
    constructor
    · rintro ⟨row, hrow, rfl⟩
      obtain ⟨row', hrow', -⟩ := h'.exists_row (h.of_mem hrow)
      exact ⟨row', Keyed.mem_of_lookup hrow', Keyed.key_of_lookup hrow'⟩
    · rintro ⟨row', hrow', rfl⟩
      obtain ⟨a, ha, -⟩ := h'.of_lookup (Keyed.lookup_of_mem h'.unique.keys hrow')
      obtain ⟨row, hrow, -⟩ := h.exists_row ha
      exact ⟨row, Keyed.mem_of_lookup hrow, Keyed.key_of_lookup hrow⟩
  approvals row hrow row' hrow' hid := by
    obtain ⟨a, ha, hstands⟩ := h'.of_lookup (Keyed.lookup_of_mem h'.unique.keys hrow')
    have hL := h.of_mem hrow
    rw [hid, ha] at hL
    refine ⟨a, ?_, hstands.decodes⟩
    rw [Option.some.inj hL]
    exact Postgres.PgRow.decode_of_checks (h.sound.checked row hrow)

/-- Related tables stand for one ledger. -/
theorem Related.ledger_eq (h : Related time pg d1) (hp : Postgres.Represents pg L)
    (hd : D1.Represents time d1 L') : L = L' := by
  funext id
  cases hL' : L' id with
  | none =>
      cases hL : L id with
      | none => rfl
      | some a =>
          -- a row of one table is in the other
          obtain ⟨row, hrow, -⟩ := hp.exists_row hL
          obtain ⟨row', hrow', hid⟩ :=
            (h.ids id).mp ⟨row, Keyed.mem_of_lookup hrow, Keyed.key_of_lookup hrow⟩
          obtain ⟨b, hb, -⟩ := hd.of_lookup (Keyed.lookup_of_mem hd.unique.keys hrow')
          rw [hid, hL'] at hb
          cases hb
  | some a =>
      obtain ⟨row', hrow', hstands⟩ := hd.exists_row hL'
      obtain ⟨row, hrow, hid⟩ :=
        (h.ids id).mpr ⟨row', Keyed.mem_of_lookup hrow', Keyed.key_of_lookup hrow'⟩
      obtain ⟨b, hb, hb'⟩ := h.approvals row hrow row' (Keyed.mem_of_lookup hrow')
        (hid.trans (Keyed.key_of_lookup hrow').symm)
      rw [hstands.decodes] at hb'
      cases hb'
      rw [Postgres.PgRow.decode_of_checks (hp.sound.checked row hrow)] at hb
      rw [← hid, hp.of_mem hrow, Except.ok.inj hb]

end Related

/-! ## Both backends, side by side -/

/-- A PostgreSQL call all of whose clock reads give one whole millisecond. -/
def Postgres.Clock.atMillis (ms : Int) : Postgres.Clock := ⟨ms * 1000000, ms * 1000⟩

/-- A D1 call all of whose clock reads give one millisecond. -/
def D1.Clock.atMillis (ms : Int) : D1.Clock := ⟨ms, ms⟩

theorem moments_atMillis (ms : Int) :
    (Postgres.Clock.atMillis ms).moments = (D1.Clock.atMillis ms).moments := by
  have hmul : ms * 1000 * 1000 = ms * 1000000 := by omega
  simp only [Postgres.Clock.moments, Postgres.Clock.atMillis, D1.Clock.moments, D1.Clock.atMillis,
    Postgres.ofTimestamptz, hmul]

section Backends

variable {Ctx : Type} (deps : Deps Ctx) (config : ApprovalPolicy)

/-- Calls with the millisecond each is made at, on PostgreSQL. -/
def Postgres.runAt (calls : List (Int × ServiceCall Ctx)) (pg : Postgres.Table) :
    List Response × Postgres.Table :=
  (Postgres.backend deps).run deps config
    (calls.map fun c => (Postgres.Clock.atMillis c.1, c.2)) pg

/-- The same calls on D1. -/
def D1.runAt (calls : List (Int × ServiceCall Ctx)) (d1 : D1.Table) :
    List Response × D1.Table :=
  (D1.backend deps).run deps config (calls.map fun c => (D1.Clock.atMillis c.1, c.2)) d1

/--
The backends are observably one program: the same responses, over related tables, as
long as all clocks show times in the years 0 to 9999. `runtime` says which calls get
neither a success nor a domain error.
-/
structure SameProgram : Prop where
  same : ∀ pg d1, (Postgres.backend deps).Reachable deps config pg →
    (D1.backend deps).Reachable deps config d1 → Related deps.time pg d1 →
    ∀ calls : List (Int × ServiceCall Ctx), (∀ c ∈ calls, InYears (c.1 * 1000000)) →
      (Postgres.runAt deps config calls pg).1 = (D1.runAt deps config calls d1).1
        ∧ Related deps.time (Postgres.runAt deps config calls pg).2
          (D1.runAt deps config calls d1).2
  runtime : ∀ pg, (Postgres.backend deps).Reachable deps config pg →
    ∀ calls : List (Int × ServiceCall Ctx), (∀ c ∈ calls, InYears (c.1 * 1000000)) →
    ∀ (n : Nat) r failure, (Postgres.runAt deps config calls pg).1[n]? = some r →
      r.runtimeFailure = some failure →
      ∃ ms call, calls[n]? = some (ms, call) ∧ BeyondCalendar deps config call
        ∧ failure = .internal "Business Approval: timestamp is outside PostgreSQL range"

variable {deps}

theorem timely_postgres {calls : List (Int × ServiceCall Ctx)}
    (h : ∀ c ∈ calls, InYears (c.1 * 1000000)) :
    (Postgres.backend deps).Timely (calls.map fun c => (Postgres.Clock.atMillis c.1, c.2)) := by
  intro c hc
  obtain ⟨c, hmem, rfl⟩ := List.mem_map.mp hc
  have hyears := h c hmem
  refine ⟨hyears, ?_⟩
  have hmul : c.1 * 1000 * 1000 = c.1 * 1000000 := by omega
  simp only [Postgres.Clock.atMillis, Postgres.ofTimestamptz, hmul]
  exact hyears

theorem timely_d1 {calls : List (Int × ServiceCall Ctx)}
    (h : ∀ c ∈ calls, InYears (c.1 * 1000000)) :
    (D1.backend deps).Timely (calls.map fun c => (D1.Clock.atMillis c.1, c.2)) := by
  intro c hc
  obtain ⟨c, hmem, rfl⟩ := List.mem_map.mp hc
  exact ⟨h c hmem, h c hmem⟩

/--
**PostgreSQL and D1 are observably the same program.**

In the years 0 to 9999, every call gets the same response on both, and the tables stay
related. It is a success or a domain error, unless the call is the request of an allowed
caller whose deadline denotes an instant outside the years -9999 to 9999 in UTC.
-/
theorem backends_agree (h : deps.Lawful) : SameProgram deps config where
  same pg d1 hpg hd1 hrel calls hcalls := by
    obtain ⟨L, hL⟩ := (Postgres.implements h).reachable h.time hpg
    obtain ⟨L', hL'⟩ := (D1.implements h).reachable h.time hd1
    -- related tables stand for one ledger
    obtain rfl := hrel.ledger_eq hL.represents hL'.represents
    obtain ⟨hp, hprep⟩ :=
      (Postgres.implements h).run config h.time (timely_postgres hcalls) hL.represents
    obtain ⟨hd, hdrep⟩ := (D1.implements h).run config h.time (timely_d1 hcalls) hL'.represents
    -- both clocks show the same moments
    have hmoments : (calls.map fun c => (Postgres.Clock.atMillis c.1, c.2)).map
          (fun c => (c.1.moments, c.2))
        = (calls.map fun c => (D1.Clock.atMillis c.1, c.2)).map (fun c => (c.1.moments, c.2)) := by
      simp only [List.map_map, Function.comp_def, moments_atMillis]
    rw [hmoments] at hp hprep
    exact ⟨hp.trans hd.symm, related_of_represents hprep hdrep⟩
  runtime pg hpg calls hcalls n r failure hn hfailure := by
    obtain ⟨L, hL⟩ := (Postgres.implements h).reachable h.time hpg
    have htimely : (Postgres.backend deps).Timely _ := timely_postgres hcalls
    -- before the call the table stands for a ledger
    obtain ⟨L', hL', -⟩ := (Postgres.implements h).stands_between config (i := 0) (j := n)
      h.time htimely (Nat.zero_le n) (s := pg) hL
    rw [Postgres.runAt, Backend.run_getElem?] at hn
    obtain ⟨⟨clock, call⟩, hcall, rfl⟩ := Option.map_eq_some_iff.mp hn
    rw [List.getElem?_map] at hcall
    obtain ⟨⟨ms, call'⟩, hcall', heq⟩ := Option.map_eq_some_iff.mp hcall
    cases heq
    have hclock := htimely _ (List.mem_map_of_mem (List.mem_of_getElem? hcall'))
    obtain ⟨hserve, -⟩ := (Postgres.implements h).stands_serve config h.time hclock _ hL'
    rw [hserve] at hfailure
    obtain ⟨hbeyond, hf⟩ :=
      serve_runtimeFailure h.time ((Postgres.implements h).inYears hclock) hL'.sound hfailure
    exact ⟨ms, _, hcall', hbeyond, hf⟩

theorem backends_agree_standard : SameProgram Standard.deps Standard.policy :=
  backends_agree Standard.policy Standard.deps_lawful

variable (deps)

/-- The same responses over related tables, with never a failure of the runtime. -/
def SameAnswers : Prop :=
  ∀ pg d1, (Postgres.backend deps).Reachable deps config pg →
    (D1.backend deps).Reachable deps config d1 → Related deps.time pg d1 →
    ∀ calls : List (Int × ServiceCall Ctx), (∀ c ∈ calls, InYears (c.1 * 1000000)) →
      (Postgres.runAt deps config calls pg).1 = (D1.runAt deps config calls d1).1
        ∧ (∀ r ∈ (Postgres.runAt deps config calls pg).1, r.runtimeFailure = none)
        ∧ Related deps.time (Postgres.runAt deps config calls pg).2
          (D1.runAt deps config calls d1).2

/-- A deadline in the last minutes of 9999, west of Greenwich, is in the year 10000 in UTC. -/
def beyondYears : List (Int × ServiceCall Standard.Context) :=
  [(0, .request Standard.client (Standard.expense "9999-12-31T23:59:59-23:59"))]

/-- **With such a deadline both backends fail, and neither answers.** -/
theorem not_sameAnswers : ¬ SameAnswers Standard.deps Standard.policy := by
  intro h
  have hpg : (Postgres.backend Standard.deps).Reachable Standard.deps Standard.policy [] :=
    ⟨[], List.forall_mem_nil _, rfl⟩
  have hd1 : (D1.backend Standard.deps).Reachable Standard.deps Standard.policy [] :=
    ⟨[], List.forall_mem_nil _, rfl⟩
  have hrel : Related Standard.deps.time [] [] := ⟨fun id => by simp, by simp⟩
  have hyears : ∀ c ∈ beyondYears, InYears (c.1 * 1000000) := by
    intro c hc
    rw [List.mem_singleton.mp hc]
    exact ⟨by decide, by decide⟩
  have hresponse : ((Postgres.runAt Standard.deps Standard.policy beyondYears []).1.map
      Response.runtimeFailure) = [some (.internal
        "Business Approval: timestamp is outside PostgreSQL range")] := by decide
  obtain ⟨-, hnone, -⟩ := h [] [] hpg hd1 hrel beyondYears hyears
  have hmap : ∀ f ∈ (Postgres.runAt Standard.deps Standard.policy beyondYears []).1.map
      Response.runtimeFailure, f = none := by
    intro f hf
    obtain ⟨r, hr, rfl⟩ := List.mem_map.mp hf
    exact hnone r hr
  rw [hresponse] at hmap
  cases hmap _ (List.mem_singleton_self _)

end Backends

end BusinessApproval
