import BusinessApproval.Lib.Decimal
import BusinessApproval.Model.Service

/-!
# What responses say

The five response builders copy fields by hand. `Response.field` is a field as a
response carries it, and `Reports` says that every field a response carries is the
approval's. Each builder reports the approval it is given.
-/

namespace BusinessApproval

/-! ## The fields of a response -/

/-- The fields of the successful responses, of all operations together. -/
inductive Field where
  | created
  | requestId
  | idempotencyKey
  | approvalKind
  | subjectKind
  | subjectId
  | intentDigest
  | requesterInstance
  | requestedBy
  | status
  | revision
  | requestedAt
  | expiresAt
  | terminalCallerInstance
  | terminalActor
  | evidenceRef
  | reason
  | terminalAt
  deriving DecidableEq, Repr

inductive FieldValue where
  | flag (value : Bool)
  | status (value : ResponseStatus)
  | text (value : String)
  | optional (value : Option String)
  deriving DecidableEq, Repr

def TransitionResponseStatus.toStatus : TransitionResponseStatus → ResponseStatus
  | .approved => .approved
  | .rejected => .rejected
  | .cancelled => .cancelled
  | .expired => .expired

def RequestResponse.field (r : RequestResponse) : Field → Option FieldValue
  | .created => some (.flag r.created)
  | .requestId => some (.text r.requestId)
  | .status => some (.status r.status)
  | .revision => some (.text r.revision)
  | _ => none

def TransitionResponse.field (r : TransitionResponse) : Field → Option FieldValue
  | .requestId => some (.text r.requestId)
  | .status => some (.status r.status.toStatus)
  | .revision => some (.text r.revision)
  | .terminalCallerInstance => some (.optional (some r.terminalCallerInstance))
  | .terminalActor => some (.optional r.terminalActor)
  | .evidenceRef => some (.optional r.evidenceRef)
  | .reason => some (.optional r.reason)
  | .terminalAt => some (.optional (some r.terminalAt))
  | _ => none

def ReadResponse.field (r : ReadResponse) : Field → Option FieldValue
  | .created => none
  | .requestId => some (.text r.requestId)
  | .idempotencyKey => some (.text r.idempotencyKey)
  | .approvalKind => some (.text r.approvalKind)
  | .subjectKind => some (.text r.subject.kind)
  | .subjectId => some (.text r.subject.id)
  | .intentDigest => some (.optional r.intentDigest)
  | .requesterInstance => some (.text r.requesterInstance)
  | .requestedBy => some (.text r.requestedBy)
  | .status => some (.status r.status)
  | .revision => some (.text r.revision)
  | .requestedAt => some (.text r.requestedAt)
  | .expiresAt => some (.text r.expiresAt)
  | .terminalCallerInstance => some (.optional r.terminalCallerInstance)
  | .terminalActor => some (.optional r.terminalActor)
  | .evidenceRef => some (.optional r.evidenceRef)
  | .reason => some (.optional r.reason)
  | .terminalAt => some (.optional r.terminalAt)

/-- A field as a response carries it. An error carries none. -/
def Response.field : Response → Field → Option FieldValue
  | .request (.ok r) => r.field
  | .decide (.ok r) => r.field
  | .cancel (.ok r) => r.field
  | .read (.ok r) => r.field
  | .expire (.ok r) => r.field
  | _ => fun _ => none

/-- The revision a response shows, as a number. -/
def Response.shownRevision (r : Response) : Option Int :=
  match r.field .revision with
  | some (.text revision) => Decimal.parseInt revision
  | _ => none

/-! ## What responses report -/

section Reports

variable (time : TimeCrate)

/-- A field as the approval has it, when it can be written down. -/
def StoredApproval.field (a : StoredApproval) : Field → Option FieldValue
  | .created => none
  | .requestId => some (.text a.requestId)
  | .idempotencyKey => some (.text a.idempotencyKey)
  | .approvalKind => some (.text a.approvalKind)
  | .subjectKind => some (.text a.subjectKind)
  | .subjectId => some (.text a.subjectId)
  | .intentDigest => some (.optional a.intentDigest)
  | .requesterInstance => some (.text a.requesterInstance)
  | .requestedBy => some (.text a.requestedBy)
  | .status => some (.status (requestStatus a.status))
  | .revision => some (.text (toString a.revision))
  | .requestedAt => (time.format a.requestedAt).map .text
  | .expiresAt => (time.format a.expiresAt).map .text
  | .terminalCallerInstance => some (.optional a.terminalCallerInstance)
  | .terminalActor => some (.optional a.terminalActor)
  | .evidenceRef => some (.optional a.evidenceRef)
  | .reason => some (.optional a.reason)
  | .terminalAt =>
      match a.terminalAt with
      | none => some (.optional none)
      | some t => (time.format t).map fun text => .optional (some text)

/-- The fields a response carries are the approval's. -/
structure Reports (field : Field → Option FieldValue) (a : StoredApproval) : Prop where
  requestId : field .requestId = some (.text a.requestId)
  revision : field .revision = some (.text (toString a.revision))
  /-- Only a pending approval is reported as created. -/
  created : field .created = some (.flag true) → a.revision = 1
  fields : ∀ f v, f ≠ .created → field f = some v → a.field time f = some v

variable {time}

theorem revisionString_ok {E : Type} {revision : Int} {text : String}
    (h : revisionString revision = (.ok text : Except (PluginError E) String)) :
    text = toString revision := by
  unfold revisionString at h
  split at h
  next => cases h
  next => cases h; rfl

theorem formatTimestamp_ok {E : Type} {value : Int} {text : String}
    (h : formatTimestamp time value = (.ok text : Except (PluginError E) String)) :
    time.format value = some text := by
  unfold formatTimestamp at h
  split at h
  next t ht => cases h; exact ht
  next => cases h

theorem formatRequiredTimestamp_ok {E : Type} {value : Option Int} {text : String}
    (h : formatRequiredTimestamp time value = (.ok text : Except (PluginError E) String)) :
    ∃ t, value = some t ∧ time.format t = some text := by
  unfold formatRequiredTimestamp at h
  split at h
  next t => exact ⟨t, rfl, formatTimestamp_ok h⟩
  next => cases h

theorem requiredTerminal_ok {E : Type} {value : Option String} {text : String}
    (h : requiredTerminal value = (.ok text : Except (PluginError E) String)) :
    value = some text := by
  unfold requiredTerminal at h
  split at h
  next => cases h; rfl
  next => cases h

/-- The steps of a builder succeed one by one. -/
theorem bind_ok {ε α β : Type} {x : Except ε α} {f : α → Except ε β} {b : β}
    (h : (x >>= f) = .ok b) : ∃ a, x = .ok a ∧ f a = .ok b := by
  cases x with
  | error e => cases h
  | ok a => exact ⟨a, rfl, h⟩

/-- The part the three transition responses share. -/
theorem reports_transition {E : Type} {a : StoredApproval} {r : TransitionResponse}
    {status : TransitionResponseStatus} (hs : requestStatus a.status = status.toStatus)
    (h : (do
      return {
        requestId := a.requestId
        status
        revision := ← revisionString a.revision
        terminalCallerInstance := ← requiredTerminal a.terminalCallerInstance
        terminalActor := a.terminalActor
        evidenceRef := a.evidenceRef
        reason := a.reason
        terminalAt := ← formatRequiredTimestamp time a.terminalAt } :
      Except (PluginError E) TransitionResponse) = .ok r) : Reports time r.field a := by
  obtain ⟨revision, hrev, h⟩ := bind_ok h
  obtain ⟨caller, hcaller, h⟩ := bind_ok h
  obtain ⟨terminalAt, hat, h⟩ := bind_ok h
  cases h
  obtain ⟨t, ht, hformat⟩ := formatRequiredTimestamp_ok hat
  have hcaller' := requiredTerminal_ok hcaller
  rw [revisionString_ok hrev]
  refine ⟨rfl, rfl, (fun hc => by cases hc), fun f v hf hv => ?_⟩
  cases f <;> simp only [TransitionResponse.field, StoredApproval.field, ht, hformat, hcaller', hs,
    Option.map_some, reduceCtorEq] at hv ⊢ <;> exact hv

theorem reports_decide {a : StoredApproval} {r : DecideResponse}
    (h : decideResponse time a = .ok r) : Reports time r.field a := by
  unfold decideResponse at h
  cases hs : a.status with
  | approved =>
      rw [hs] at h
      exact reports_transition (by rw [hs]; rfl) h
  | rejected =>
      rw [hs] at h
      exact reports_transition (by rw [hs]; rfl) h
  | pending | cancelled | expired => rw [hs] at h; cases h

theorem reports_cancel {a : StoredApproval} {r : CancelResponse}
    (h : cancelResponse time a = .ok r) : Reports time r.field a := by
  unfold cancelResponse at h
  by_cases hs : a.status = .cancelled
  · simp only [hs, ne_eq, not_true_eq_false, if_false] at h
    exact reports_transition (by rw [hs]; rfl) h
  · simp only [hs, ne_eq, not_false_eq_true, if_true] at h
    cases h

theorem reports_expire {a : StoredApproval} {r : ExpireResponse}
    (h : expireResponse time a = .ok r) : Reports time r.field a := by
  unfold expireResponse at h
  by_cases hs : a.status = .expired
  · simp only [hs, ne_eq, not_true_eq_false, if_false] at h
    exact reports_transition (by rw [hs]; rfl) h
  · simp only [hs, ne_eq, not_false_eq_true, if_true] at h
    cases h

theorem status_of_decideResponse {a : StoredApproval} {r : DecideResponse}
    (h : decideResponse time a = .ok r) : a.status = .approved ∨ a.status = .rejected := by
  unfold decideResponse at h
  cases hs : a.status with
  | approved => exact Or.inl rfl
  | rejected => exact Or.inr rfl
  | pending | cancelled | expired => rw [hs] at h; cases h

theorem status_of_cancelResponse {a : StoredApproval} {r : CancelResponse}
    (h : cancelResponse time a = .ok r) : a.status = .cancelled := by
  by_contra hs
  unfold cancelResponse at h
  rw [if_pos hs] at h
  cases h

theorem status_of_expireResponse {a : StoredApproval} {r : ExpireResponse}
    (h : expireResponse time a = .ok r) : a.status = .expired := by
  by_contra hs
  unfold expireResponse at h
  rw [if_pos hs] at h
  cases h

/-- A read response, from its formatted parts. -/
def readResponseOf (a : StoredApproval) (revision requestedAt expiresAt : String)
    (terminalAt : Option String) : ReadResponse where
  requestId := a.requestId
  idempotencyKey := a.idempotencyKey
  approvalKind := a.approvalKind
  subject := { kind := a.subjectKind, id := a.subjectId }
  intentDigest := a.intentDigest
  requesterInstance := a.requesterInstance
  requestedBy := a.requestedBy
  status := requestStatus a.status
  revision
  requestedAt
  expiresAt
  terminalCallerInstance := a.terminalCallerInstance
  terminalActor := a.terminalActor
  evidenceRef := a.evidenceRef
  reason := a.reason
  terminalAt

theorem readResponse_ok {a : StoredApproval} {r : ReadResponse}
    (h : readResponse time a = .ok r) : ∃ requestedAt expiresAt terminalAt,
      time.format a.requestedAt = some requestedAt ∧ time.format a.expiresAt = some expiresAt
        ∧ a.field time .terminalAt = some (.optional terminalAt)
        ∧ r = readResponseOf a (toString a.revision) requestedAt expiresAt terminalAt := by
  unfold readResponse at h
  obtain ⟨revision, hrev, h⟩ := bind_ok h
  obtain ⟨requestedAt, hreq, h⟩ := bind_ok h
  obtain ⟨expiresAt, hexp, h⟩ := bind_ok h
  rw [← revisionString_ok hrev]
  cases ht : a.terminalAt with
  | none =>
      rw [ht] at h
      cases h
      exact ⟨_, _, none, formatTimestamp_ok hreq, formatTimestamp_ok hexp, by
        simp only [StoredApproval.field, ht], by unfold readResponseOf; cases a.status <;> rfl⟩
  | some t =>
      rw [ht] at h
      obtain ⟨text, htext, h⟩ := bind_ok h
      cases hf : (formatTimestamp time t : Except (PluginError ReadError) String) with
      | error e => rw [hf] at htext; cases htext
      | ok formatted =>
          rw [hf] at htext
          cases htext
          cases h
          exact ⟨_, _, some formatted, formatTimestamp_ok hreq, formatTimestamp_ok hexp, by
            simp only [StoredApproval.field, ht, formatTimestamp_ok hf, Option.map_some], by
            unfold readResponseOf; cases a.status <;> rfl⟩

theorem reports_read {a : StoredApproval} {r : ReadResponse}
    (h : readResponse time a = .ok r) : Reports time r.field a := by
  obtain ⟨requestedAt, expiresAt, terminalAt, hreq, hexp, hterminal, rfl⟩ := readResponse_ok h
  refine ⟨rfl, rfl, (fun hc => by cases hc), fun f v hf hv => ?_⟩
  cases f with
  | terminalAt => rw [hterminal]; exact hv
  | _ =>
      simp only [readResponseOf, ReadResponse.field, StoredApproval.field, hreq, hexp,
        Option.map_some, reduceCtorEq] at hv ⊢ <;> exact hv

/-! ## When a response can be built -/

/-- What a response needs of an approval besides its status. -/
structure Presentable (time : TimeCrate) (a : StoredApproval) : Prop where
  revision : ¬ a.revision < 1
  requestedAt : ∃ text, time.format a.requestedAt = some text
  expiresAt : ∃ text, time.format a.expiresAt = some text
  terminalAt : ∀ t, a.terminalAt = some t → ∃ text, time.format t = some text

section Presentable

variable {a : StoredApproval}

theorem Presentable.revisionString (h : Presentable time a) {E : Type} :
    revisionString a.revision = (.ok (toString a.revision) : Except (PluginError E) String) :=
  if_neg h.revision

theorem formatTimestamp_of_some {E : Type} {t : Int} {text : String} (h : time.format t = some text) :
    formatTimestamp time t = (.ok text : Except (PluginError E) String) := by
  rw [formatTimestamp, h]

/-- What a transition's response needs of an approval besides its status. -/
structure Evident (time : TimeCrate) (a : StoredApproval) : Prop where
  revision : ¬ a.revision < 1
  caller : ∃ caller, a.terminalCallerInstance = some caller
  terminalAt : ∃ t text, a.terminalAt = some t ∧ time.format t = some text

theorem Presentable.evident (h : Presentable time a) {caller : String} {t : Int}
    (hcaller : a.terminalCallerInstance = some caller) (hat : a.terminalAt = some t) :
    Evident time a := by
  obtain ⟨text, htext⟩ := h.terminalAt t hat
  exact ⟨h.revision, ⟨caller, hcaller⟩, t, text, hat, htext⟩

/-- The parts of a transition's response, one by one. -/
theorem Evident.parts (h : Evident time a) (E : Type) : ∃ caller text,
    revisionString a.revision = (.ok (toString a.revision) : Except (PluginError E) String)
      ∧ requiredTerminal a.terminalCallerInstance = (.ok caller : Except (PluginError E) String)
      ∧ formatRequiredTimestamp time a.terminalAt
        = (.ok text : Except (PluginError E) String) := by
  obtain ⟨caller, hcaller⟩ := h.caller
  obtain ⟨t, text, hat, htext⟩ := h.terminalAt
  refine ⟨caller, text, if_neg h.revision, by rw [hcaller]; rfl, ?_⟩
  rw [hat]
  exact formatTimestamp_of_some htext

theorem decideResponse_isOk (h : Evident time a)
    (hs : a.status = .approved ∨ a.status = .rejected) : ∃ r, decideResponse time a = .ok r := by
  obtain ⟨_, _, hr, hc, ht⟩ := h.parts DecideError
  unfold decideResponse
  rw [hr, hc, ht]
  rcases hs with hs | hs <;> rw [hs] <;> exact ⟨_, rfl⟩

theorem cancelResponse_isOk (h : Evident time a) (hs : a.status = .cancelled) :
    ∃ r, cancelResponse time a = .ok r := by
  obtain ⟨_, _, hr, hc, ht⟩ := h.parts CancelError
  unfold cancelResponse
  rw [hr, hc, ht, if_neg (fun hn => hn hs)]
  exact ⟨_, rfl⟩

theorem expireResponse_isOk (h : Evident time a) (hs : a.status = .expired) :
    ∃ r, expireResponse time a = .ok r := by
  obtain ⟨_, _, hr, hc, ht⟩ := h.parts ExpireError
  unfold expireResponse
  rw [hr, hc, ht, if_neg (fun hn => hn hs)]
  exact ⟨_, rfl⟩

theorem readResponse_isOk (h : Presentable time a) : ∃ r, readResponse time a = .ok r := by
  obtain ⟨requestedAt, hreq⟩ := h.requestedAt
  obtain ⟨expiresAt, hexp⟩ := h.expiresAt
  unfold readResponse
  rw [h.revisionString, formatTimestamp_of_some hreq, formatTimestamp_of_some hexp]
  cases hat : a.terminalAt with
  | none => exact ⟨_, rfl⟩
  | some t =>
      obtain ⟨text, ht⟩ := h.terminalAt t hat
      simp only [formatTimestamp_of_some ht]
      exact ⟨_, rfl⟩

end Presentable

/-! ## How a response fails -/

/-- Whatever error there is, is one of the runtime. -/
def OnlyRuntime {E α : Type} (x : Except (PluginError E) α) : Prop :=
  ∀ e, x = .error e → ∃ failure, e = .runtime failure

section Failing

variable {E α β : Type}

theorem onlyRuntime_ok (a : α) : OnlyRuntime (.ok a : Except (PluginError E) α) :=
  fun _ h => by cases h

theorem onlyRuntime_error (failure : RuntimeFailure) :
    OnlyRuntime (.error (.runtime failure) : Except (PluginError E) α) :=
  fun _ h => ⟨failure, (Except.error.inj h).symm⟩

theorem OnlyRuntime.bind {x : Except (PluginError E) α} {f : α → Except (PluginError E) β}
    (hx : OnlyRuntime x) (hf : ∀ a, OnlyRuntime (f a)) : OnlyRuntime (x >>= f) := by
  cases x with
  | error e => exact fun e' h => hx e' (congrArg Except.error (Except.error.inj h))
  | ok a => exact hf a

theorem onlyRuntime_revisionString (revision : Int) :
    OnlyRuntime (revisionString revision : Except (PluginError E) String) := by
  unfold revisionString
  split
  · exact onlyRuntime_error _
  · exact onlyRuntime_ok _

theorem onlyRuntime_requiredTerminal (value : Option String) :
    OnlyRuntime (requiredTerminal value : Except (PluginError E) String) := by
  cases value with
  | none => exact onlyRuntime_error _
  | some value => exact onlyRuntime_ok _

theorem onlyRuntime_formatRequiredTimestamp (value : Option Int) :
    OnlyRuntime (formatRequiredTimestamp time value : Except (PluginError E) String) := by
  cases value with
  | none => exact onlyRuntime_error _
  | some value =>
      change OnlyRuntime (formatTimestamp time value)
      unfold formatTimestamp
      cases time.format value with
      | none => exact onlyRuntime_error _
      | some text => exact onlyRuntime_ok _

/-- The part the three transition responses share. -/
theorem onlyRuntime_transition {a : StoredApproval} (status : TransitionResponseStatus) :
    OnlyRuntime (do
      return {
        requestId := a.requestId
        status
        revision := ← revisionString a.revision
        terminalCallerInstance := ← requiredTerminal a.terminalCallerInstance
        terminalActor := a.terminalActor
        evidenceRef := a.evidenceRef
        reason := a.reason
        terminalAt := ← formatRequiredTimestamp time a.terminalAt } :
      Except (PluginError E) TransitionResponse) :=
  (onlyRuntime_revisionString _).bind fun _ => (onlyRuntime_requiredTerminal _).bind fun _ =>
    (onlyRuntime_formatRequiredTimestamp _).bind fun _ => onlyRuntime_ok _

theorem onlyRuntime_decideResponse (a : StoredApproval) :
    OnlyRuntime (decideResponse time a) := by
  unfold decideResponse
  cases a.status with
  | approved => exact onlyRuntime_transition .approved
  | rejected => exact onlyRuntime_transition .rejected
  | pending | cancelled | expired => exact onlyRuntime_error _

theorem onlyRuntime_cancelResponse (a : StoredApproval) :
    OnlyRuntime (cancelResponse time a) := by
  unfold cancelResponse
  by_cases hs : a.status = .cancelled
  · simp only [hs, ne_eq, not_true_eq_false, if_false]
    exact onlyRuntime_transition .cancelled
  · simp only [hs, ne_eq, not_false_eq_true, if_true]
    exact onlyRuntime_error _

theorem onlyRuntime_expireResponse (a : StoredApproval) :
    OnlyRuntime (expireResponse time a) := by
  unfold expireResponse
  by_cases hs : a.status = .expired
  · simp only [hs, ne_eq, not_true_eq_false, if_false]
    exact onlyRuntime_transition .expired
  · simp only [hs, ne_eq, not_false_eq_true, if_true]
    exact onlyRuntime_error _

end Failing

/-! ## What a transition's response shows -/

/-- The fields a transition's response carries. -/
def transitionFields : List Field :=
  [.requestId, .status, .revision, .terminalCallerInstance, .terminalActor, .evidenceRef, .reason,
    .terminalAt]

section Shows

variable {a b : StoredApproval} {r : TransitionResponse}

theorem mem_transitionFields {f : Field} : f ∈ transitionFields ↔ ∃ v, r.field f = some v := by
  cases f <;> simp [transitionFields, TransitionResponse.field]

/-- A response that reports one approval reports another that looks the same. -/
theorem reports_iff (h : Reports time r.field b) :
    Reports time r.field a ↔ ∀ f ∈ transitionFields, b.field time f = a.field time f := by
  have hne : ∀ f ∈ transitionFields, f ≠ .created := by decide
  constructor
  · intro h' f hf
    obtain ⟨v, hv⟩ := (mem_transitionFields (r := r)).mp hf
    rw [h.fields f v (hne f hf) hv, h'.fields f v (hne f hf) hv]
  · intro hsame
    refine ⟨h.requestId.trans (hsame .requestId (by decide)),
      h.revision.trans (hsame .revision (by decide)), (fun hc => by cases hc), fun f v hf hv => ?_⟩
    rw [← hsame f (mem_transitionFields.mpr ⟨v, hv⟩)]
    exact h.fields f v hf hv

/-- A response that reports an approval shows when it was settled. -/
theorem text_of_reports (h : Reports time r.field b) :
    ∃ text, b.field time .terminalAt = some (.optional (some text)) :=
  ⟨_, h.fields .terminalAt _ (by decide) rfl⟩

/-- With consistent evidence and a text for its time, a settled approval can be shown. -/
theorem evident_of_consistent (hc : evidenceConsistent b = true) (hs : b.status ≠ .pending)
    (ht : ∃ text, b.field time .terminalAt = some (.optional (some text))) : Evident time b := by
  have hrevision := revision_of_consistent hc
  rw [if_neg hs] at hrevision
  refine ⟨by rw [hrevision]; decide, ?_, ?_⟩
  · apply Option.isSome_iff_exists.mp
    unfold evidenceConsistent at hc
    cases hstatus : b.status <;> rw [hstatus] at hc
    case pending => exact absurd hstatus hs
    all_goals
      simp only [Bool.and_eq_true] at hc
      simp [hc]
  · obtain ⟨text, htext⟩ := ht
    cases hat : b.terminalAt with
    | none => simp [StoredApproval.field, hat] at htext
    | some t =>
        simp only [StoredApproval.field, hat, Option.map_eq_some_iff] at htext
        obtain ⟨text, hformat, -⟩ := htext
        exact ⟨t, text, rfl, hformat⟩

end Shows

end Reports

end BusinessApproval
