import BusinessApproval.Proof.PostgresLedger

/-!
# The calls of the storage functions

A call runs one of three programs: a creation, an inspection or a transition.
`Call.kind` says which, and the `alone` theorems what the call answers and leaves
when it runs with nothing beside it.
-/

namespace BusinessApproval.Postgres

/-! ## Answers -/

def outcomeAnswer (result : Except StorageError (Except DomainFailure RequestOutcome)) : Answer :=
  result.map (Except.map .outcome)

def foundAnswer (result : Except StorageError (Option StoredApproval)) : Answer :=
  result.map fun approval => .ok (.found approval)

def settledAnswer (result : Except StorageError (Except DomainFailure StoredApproval)) : Answer :=
  result.map (Except.map .settled)

/-- The approval a reply shows. -/
def Reply.approval : Reply → Option StoredApproval
  | .outcome result => some result.approval
  | .found result => result
  | .settled result => some result

/-! ## Calls as programs -/

/-- The row a transition writes to, and what it sets there. -/
def Call.settles : Call → Option (String × PgRow.Settlement)
  | .decide requestId decision caller actor evidenceRef reason =>
      some (requestId, {
        status := decision.asStr
        terminalCallerInstance := caller
        terminalActor := some actor
        evidenceRef := some evidenceRef
        reason })
  | .cancel requestId caller actor reason =>
      some (requestId, {
        status := "cancelled"
        terminalCallerInstance := caller
        terminalActor := some actor
        evidenceRef := none
        reason })
  | .expire requestId caller =>
      some (requestId, {
        status := "expired"
        terminalCallerInstance := caller
        terminalActor := none
        evidenceRef := none
        reason := none })
  | _ => none

/-- A call that may write. -/
def Call.writes : Call → Bool
  | .read _ _ => false
  | _ => true

def Creation.ofIntent (timestamptz : Int → Int) (intent : RequestIntent) : Creation Answer where
  timestamptz := timestamptz
  intent := intent
  wrap := outcomeAnswer

def Inspection.ofRead (requestId : String) (requester : Option String) : Inspection Answer where
  requestId := requestId
  requester := requester
  wrap := foundAnswer

/-- Why a transition is refused on an approval that is settled already. -/
def Call.refusedBy (call : Call) (approval : StoredApproval) : DomainFailure :=
  match call with
  | .cancel _ caller _ _ =>
      if approval.requesterInstance ≠ caller then .notRequester else .alreadyTerminal
  | _ => .alreadyTerminal

/-- A transition a call performs. -/
structure Transition.Performs (t : Transition Answer) (call : Call) : Prop where
  wrap : t.wrap = settledAnswer
  prog : ∀ timestamptz, call.prog timestamptz = t.start
  settles : call.settles = some (t.requestId, t.set)
  /-- Only a pending approval is not refused. -/
  pending : ∀ approval, t.refuse approval = none → approval.status = .pending
  settled : ∀ approval, approval.status ≠ .pending →
    t.refuse approval = some (call.refusedBy approval)

theorem prog_request (timestamptz : Int → Int) (intent : RequestIntent) :
    Call.prog timestamptz (.request intent) = (Creation.ofIntent timestamptz intent).start :=
  request_eq (Creation.ofIntent timestamptz intent)

theorem prog_read (timestamptz : Int → Int) (requestId : String) (requester : Option String) :
    Call.prog timestamptz (.read requestId requester)
      = (Inspection.ofRead requestId requester).start :=
  read_eq (Inspection.ofRead requestId requester)

/-- A call creates, reads or performs a transition. -/
inductive Call.Kind : Call → Prop
  | request (intent : RequestIntent) : Kind (.request intent)
  | read (requestId : String) (requester : Option String) : Kind (.read requestId requester)
  | transition {call : Call} {t : Transition Answer} (h : t.Performs call) : Kind call

theorem pending_of_refuseSettled {approval : StoredApproval}
    (h : refuseSettled approval = none) : approval.status = .pending :=
  Ledger.pending_of_refuseSettled h

theorem pending_of_refuseCancel {caller : String} {approval : StoredApproval}
    (h : refuseCancel caller approval = none) : approval.status = .pending :=
  Ledger.pending_of_refuseOthers h

theorem refuseSettled_of_settled {approval : StoredApproval} (h : approval.status ≠ .pending) :
    refuseSettled approval = some .alreadyTerminal := if_pos h

theorem refuseCancel_of_settled {caller : String} {approval : StoredApproval}
    (h : approval.status ≠ .pending) : refuseCancel caller approval
      = some (if approval.requesterInstance ≠ caller then .notRequester else .alreadyTerminal) := by
  rw [refuseCancel, refuseSettled_of_settled h]
  split <;> rfl

theorem performs_decide (requestId : String) (decision : ApprovalStatus)
    (caller actor evidenceRef : String) (reason : Option String) :
    (Transition.decide settledAnswer requestId decision caller actor evidenceRef reason).Performs
      (.decide requestId decision caller actor evidenceRef reason) where
  wrap := rfl
  prog _ := decide_eq settledAnswer requestId decision caller actor evidenceRef reason
  settles := rfl
  pending _ h := pending_of_refuseSettled h
  settled _ h := refuseSettled_of_settled h

theorem performs_cancel (requestId caller actor : String) (reason : Option String) :
    (Transition.cancel settledAnswer requestId caller actor reason).Performs
      (.cancel requestId caller actor reason) where
  wrap := rfl
  prog _ := cancel_eq settledAnswer requestId caller actor reason
  settles := rfl
  pending _ h := pending_of_refuseCancel h
  settled _ h := refuseCancel_of_settled h

theorem performs_expire (requestId caller : String) :
    (Transition.expire settledAnswer requestId caller).Performs (.expire requestId caller) where
  wrap := rfl
  prog _ := expire_eq settledAnswer requestId caller
  settles := rfl
  pending _ h := pending_of_refuseSettled h
  settled _ h := refuseSettled_of_settled h

theorem Call.kind (call : Call) : call.Kind := by
  cases call with
  | request intent => exact .request intent
  | read requestId requester => exact .read requestId requester
  | decide requestId decision caller actor evidenceRef reason =>
      exact .transition (performs_decide requestId decision caller actor evidenceRef reason)
  | cancel requestId caller actor reason =>
      exact .transition (performs_cancel requestId caller actor reason)
  | expire requestId caller => exact .transition (performs_expire requestId caller)

theorem Transition.Performs.writes {t : Transition Answer} {call : Call} (h : t.Performs call) :
    call.writes = true := by
  have hset := h.settles
  cases call with
  | read requestId requester => cases hset
  | _ => rfl

/-- A transition that is not refused meets a pending row. -/
theorem Transition.pending_of_refusal {call : Call} {t : Transition Answer} (ht : t.Performs call)
    {row : PgRow} (hc : row.checks = true) {now : Int} (h : t.refusal now row = none) :
    row.status = "pending" := by
  have hrefuse : t.refuse row.record = none := by
    unfold Transition.refusal at h
    cases hr : t.refuse row.record with
    | none => rfl
    | some failure =>
        rw [hr] at h
        cases h
  rw [(PgRow.checks_iff.mp hc).status, ht.pending _ hrefuse]
  rfl

/-! ## Calls alone -/

section Alone

variable (timestamptz : Int → Int) (clock : Clock) {table : Table}

theorem Call.alone_request (hs : Sound table) (intent : RequestIntent) :
    (Call.request intent).alone timestamptz clock table
      = (outcomeAnswer ((Creation.ofIntent timestamptz intent).outcome table).1,
        ((Creation.ofIntent timestamptz intent).outcome table).2) := by
  obtain ⟨hanswer, htable⟩ := (Creation.ofIntent timestamptz intent).run_start clock hs
  rw [Call.alone, prog_request]
  exact Prod.ext hanswer htable

theorem Call.alone_read (hs : Sound table) (requestId : String) (requester : Option String) :
    (Call.read requestId requester).alone timestamptz clock table
      = (foundAnswer (.ok ((Inspection.ofRead requestId requester).outcome table)), table) := by
  rw [Call.alone, prog_read, (Inspection.ofRead requestId requester).run_start clock hs]
  rfl

theorem Transition.Performs.alone {t : Transition Answer} {call : Call} (h : t.Performs call)
    (hs : Sound table) : call.alone timestamptz clock table
      = (settledAnswer (t.outcome clock.transactionTimestamp table).1,
        (t.outcome clock.transactionTimestamp table).2) := by
  obtain ⟨hanswer, htable⟩ := t.run_start clock hs
  rw [h.wrap] at hanswer
  rw [Call.alone, h.prog]
  exact Prod.ext hanswer htable

theorem Call.alone_sound (hs : Sound table) (call : Call) :
    Sound (call.alone timestamptz clock table).2 := by
  cases call.kind with
  | request intent =>
      rw [Call.alone_request timestamptz clock hs]
      exact Creation.outcome_sound _ hs
  | read requestId requester =>
      rw [Call.alone_read timestamptz clock hs]
      exact hs
  | @transition _ t h =>
      rw [h.alone timestamptz clock hs]
      exact t.outcome_sound _ hs

end Alone

end BusinessApproval.Postgres
