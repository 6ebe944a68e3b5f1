import BusinessApproval.Model.Session

/-!
# The storage functions, stage by stage

`decide`, `cancel` and `expire` are one program with different parameters: lock
the row, decode it, refuse or go on, write, decode what was written, commit. The
stages of that program, and those of `request`, are named here, each as the
program that is left to run when the stage is reached. What follows the call of a
storage function — its answer put in another form — is the continuation `wrap`.
-/

namespace BusinessApproval.Postgres

/-- What distinguishes one terminal transition from another. -/
structure Transition (β : Type) where
  beginName : String
  updateName : String
  commitName : String
  requestId : String
  /-- Why the locked record is refused, if it is. -/
  refuse : StoredApproval → Option DomainFailure
  /-- Whether the deadline is checked. -/
  deadline : Bool
  set : PgRow.Settlement
  wrap : Except StorageError (Except DomainFailure StoredApproval) → β

namespace Transition

variable {β : Type} (t : Transition β)

def fail (name : String) (source : SqlxError) : Prog SqlRes β :=
  .ret (t.wrap (.error (.database name source)))

def refused (failure : DomainFailure) : Prog SqlRes β := .ret (t.wrap (.ok (.error failure)))

def finish (approval : StoredApproval) : Prog SqlRes β :=
  .call .commit fun
    | .error source => t.fail t.commitName source
    | .ok _ => .ret (t.wrap (.ok (.ok approval)))

def decodeWritten (row : PgRow) : Prog SqlRes β :=
  .call (.decode row) fun
    | .error e => .ret (t.wrap (.error e))
    | .ok approval => t.finish approval

def write : Prog SqlRes β :=
  .call (.update t.requestId t.set) fun
    | .error source => t.fail t.updateName source
    | .ok [] => t.fail t.updateName .rowNotFound
    | .ok (row :: _) => t.decodeWritten row

def checkDue : Prog SqlRes β :=
  .call (.selectDue t.requestId) fun
    | .error source => t.fail "check expiration deadline" source
    | .ok [] => t.fail "check expiration deadline" .rowNotFound
    | .ok (due :: _) => if due then t.write else t.refused .notDue

/-- What the locked record leads to. -/
def settle (current : StoredApproval) : Prog SqlRes β :=
  match t.refuse current with
  | some failure => t.refused failure
  | none => if t.deadline then t.checkDue else t.write

def decodeLocked (row : PgRow) : Prog SqlRes β :=
  .call (.decode row) fun
    | .error e => .ret (t.wrap (.error e))
    | .ok current => t.settle current

def lock : Prog SqlRes β :=
  .call (.selectForUpdate fun row => row.requestId == t.requestId) fun
    | .error source => t.fail "lock approval request" source
    | .ok [] => t.refused .requestNotFound
    | .ok (row :: _) => t.decodeLocked row

def start : Prog SqlRes β :=
  .call .begin fun
    | .error source => t.fail t.beginName source
    | .ok _ => t.lock

end Transition

def refuseSettled (current : StoredApproval) : Option DomainFailure :=
  if current.status ≠ .pending then some .alreadyTerminal else none

def refuseCancel (caller : String) (current : StoredApproval) : Option DomainFailure :=
  if current.requesterInstance ≠ caller then some .notRequester else refuseSettled current

section Instances

variable {β : Type} (wrap : Except StorageError (Except DomainFailure StoredApproval) → β)

def Transition.decide (requestId : String) (decision : ApprovalStatus)
    (caller actor evidenceRef : String) (reason : Option String) : Transition β where
  beginName := "begin decision"
  updateName := "record decision"
  commitName := "commit decision"
  requestId := requestId
  refuse := refuseSettled
  deadline := false
  set := {
    status := decision.asStr
    terminalCallerInstance := caller
    terminalActor := some actor
    evidenceRef := some evidenceRef
    reason := reason }
  wrap := wrap

def Transition.cancel (requestId caller actor : String) (reason : Option String) :
    Transition β where
  beginName := "begin cancellation"
  updateName := "cancel approval"
  commitName := "commit cancellation"
  requestId := requestId
  refuse := refuseCancel caller
  deadline := false
  set := {
    status := "cancelled"
    terminalCallerInstance := caller
    terminalActor := some actor
    evidenceRef := none
    reason := reason }
  wrap := wrap

def Transition.expire (requestId caller : String) : Transition β where
  beginName := "begin expiration"
  updateName := "expire approval"
  commitName := "commit expiration"
  requestId := requestId
  refuse := refuseSettled
  deadline := true
  set := {
    status := "expired"
    terminalCallerInstance := caller
    terminalActor := none
    evidenceRef := none
    reason := none }
  wrap := wrap

/-- The common end of the transitions: write, decode, commit. -/
def Transition.writing (t : Transition β) : Storage (Except DomainFailure StoredApproval) := do
  let row ← database t.updateName (.update t.requestId t.set) fetchOne
  let approval ← Postgres.decode row
  commit t.commitName
  return .ok approval

theorem Transition.writing_eq (t : Transition β) :
    (t.writing.run >>= fun r => .ret (t.wrap r)) = t.write := by
  -- `UPDATE … RETURNING`
  refine congrArg (Prog.call _) (funext fun r => ?_)
  cases r with
  | error source => rfl
  | ok rows =>
    cases rows with
    | nil => rfl
    | cons row rows =>
      -- the row is decoded
      refine congrArg (Prog.call _) (funext fun r => ?_)
      cases r with
      | error e => rfl
      | ok approval =>
        -- `COMMIT`
        refine congrArg (Prog.call _) (funext fun r => ?_)
        cases r with
        | error source => rfl
        | ok u => rfl

/-- The common beginning: open a transaction, lock and decode the row. -/
theorem Transition.start_eq (t : Transition β)
    (rest : StoredApproval → Storage (Except DomainFailure StoredApproval))
    (hrest : ∀ current, ((rest current).run >>= fun r => .ret (t.wrap r)) = t.settle current) :
    (ExceptT.run (do
      beginTransition t.beginName
      let some current ← lockRequest t.requestId
        | return .error .requestNotFound
      rest current) >>= fun r => .ret (t.wrap r)) = t.start := by
  -- `BEGIN`
  refine congrArg (Prog.call _) (funext fun r => ?_)
  cases r with
  | error source => rfl
  | ok u =>
    -- `SELECT … FOR UPDATE`
    refine congrArg (Prog.call _) (funext fun r => ?_)
    cases r with
    | error source => rfl
    | ok rows =>
      cases rows with
      | nil => rfl
      | cons row rows =>
        -- the row is decoded
        refine congrArg (Prog.call _) (funext fun r => ?_)
        cases r with
        | error e => rfl
        | ok current => exact hrest current

theorem decide_eq (requestId : String) (decision : ApprovalStatus)
    (caller actor evidenceRef : String) (reason : Option String) :
    ((decide requestId decision caller actor evidenceRef reason).run >>= fun r => .ret (wrap r))
      = (Transition.decide wrap requestId decision caller actor evidenceRef reason).start := by
  refine (Transition.decide wrap requestId decision caller actor evidenceRef reason).start_eq _
    (fun current => ?_)
  simp only [Transition.settle, Transition.decide, refuseSettled]
  by_cases h : current.status = .pending
  · simp only [h, ne_eq, not_true_eq_false, if_false]
    exact (Transition.decide wrap requestId decision caller actor evidenceRef reason).writing_eq
  · simp only [h, ne_eq, not_false_eq_true, if_true]
    rfl

theorem cancel_eq (requestId caller actor : String) (reason : Option String) :
    ((cancel requestId caller actor reason).run >>= fun r => .ret (wrap r))
      = (Transition.cancel wrap requestId caller actor reason).start := by
  refine (Transition.cancel wrap requestId caller actor reason).start_eq _ (fun current => ?_)
  simp only [Transition.settle, Transition.cancel, refuseCancel, refuseSettled]
  by_cases hc : current.requesterInstance = caller
  · by_cases h : current.status = .pending
    · simp only [hc, h, ne_eq, not_true_eq_false, if_false]
      exact (Transition.cancel wrap requestId caller actor reason).writing_eq
    · simp only [hc, h, ne_eq, not_true_eq_false, not_false_eq_true, if_false, if_true]
      rfl
  · simp only [hc, ne_eq, not_false_eq_true, if_true]
    rfl

theorem expire_eq (requestId caller : String) :
    ((expire requestId caller).run >>= fun r => .ret (wrap r))
      = (Transition.expire wrap requestId caller).start := by
  refine (Transition.expire wrap requestId caller).start_eq _ (fun current => ?_)
  simp only [Transition.settle, Transition.expire, refuseSettled]
  by_cases h : current.status = .pending
  · simp only [h, ne_eq, not_true_eq_false, if_false]
    -- the clock of the server is compared
    refine congrArg (Prog.call _) (funext fun r => ?_)
    cases r with
    | error source => rfl
    | ok rows =>
      cases rows with
      | nil => rfl
      | cons due rows =>
        cases due with
        | false => rfl
        | true => exact (Transition.expire wrap requestId caller).writing_eq
  · simp only [h, ne_eq, not_false_eq_true, if_true]
    rfl

end Instances

/-! ## Creation -/

/-- A creation: the intent, the `TIMESTAMPTZ` codec, and what becomes of the answer. -/
structure Creation (β : Type) where
  timestamptz : Int → Int
  intent : RequestIntent
  wrap : Except StorageError (Except DomainFailure RequestOutcome) → β

namespace Creation

variable {β : Type} (c : Creation β)

/-- The row the `INSERT` tries to add. -/
def row : PgRow := PgRow.ofIntent c.timestamptz c.intent

def fail (name : String) (source : SqlxError) : Prog SqlRes β :=
  .ret (c.wrap (.error (.database name source)))

def conflict : Prog SqlRes β := .ret (c.wrap (.ok (.error .idempotencyConflict)))

def finish (name : String) (created : Bool) (approval : StoredApproval) : Prog SqlRes β :=
  .call .commit fun
    | .error source => c.fail name source
    | .ok _ => .ret (c.wrap (.ok (.ok { created, approval })))

def decodeInserted (row : PgRow) : Prog SqlRes β :=
  .call (.decode row) fun
    | .error e => .ret (c.wrap (.error e))
    | .ok approval => c.finish "commit request creation" true approval

/-- Compare the one record that shares a key with the intent. -/
def compare (approval : StoredApproval) : Prog SqlRes β :=
  if !sameIntent approval c.intent then c.conflict
  else c.finish "commit idempotent request" false approval

def decodeExisting (row : PgRow) : Prog SqlRes β :=
  .call (.decode row) fun
    | .error e => .ret (c.wrap (.error e))
    | .ok approval => c.compare approval

/-- What the rows that share a key with the intent lead to. -/
def resolve (rows : List PgRow) : Prog SqlRes β :=
  match rows with
  | [] => .ret (c.wrap (.error .inconsistentIdempotency))
  | [row] => c.decodeExisting row
  | _ => c.conflict

def select : Prog SqlRes β :=
  .call (.selectForUpdate (sharesKey c.intent)) fun
    | .error source => c.fail "resolve idempotent request" source
    | .ok rows => c.resolve rows

def insert : Prog SqlRes β :=
  .call (.insert c.row) fun
    | .error source => c.fail "create approval request" source
    | .ok [] => c.select
    | .ok (row :: _) => c.decodeInserted row

def start : Prog SqlRes β :=
  .call .begin fun
    | .error source => c.fail "begin request" source
    | .ok _ => c.insert

/-- The end of the replay path: compare, commit. -/
def comparing (approval : StoredApproval) : Storage (Except DomainFailure RequestOutcome) := do
  if !sameIntent approval c.intent then
    return .error .idempotencyConflict
  commit "commit idempotent request"
  return .ok { created := false, approval }

theorem comparing_eq (approval : StoredApproval) :
    ((c.comparing approval).run >>= fun r => .ret (c.wrap r)) = c.compare approval := by
  unfold comparing compare
  cases sameIntent approval c.intent with
  | false => rfl
  | true =>
    refine congrArg (Prog.call _) (funext fun r => ?_)
    cases r with
    | error source => rfl
    | ok u => rfl

end Creation

theorem request_eq {β : Type} (c : Creation β) :
    ((request c.timestamptz c.intent).run >>= fun r => .ret (c.wrap r)) = c.start := by
  -- `BEGIN`
  refine congrArg (Prog.call _) (funext fun r => ?_)
  cases r with
  | error source => rfl
  | ok u =>
    -- `INSERT … ON CONFLICT DO NOTHING`
    refine congrArg (Prog.call _) (funext fun r => ?_)
    cases r with
    | error source => rfl
    | ok rows =>
      cases rows with
      | nil =>
        -- `SELECT … FOR UPDATE`
        refine congrArg (Prog.call _) (funext fun r => ?_)
        cases r with
        | error source => rfl
        | ok rows =>
          match rows with
          | [] => rfl
          | [row] =>
            -- one row is decoded and compared
            refine congrArg (Prog.call _) (funext fun r => ?_)
            cases r with
            | error e => rfl
            | ok approval => exact c.comparing_eq approval
          | _ :: _ :: _ => rfl
      | cons row rows =>
        -- the new row is decoded
        refine congrArg (Prog.call _) (funext fun r => ?_)
        cases r with
        | error e => rfl
        | ok approval =>
          -- `COMMIT`
          refine congrArg (Prog.call _) (funext fun r => ?_)
          cases r with
          | error source => rfl
          | ok u => rfl

/-! ## Reading -/

/-- A read: whose request, on whose behalf, and what becomes of the answer. -/
structure Inspection (β : Type) where
  requestId : String
  requester : Option String
  wrap : Except StorageError (Option StoredApproval) → β

namespace Inspection

variable {β : Type} (i : Inspection β)

/-- The rows the `SELECT` may return. -/
def condition (row : PgRow) : Bool :=
  row.requestId == i.requestId
    && (i.requester.isNone || i.requester == some row.requesterInstance)

def decodeFound (row : PgRow) : Prog SqlRes β :=
  .call (.decode row) fun
    | .error e => .ret (i.wrap (.error e))
    | .ok approval => .ret (i.wrap (.ok (some approval)))

def start : Prog SqlRes β :=
  .call (.select i.condition) fun
    | .error source => .ret (i.wrap (.error (.database "read approval request" source)))
    | .ok [] => .ret (i.wrap (.ok none))
    | .ok (row :: _) => i.decodeFound row

end Inspection

theorem read_eq {β : Type} (i : Inspection β) :
    ((read i.requestId i.requester).run >>= fun r => .ret (i.wrap r)) = i.start := by
  refine congrArg (Prog.call _) (funext fun r => ?_)
  cases r with
  | error source => rfl
  | ok rows =>
    cases rows with
    | nil => rfl
    | cons row rows =>
      refine congrArg (Prog.call _) (funext fun r => ?_)
      cases r with
      | error e => rfl
      | ok approval => rfl

end BusinessApproval.Postgres
