import BusinessApproval.Model.D1

/-!
# The D1 methods, stage by stage

Each method reads its clocks, makes one call of the database and concludes from its
answer. The `…_eq` theorems put the methods in that form, and `conclude…` are the
conclusions: functions of the answer alone, genuine or not. On a genuine answer
they are what `conclude_reply` says.
-/

namespace BusinessApproval.D1

section Conclusions

variable (time : TimeCrate)

/-- What `transition` makes of the answer to its batch. -/
def transitionValue (result : Json) : Except String Json := do
  assertBatch result
  let approval ← decode (resultsOf result)[0]?
  return .obj [("changed", .bool (changedOne result)), ("approval", approval)]

/-- What a transition concludes from the answer to its batch. -/
def concludeTransition (kind : Kind) (caller : String) (answer : Except String Json) :
    Except StorageError (Except DomainFailure StoredApproval) :=
  match answer >>= transitionValue with
  | .error _ => .error .unavailable
  | .ok value =>
      match TransitionResult.ofJson time value with
      | none => .error .unavailable
      | some result => classify kind caller result

/-- `transitionValue` as the last steps of the function. -/
def transitionTail (result : Json) : Js Json := do
  Prog.ofExcept (assertBatch result)
  let approval ← Prog.ofExcept (decode (resultsOf result)[0]?)
  return .obj [("changed", .bool (changedOne result)), ("approval", approval)]

theorem transitionTail_eq (result : Json) :
    transitionTail result = Prog.ofExcept (transitionValue result) := by
  unfold transitionTail transitionValue
  cases assertBatch result with
  | error message => rfl
  | ok u =>
      cases decode (resultsOf result)[0]? with
      | error message => rfl
      | ok approval => rfl

/-- What `request` makes of the answer to its batch. -/
def requestValue (result : Json) : Except String Json := do
  assertBatch result
  let rows ← (resultsOf result).mapM fun row => decode (some row)
  return .obj [("created", .bool (changedOne result)), ("rows", .arr rows)]

/-- `requestValue` as the last steps of the function. -/
def requestTail (result : Json) : Js Json := do
  Prog.ofExcept (assertBatch result)
  let rows ← Prog.ofExcept ((resultsOf result).mapM fun row => decode (some row))
  return .obj [("created", .bool (changedOne result)), ("rows", .arr rows)]

theorem requestTail_eq (result : Json) :
    requestTail result = Prog.ofExcept (requestValue result) := by
  unfold requestTail requestValue
  cases assertBatch result with
  | error message => rfl
  | ok u =>
      cases (resultsOf result).mapM fun row => decode (some row) with
      | error message => rfl
      | ok rows => rfl

/-- What a creation concludes from the answer to its batch. -/
def concludeRequest (intent : RequestIntent) (answer : Except String Json) :
    Except StorageError (Except DomainFailure RequestOutcome) :=
  match answer >>= requestValue with
  | .error _ => .error .unavailable
  | .ok value =>
      match ResultRows.ofJson time value with
      | none => .error .unavailable
      | some result => resolve intent result

/-- What a read concludes from the answer to its `SELECT`. -/
def concludeRead (answer : Except String Json) : Except StorageError (Option StoredApproval) :=
  match answer >>= fun row => decode (some row) with
  | .error _ => .error .unavailable
  | .ok value =>
      match optionalApproval time (some value) with
      | none => .error .unavailable
      | some none => .ok none
      | some (some approval) => (validateEvidence approval).map fun _ => some approval

end Conclusions

/-! ## The methods in stages -/

/-- A transition: its kind and its input, with a status the kind allows. -/
structure Proper (kind : Kind) (input : Input) : Prop where
  decided : kind = .decide → input.status = some "approved" ∨ input.status = some "rejected"

/-- The rows a transition's `UPDATE` changes. -/
def Matches (kind : Kind) (input : Input) (now : Int) (row : D1Row) : Bool :=
  row.requestId == input.id && row.status == "pending" && row.revision == 1
    && constraint kind input.caller (microsText now) row

/-- What it makes of them. -/
def settled (kind : Kind) (input : Input) (date : Int) : D1Row → D1Row :=
  D1Row.settle (transitionStatus kind input) input.caller
    (if kind == .expire then none else input.actor)
    (if kind == .decide then input.evidence else none)
    (if kind == .expire then none else input.reason)
    (Rfc3339.isoMillis date)

/-- A transition's `UPDATE`, from its clock reads. -/
def updateOf (kind : Kind) (input : Input) (date now : Int) : Write :=
  .update (Matches kind input now) (settled kind input date)

section Stages

variable (time : TimeCrate)

theorem transitionMethod_eq {kind : Kind} {input : Input} (h : Proper kind input) :
    (transitionMethod time kind input).run
      = .call .newDate fun date => .call .dateNow fun now =>
          .call (.batch (updateOf kind input date now) (fun row => row.requestId == input.id))
            fun answer => .ret (concludeTransition time kind input.caller answer) := by
  -- the JavaScript refuses an unknown decision before it reads a clock
  have hallowed : (kind == .decide && !(["approved", "rejected"].contains
      (transitionStatus kind input))) = false := by
    cases kind with
    | decide =>
        rcases h.decided rfl with hs | hs <;> simp [transitionStatus, hs]
    | cancel => rfl
    | expire => rfl
  unfold transitionMethod transition
  simp only [hallowed]
  refine congrArg (Prog.call _) (funext fun date => ?_)
  refine congrArg (Prog.call _) (funext fun now => ?_)
  refine congrArg (Prog.call _) (funext fun answer => ?_)
  unfold concludeTransition
  cases answer with
  | error message => rfl
  | ok result =>
      change ((ExceptT.run (transitionTail result)).bind _).bind _ = _
      rw [transitionTail_eq]
      change _ = Prog.ret (match transitionValue result with | .error _ => _ | .ok value => _)
      cases transitionValue result with
      | error message => rfl
      | ok value =>
          change _ = Prog.ret (match TransitionResult.ofJson time value with
            | none => _
            | some result => _)
          change ((Prog.ret ((TransitionResult.ofJson time value).elim _ _)).bind _) = _
          cases TransitionResult.ofJson time value with
          | none => rfl
          | some result => rfl

theorem requestMethod_eq {intent : RequestIntent} {i : IntentInput}
    (h : IntentInput.ofIntent time intent = some i) :
    (requestMethod time intent).run
      = .call (.batch (.insert (D1Row.ofIntent i (toString (intent.expiresAt.tdiv 1000))))
          (sharesKey i)) fun answer => .ret (concludeRequest time intent answer) := by
  unfold requestMethod request
  rw [h]
  refine congrArg (Prog.call _) (funext fun answer => ?_)
  unfold concludeRequest
  cases answer with
  | error message => rfl
  | ok result =>
      change ((ExceptT.run (requestTail result)).bind _).bind _ = _
      rw [requestTail_eq]
      change _ = Prog.ret (match requestValue result with | .error _ => _ | .ok value => _)
      cases requestValue result with
      | error message => rfl
      | ok value =>
          change _ = Prog.ret (match ResultRows.ofJson time value with
            | none => _
            | some result => _)
          change ((Prog.ret ((ResultRows.ofJson time value).elim _ _)).bind _) = _
          cases ResultRows.ofJson time value with
          | none => rfl
          | some result => rfl

/-- The rows a read may find. -/
def readable (id : String) (requester : Option String) (row : D1Row) : Bool :=
  row.requestId == id && (requester.isNone || requester == some row.requesterInstance)

theorem readMethod_eq (id : String) (requester : Option String) :
    (readMethod time id requester).run
      = .call (.first (readable id requester)) fun answer => .ret (concludeRead time answer) := by
  refine congrArg (Prog.call _) (funext fun answer => ?_)
  unfold concludeRead
  cases answer with
  | error message => rfl
  | ok row =>
      change ((ExceptT.run (Prog.ofExcept (decode (some row)))).bind _).bind _ = _
      change _ = Prog.ret (match decode (some row) with | .error _ => _ | .ok value => _)
      cases decode (some row) with
      | error message => rfl
      | ok value =>
          change ((Prog.ret ((optionalApproval time (some value)).elim _ _)).bind _)
            = Prog.ret (match optionalApproval time (some value) with
              | none => _
              | some none => _
              | some (some approval) => _)
          match optionalApproval time (some value) with
          | none => rfl
          | some none => rfl
          | some (some approval) =>
              change ExceptT.run (Prog.ofExcept (validateEvidence approval) >>= _)
                = Prog.ret ((validateEvidence approval).map fun _ => some approval)
              rw [Prog.ofExcept_bind]
              cases validateEvidence approval with
              | error e => rfl
              | ok u => rfl

end Stages

end BusinessApproval.D1
