import BusinessApproval.Model.Service
import Mathlib.Data.List.Perm.Subperm
import Mathlib.Logic.Function.Basic

/-!
# The ledger: what an approval store is for

The abstract store. It is a partial function from request ids to approvals, with
no rows, columns, transactions or encodings:

* creating an approval succeeds when neither of its keys is in use, repeats the
  approval that is already there for the same intent, and conflicts otherwise;
* a pending approval is settled once, and stays as it was settled.

Both backends implement it, so what holds of every run over the ledger holds of
every run over either of them.
-/

namespace BusinessApproval

/-- The approvals, by request id. -/
abbrev Ledger := String → Option StoredApproval

/-- The instants a call works with. -/
structure Moments where
  /-- What the store answers when asked for the time. -/
  now : Int
  /-- When a settlement is recorded to have happened. -/
  settled : Int
  /-- What a deadline is compared with. -/
  due : Int
  deriving DecidableEq, Repr

namespace StoredApproval

/-- The approval an intent creates. -/
def ofIntent (intent : RequestIntent) : StoredApproval where
  requestId := intent.requestId
  requesterInstance := intent.requesterInstance
  idempotencyKey := intent.idempotencyKey
  requestedBy := intent.requestedBy
  approvalKind := intent.approvalKind
  subjectKind := intent.subjectKind
  subjectId := intent.subjectId
  intentDigest := intent.intentDigest
  status := .pending
  revision := 1
  requestedAt := intent.requestedAt
  expiresAt := intent.expiresAt
  terminalCallerInstance := none
  terminalActor := none
  evidenceRef := none
  reason := none
  terminalAt := none

/-- The second key of an approval. -/
def pair (approval : StoredApproval) : String × String :=
  (approval.requesterInstance, approval.idempotencyKey)

end StoredApproval

/-- An approval has the intent that creates it. -/
theorem StoredApproval.sameIntent_ofIntent (intent : RequestIntent) :
    sameIntent (.ofIntent intent) intent = true :=
  sameIntent_iff.mpr ⟨rfl, rfl, rfl, rfl, rfl, rfl, rfl, rfl, rfl⟩

/-- How a pending approval is settled. -/
structure Settlement where
  status : ApprovalStatus
  caller : String
  actor : Option String
  evidenceRef : Option String
  reason : Option String
  deriving DecidableEq, Repr

/-- The approval a settlement leaves. -/
def StoredApproval.settle (approval : StoredApproval) (set : Settlement)
    (instant : Int) : StoredApproval :=
  { approval with
    status := set.status
    revision := 2
    terminalCallerInstance := some set.caller
    terminalActor := set.actor
    evidenceRef := set.evidenceRef
    reason := set.reason
    terminalAt := some instant }

namespace Ledger

/-- Some approval uses the requester's idempotency key. -/
def PairTaken (L : Ledger) (pair : String × String) : Prop :=
  ∃ id approval, L id = some approval ∧ approval.pair = pair

open Classical in
/-- Create an approval, or find the one the same intent has created. -/
noncomputable def request (L : Ledger) (intent : RequestIntent) :
    Except DomainFailure RequestOutcome × Ledger :=
  match L intent.requestId with
  | some approval =>
      if sameIntent approval intent then (.ok ⟨false, approval⟩, L)
      else (.error .idempotencyConflict, L)
  | none =>
      if L.PairTaken (intent.requesterInstance, intent.idempotencyKey) then
        (.error .idempotencyConflict, L)
      else
        (.ok ⟨true, .ofIntent intent⟩,
          Function.update L intent.requestId (some (.ofIntent intent)))

/-- An approval as one requester, or anyone, may see it. -/
def read (L : Ledger) (id : String) (requester : Option String) : Option StoredApproval :=
  (L id).filter (fun approval => requester.isNone || requester == some approval.requesterInstance)

/-- Settle an approval, unless it is missing or there is a reason to refuse. -/
def settle (L : Ledger) (id : String) (refuse : StoredApproval → Option DomainFailure)
    (set : Settlement) (instant : Int) : Except DomainFailure StoredApproval × Ledger :=
  match L id with
  | none => (.error .requestNotFound, L)
  | some approval =>
      match refuse approval with
      | some failure => (.error failure, L)
      | none =>
          (.ok (approval.settle set instant),
            Function.update L id (some (approval.settle set instant)))

def refuseSettled (approval : StoredApproval) : Option DomainFailure :=
  if approval.status ≠ .pending then some .alreadyTerminal else none

def refuseOthers (caller : String) (approval : StoredApproval) : Option DomainFailure :=
  if approval.requesterInstance ≠ caller then some .notRequester else refuseSettled approval

def refuseEarly (due : Int) (approval : StoredApproval) : Option DomainFailure :=
  match refuseSettled approval with
  | some failure => some failure
  | none => if approval.expiresAt ≤ due then none else some .notDue

/-- What is settled was pending. -/
theorem pending_of_refuseSettled {approval : StoredApproval}
    (h : refuseSettled approval = none) : approval.status = .pending := by
  by_contra hp
  rw [refuseSettled, if_pos hp] at h
  cases h

theorem pending_of_refuseOthers {caller : String} {approval : StoredApproval}
    (h : refuseOthers caller approval = none) : approval.status = .pending := by
  unfold refuseOthers at h
  split at h
  next => cases h
  next => exact pending_of_refuseSettled h

theorem pending_of_refuseEarly {due : Int} {approval : StoredApproval}
    (h : refuseEarly due approval = none) : approval.status = .pending := by
  unfold refuseEarly at h
  split at h
  next => cases h
  next hs => exact pending_of_refuseSettled hs

/-- What may expire is due. -/
theorem due_of_refuseEarly {due : Int} {approval : StoredApproval}
    (h : refuseEarly due approval = none) : approval.expiresAt ≤ due := by
  unfold refuseEarly at h
  split at h
  next => cases h
  next =>
    split at h
    next hdue => exact hdue
    next => cases h

/-- The store methods on the ledger. None of them fails. -/
noncomputable def perform (m : Moments) : Prog.Handler StoreRes Ledger
  | .now, L => (.ok m.now, L)
  | .request intent, L => (.ok (L.request intent).1, (L.request intent).2)
  | .read id requester, L => (.ok (L.read id requester), L)
  | .decide id status caller actor evidence reason, L =>
      let (answer, L) :=
        L.settle id refuseSettled ⟨status, caller, some actor, some evidence, reason⟩ m.settled
      (.ok answer, L)
  | .cancel id caller actor reason, L =>
      let (answer, L) :=
        L.settle id (refuseOthers caller) ⟨.cancelled, caller, some actor, none, reason⟩ m.settled
      (.ok answer, L)
  | .expire id caller, L =>
      let (answer, L) :=
        L.settle id (refuseEarly m.due) ⟨.expired, caller, none, none, none⟩ m.settled
      (.ok answer, L)

/-! ## Keys -/

/-- An approval is found under its id, and no two approvals share the second key. -/
structure WellKeyed (L : Ledger) : Prop where
  ids : ∀ {id a}, L id = some a → a.requestId = id
  pairs : ∀ {id id' a b}, L id = some a → L id' = some b → a.pair = b.pair → id = id'

/-- An approval uses one of the two keys of an intent. -/
def SharesKey (intent : RequestIntent) (a : StoredApproval) : Prop :=
  a.pair = (intent.requesterInstance, intent.idempotencyKey) ∨ a.requestId = intent.requestId

/-- An approval with the same intent has both of its keys. -/
theorem keys_of_sameIntent {intent : RequestIntent} {a : StoredApproval}
    (h : sameIntent a intent = true) : a.requestId = intent.requestId
      ∧ a.pair = (intent.requesterInstance, intent.idempotencyKey) := by
  obtain ⟨h1, h2, h3, -⟩ := sameIntent_iff.mp h
  exact ⟨h1, Prod.ext h2 h3⟩

/-- An approval with the intent of a request answers it. -/
theorem request_of_sameIntent {L : Ledger} {intent : RequestIntent} {a : StoredApproval}
    (ha : L intent.requestId = some a) (hsame : sameIntent a intent = true) :
    L.request intent = (.ok ⟨false, a⟩, L) := by
  unfold request
  rw [ha]
  simp only [hsame, if_true]

/-- What a backend makes of the approvals that share a key with an intent. -/
def resolveFound (intent : RequestIntent) (found : List StoredApproval) :
    Except DomainFailure RequestOutcome :=
  match found with
  | [a] => if sameIntent a intent then .ok ⟨false, a⟩ else .error .idempotencyConflict
  | _ => .error .idempotencyConflict

section Found

variable {L : Ledger} {intent : RequestIntent} {found : List StoredApproval}

/-- An approval with the same intent is the only one that shares a key with it. -/
theorem found_of_sameIntent (h : L.WellKeyed) (hnodup : found.Nodup)
    (hfound : ∀ a, a ∈ found ↔ (∃ id, L id = some a) ∧ SharesKey intent a) {a : StoredApproval}
    (ha : a ∈ found) (hs : sameIntent a intent = true) : found = [a] := by
  obtain ⟨hid, hpair⟩ := keys_of_sameIntent hs
  obtain ⟨id, hL⟩ := ((hfound a).mp ha).1
  have honly : ∀ b ∈ found, b = a := by
    intro b hb
    obtain ⟨⟨id', hL'⟩, hshare⟩ := (hfound b).mp hb
    have heq : id' = id := by
      rcases hshare with hp | hi
      · exact h.pairs hL' hL (hp.trans hpair.symm)
      · rw [← h.ids hL', ← h.ids hL, hi, hid]
    rw [heq, hL] at hL'
    exact (Option.some.inj hL').symm
  have hlen : found.length = 1 := by
    have hsub : found ⊆ [a] := fun b hb => by rw [honly b hb]; exact List.mem_singleton_self a
    have hle := (hnodup.subperm hsub).length_le
    have hpos := List.length_pos_of_mem ha
    simp only [List.length_singleton] at hle
    omega
  rw [List.eq_replicate_of_mem honly, hlen]
  rfl

/-- If what shares a key has another intent, the request is in conflict, wherever it was found. -/
theorem request_conflict (h : L.WellKeyed)
    (hfound : ∀ a, a ∈ found ↔ (∃ id, L id = some a) ∧ SharesKey intent a) (hne : found ≠ [])
    (hother : ∀ a ∈ found, sameIntent a intent ≠ true) :
    L.request intent = (.error .idempotencyConflict, L) := by
  unfold request
  cases hL : L intent.requestId with
  | some a =>
      have ha : a ∈ found := (hfound a).mpr ⟨⟨_, hL⟩, Or.inr (h.ids hL)⟩
      simp only [hother a ha]
      rfl
  | none =>
      obtain ⟨a, ha⟩ := List.exists_mem_of_ne_nil found hne
      obtain ⟨⟨id, hid⟩, hshare⟩ := (hfound a).mp ha
      rcases hshare with hp | hi
      · have htaken : L.PairTaken (intent.requesterInstance, intent.idempotencyKey) :=
          ⟨id, a, hid, hp⟩
        simp only [htaken, if_true]
      · rw [← hi, h.ids hid, hid] at hL
        cases hL

/--
**Looking at the approvals that share a key is enough.**

An approval with the same intent has both keys, so no other approval can share
either one with the intent: it is the only one found. And if what is found has
another intent, there is a conflict wherever it was found.
-/
theorem request_of_found (h : L.WellKeyed) (hnodup : found.Nodup)
    (hfound : ∀ a, a ∈ found ↔ (∃ id, L id = some a) ∧ SharesKey intent a) (hne : found ≠ []) :
    L.request intent = (resolveFound intent found, L) := by
  by_cases hsame : ∃ a ∈ found, sameIntent a intent = true
  · obtain ⟨a, ha, hs⟩ := hsame
    obtain ⟨id, hL⟩ := ((hfound a).mp ha).1
    have hrid : L intent.requestId = some a := by
      rw [← (keys_of_sameIntent hs).1, h.ids hL, hL]
    simp only [request, hrid, hs, if_true, found_of_sameIntent h hnodup hfound ha hs,
      resolveFound]
  · have hother : ∀ a ∈ found, sameIntent a intent ≠ true := fun a ha hs => hsame ⟨a, ha, hs⟩
    rw [request_conflict h hfound hne hother]
    match found with
    | [] => rfl
    | [a] =>
        simp only [resolveFound, hother a (List.mem_singleton_self a)]
        rfl
    | _ :: _ :: _ => rfl

end Found

end Ledger

end BusinessApproval
