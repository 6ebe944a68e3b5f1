import BusinessApproval.Proof.Tables
import BusinessApproval.Proof.Winner

/-!
# Creation exactly once

What the order of the calls and the log of the server say of creations that run side
by side. An answer is what the creation gives on the table that the calls before it
in the order leave, and no table loses a row: so what an answer says of a row can be
checked against the table at any later time.
-/

namespace BusinessApproval.Postgres

open Concurrent

/-! ## The answers -/

/-- Run alone, a call fails with no error but one of the database. -/
theorem Call.error_of_alone {timestamptz : Int → Int} {clock : Clock} {table : Table}
    (hs : Sound table) {call : Call} {e : StorageError}
    (h : (call.alone timestamptz clock table).1 = .error e) :
    ∃ name source, e = .database name source := by
  cases call.kind with
  | request intent =>
      rw [Call.alone_request timestamptz clock hs] at h
      have hends := (Creation.ofIntent timestamptz intent).ends hs
      generalize (Creation.ofIntent timestamptz intent).outcome table = outcome at hends h
      cases hends with
      | violated hc =>
          cases h
          exact ⟨_, _, rfl⟩
      | created hc hfree => cases h
      | repeated hrow hsame => cases h
      | conflict hrow hshare hother => cases h
  | read requestId requester =>
      rw [Call.alone_read timestamptz clock hs] at h
      cases h
  | @transition _ T hT =>
      rw [hT.alone timestamptz clock hs] at h
      have hends := T.ends clock.transactionTimestamp table
      generalize T.outcome clock.transactionTimestamp table = outcome at hends h
      cases hends with
      | missing hrow => cases h
      | refused hrow hr => cases h
      | violated hrow hr hc =>
          cases h
          exact ⟨_, _, rfl⟩
      | settled hrow hr hc => cases h

namespace Inv

variable {timestamptz : Int → Int} {w : World} {order : List (Entry Call Int)}

/-- What a client is promised is the answer of its call on some table of the order. -/
theorem answered (h : Inv timestamptz w order) (hrec : w.Recorded) {t : Nat} {call : Call}
    {a : Answer} (hcall : (w.clients t).call = some call)
    (hpromise : answerIn (serially timestamptz) [] order t = some a) :
    ∃ now earlier, earlier <:+ order
      ∧ (serially timestamptz now call (serial (serially timestamptz) [] earlier)).1 = a := by
  obtain ⟨e, earlier, hsuffix, rfl, hanswer⟩ := exists_of_answerIn _ _ hpromise
  have hinvoked := (hrec.invoked _ _).mp (h.linear.invoked e (hsuffix.subset List.mem_cons_self))
  cases hcall.symm.trans hinvoked
  exact ⟨e.stamp, earlier, (List.suffix_cons e earlier).trans hsuffix, hanswer⟩

/-- A client fails with no error but one of the database. -/
theorem error_of_finished (h : Inv timestamptz w order) (hrec : w.Recorded) {t : Nat}
    {call : Call} {e : StorageError} (hfinished : w.clients t = .finished call (.error e)) :
    ∃ name source, e = .database name source := by
  have hclient := h.clients t
  rw [hfinished] at hclient
  cases hclient with
  | finished hends _ =>
      rcases hends with ⟨name, source, herror⟩ | hpromise
      · exact ⟨name, source, Except.error.inj herror⟩
      · have hcall : (w.clients t).call = some call := by rw [hfinished]; rfl
        obtain ⟨now, earlier, -, hanswer⟩ := h.answered hrec hcall hpromise
        exact Call.error_of_alone (serial_sound timestamptz earlier) hanswer

/-- How a creation that has returned has ended, on a table that has grown since. -/
theorem creation_of_finished (h : Inv timestamptz w order) (hrec : w.Recorded) {t : Nat}
    {intent : RequestIntent} {result : Except DomainFailure Reply}
    (hfinished : w.clients t = .finished (.request intent) (.ok result)) :
    ∃ table outcome, Sound table ∧ Grows table w.shared.committed
      ∧ (Creation.ofIntent timestamptz intent).Ends table outcome
      ∧ outcomeAnswer outcome.1 = .ok result := by
  have hcall : (w.clients t).call = some (.request intent) := by rw [hfinished]; rfl
  obtain ⟨now, earlier, hsuffix, hanswer⟩ :=
    h.answered hrec hcall (h.promised_of_finished hfinished)
  have hs := serial_sound timestamptz earlier
  have hgrows := serial_grows timestamptz hsuffix
  rw [h.table] at hgrows
  rw [serially, Call.alone_request timestamptz _ hs] at hanswer
  exact ⟨_, _, hs, hgrows, (Creation.ofIntent timestamptz intent).ends hs, hanswer⟩

end Inv

/-! ## The log from here on -/

theorem Serves.log_subset {t : Nat} {d d' : Database} {o : SqlOp} {r : SqlRes o}
    (h : Serves t d o r d') : d.log ⊆ d'.log := by
  cases h with
  | commit h =>
      rw [Database.publish]
      split
      · exact List.Subset.refl _
      · exact List.subset_cons_self _ _
  | _ => exact List.Subset.refl _

theorem Works.log_subset {t : Nat} {d d' : Database} {o : SqlOp} (h : Works t d o d') :
    d.log ⊆ d'.log := by
  cases h with
  | lock => exact List.subset_cons_self _ _
  | _ => exact List.Subset.refl _

theorem Moves.log_subset {d d' : Database} (h : Moves d d') : d.log ⊆ d'.log := by
  cases h with
  | rollback => exact List.Subset.refl _
  | land =>
      rw [Database.publish]
      split
      · exact List.Subset.refl _
      · exact List.subset_cons_self _ _

/-- Nothing is taken from the log. -/
theorem step_log_subset {timestamptz : Int → Int} {w w' : World}
    (hstep : Step machine (Call.prog timestamptz) w w') : w.shared.log ⊆ w'.shared.log := by
  cases hstep with
  | invoke => exact List.Subset.refl _
  | @answer t _ o _ _ _ _ hs =>
      rcases hs with hs | ⟨_, _, _, rfl⟩
      · exact hs.log_subset
      · rw [(failed_committed (d := w.shared) (t := t) o).2.1]
        exact List.Subset.refl _
  | work _ hs => exact Works.log_subset hs
  | move hs => exact Moves.log_subset hs
  | respond => exact List.Subset.refl _

/-! ## Creations -/

/-- What the creations come to that have run so far. -/
structure CreatedExactlyOnce (timestamptz : Int → Int) (w : World) : Prop where
  /-- Of the calls that share a key, at most one answers that it has created. -/
  once : ∀ t u intent intent' result result',
    w.clients t = .finished (.request intent) (.ok (.ok (.outcome result))) →
    w.clients u = .finished (.request intent') (.ok (.ok (.outcome result'))) →
    result.created = true → result'.created = true → SharesKey intent intent' → t = u
  /-- A call that answers so has committed its row. -/
  created : ∀ t intent result,
    w.clients t = .finished (.request intent) (.ok (.ok (.outcome result))) →
    result.created = true → .committed t [.ofIntent timestamptz intent] ∈ w.shared.log
  /-- A row that has been committed stays, with its terms. -/
  kept : ∀ t intent written, .committed t written ∈ w.shared.log →
    (w.clients t).call = some (.request intent) →
    ∀ w', Later machine (Call.prog timestamptz) w w' →
      ∃ row, lookup w'.shared.committed intent.requestId = some row
        ∧ row.terms = (PgRow.ofIntent timestamptz intent).terms
  /-- A call that has created nothing answers with a row of its own intent. -/
  repeated : ∀ t intent result,
    w.clients t = .finished (.request intent) (.ok (.ok (.outcome result))) →
    result.created = false → sameIntent result.approval intent = true
      ∧ ∃ row ∈ w.shared.committed, sameIntent row.record intent = true
  /-- A refusal is a conflict with a row that has one of the keys, and not the intent. -/
  conflict : ∀ t intent failure,
    w.clients t = .finished (.request intent) (.ok (.error failure)) →
    failure = .idempotencyConflict ∧ ∃ row ∈ w.shared.committed,
      sharesKey intent row = true ∧ sameIntent row.record intent = false
  /-- Nothing but the database makes a call fail: no key is ever found taken without a row. -/
  failed : ∀ t call e, w.clients t = .finished call (.error e) →
    ∃ name source, e = .database name source

/-- **A creation happens exactly once**, whatever runs beside it and whatever fails. -/
theorem created_exactly_once (timestamptz : Int → Int) (w : World)
    (h : Running timestamptz w) : CreatedExactlyOnce timestamptz w := by
  have hrec := h.recorded
  obtain ⟨order, hinv⟩ := h.inv
  have hlog := hinv.log
  have hcall : ∀ {t call a}, w.clients t = .finished call a → (w.clients t).call = some call := by
    intro t call a hfinished
    rw [hfinished]
    rfl
  have hcommitted : ∀ {t intent result},
      w.clients t = .finished (.request intent) (.ok (.ok (.outcome result))) →
      result.created = true → ∃ written, .committed t written ∈ w.shared.log :=
    fun hfinished hcreated => hlog.logged (hinv.promised_of_finished hfinished) hcreated
  refine ⟨?_, ?_, ?_, ?_, ?_, fun t call e => hinv.error_of_finished hrec⟩
  · intro t u intent intent' result result' ht hu hcreated hcreated' hshare
    -- both have committed, and no two creations in the log share a key
    obtain ⟨written, hmem⟩ := hcommitted ht hcreated
    obtain ⟨written', hmem'⟩ := hcommitted hu hcreated'
    exact hlog.distinct hmem (hcall ht) hmem' (hcall hu) hshare
  · intro t intent result hfinished hcreated
    obtain ⟨written, hmem⟩ := hcommitted hfinished hcreated
    have hwritten := (hlog.created hmem (hcall hfinished)).written
    rwa [hwritten] at hmem
  · intro t intent written hmem hcall w' hlater
    -- the invariant holds in the later world, and the commit is still on record there
    obtain ⟨order', hinv'⟩ := Running.inv (Reachable.later h hlater)
    have hmem' := hlater.mem Database.log (fun _ _ => step_log_subset) hmem
    exact (hinv'.log.created hmem' (hlater.call hcall)).current
  · intro t intent result hfinished hcreated
    obtain ⟨table, outcome, hs, hgrows, hends, hanswer⟩ :=
      hinv.creation_of_finished hrec hfinished
    cases hends with
    | violated hc => cases hanswer
    | created hc hfree =>
        cases hanswer
        cases hcreated
    | @repeated row hrow hsame =>
        cases hanswer
        -- the row it met is still there, with its terms
        obtain ⟨row', hrow', hterms⟩ := hgrows.of_mem hs hrow
        refine ⟨hsame, row', hrow', ?_⟩
        rw [PgRow.sameIntent_of_terms hterms]
        exact hsame
    | conflict hrow hshare hother => cases hanswer
  · intro t intent failure hfinished
    obtain ⟨table, outcome, hs, hgrows, hends, hanswer⟩ :=
      hinv.creation_of_finished hrec hfinished
    cases hends with
    | violated hc => cases hanswer
    | created hc hfree => cases hanswer
    | repeated hrow hsame => cases hanswer
    | @conflict row hrow hshare hother =>
        cases hanswer
        -- so is the row that was in the way
        obtain ⟨row', hrow', hterms⟩ := hgrows.of_mem hs hrow
        refine ⟨rfl, row', hrow', ?_, ?_⟩
        · rw [PgRow.sharesKey_of_terms hterms]
          exact hshare
        · rw [PgRow.sameIntent_of_terms hterms]
          exact hother

theorem held_compare : (Creation.ofIntent Standard.deps.timestamptz holiday).compare held.record
    = (Creation.ofIntent Standard.deps.timestamptz holiday).finish "commit idempotent request" false held.record :=
  if_neg (by decide +kernel)

/-- A request waits for another one with its keys, and is answered with the row that one creates. -/
theorem meeting : ∃ w, Running Standard.deps.timestamptz w
    ∧ w.clients 0 = .finished (.request holiday) (.ok (.ok (.outcome ⟨true, held.record⟩)))
    ∧ w.clients 1 = .finished (.request holiday) (.ok (.ok (.outcome ⟨false, held.record⟩))) := by
  have h : Reachable machine (Call.prog Standard.deps.timestamptz) Database.empty _ := .initial
  replace h := h.step (.invoke 0 (.request holiday) rfl)
  replace h := h.step (.invoke 1 (.request holiday) rfl)
  rw [prog_request] at h
  replace h := h.step (.answer (t := 0) rfl (.inl (.begin 0 rfl)))
  replace h := h.step (.answer (t := 1) rfl (.inl (.begin 0 rfl)))
  replace h := h.step (.answer (t := 0) rfl (.inl (.inserted rfl held_checks rfl (by
    rintro (_ | _ | u) tx hu htx
    · exact absurd rfl hu
    · cases htx
      rfl
    · cases htx))))
  replace h := h.step (.answer (t := 0) rfl (.inl (.decode held)))
  replace h := h.step (.answer (t := 0) rfl (.inl (.commit rfl)))
  -- the other insertion goes on, and finds the keys taken
  replace h := h.step (.answer (t := 1) rfl (.inl (.insertTaken rfl held_checks rfl)))
  replace h := h.step (.work (t := 1) rfl
    (.snapshot rfl rfl (List.Perm.refl ["request-1"]) (List.cons_ne_nil _ _)))
  replace h := h.step (.work (t := 1) rfl (.lock rfl rfl (by
    rintro (_ | _ | u) tx hu htx
    · cases htx
    · exact absurd rfl hu
    · cases htx) (show _ = some held from rfl) rfl))
  replace h := h.step (.answer (t := 1) rfl (.inl (.selected rfl rfl)))
  replace h := h.step (.answer (t := 1) rfl (.inl (.decode held)))
  replace h := h.step (.answer (t := 1) (congrArg (Status.running _) held_compare)
    (.inl (.commit rfl)))
  replace h := h.step (.respond (t := 0) rfl)
  replace h := h.step (.respond (t := 1) rfl)
  exact ⟨_, h, rfl, rfl⟩

theorem created_exactly_once_meeting : ∃ w,
    w.clients 0 = .finished (.request holiday) (.ok (.ok (.outcome ⟨true, held.record⟩)))
    ∧ w.clients 1 = .finished (.request holiday) (.ok (.ok (.outcome ⟨false, held.record⟩)))
    ∧ Running Standard.deps.timestamptz w ∧ CreatedExactlyOnce Standard.deps.timestamptz w := by
  obtain ⟨w, h, hfirst, hsecond⟩ := meeting
  exact ⟨w, hfirst, hsecond, h, created_exactly_once _ w h⟩

end BusinessApproval.Postgres
