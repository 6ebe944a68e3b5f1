import BusinessApproval.Proof.Interleaved
import BusinessApproval.Proof.Standard

/-!
# One transition for each approval

What the order of the calls and the log of the server say of transitions that run
side by side. At most one of them settles an approval; the row has what that one has
set and nothing else; and who locks the row after it is refused.
-/

namespace BusinessApproval.Postgres

open Concurrent

/-- A commit of a transition on the approval with this id. -/
def settlesIn (w : World) (id : String) : ServerEvent → Bool
  | .committed t _ => ((w.clients t).call.bind Call.settles).any fun settles => settles.1 == id
  | .locked _ _ => false

/-- An event that no older one of its kind precedes is the only one of its kind. -/
theorem length_filter_le_one {p : ServerEvent → Bool} {log : List ServerEvent}
    (h : ∀ e older, e :: older <:+ log → p e = true → ∀ e' ∈ older, p e' = false) :
    (log.filter p).length ≤ 1 := by
  induction log with
  | nil => exact Nat.zero_le 1
  | cons e older ih =>
      have ih := ih fun e' older' hsuffix => h e' older' (hsuffix.trans (List.suffix_cons e older))
      cases he : p e with
      | false =>
          rw [List.filter_cons_of_neg (by simp [he])]
          exact ih
      | true =>
          have hnone : older.filter p = [] := List.filter_eq_nil_iff.mpr fun e' he' => by
            simp [h e older List.suffix_rfl he e' he']
          rw [List.filter_cons_of_pos he, hnone]
          exact Nat.le_refl 1

/-- What the calls come to that have run so far. -/
structure TransitionsLinearizable (timestamptz : Int → Int) (w : World) : Prop where
  /-- At most one transition on an approval commits. -/
  once : ∀ id, (w.shared.log.filter (settlesIn w id)).length ≤ 1
  /-- It leaves the row with what its call sets, and returns it unless it has failed. -/
  winner : ∀ t written call id set, .committed t written ∈ w.shared.log →
    (w.clients t).call = some call → call.settles = some (id, set) →
    ∃ (old : PgRow) (now : Int), w.shared.begun t = some now
      ∧ written = [old.settle set now]
      ∧ lookup w.shared.committed id = some (old.settle set now)
      ∧ ∀ result, w.clients t = .finished call (.ok result) →
        result = .ok (.settled (old.settle set now).record)
  /-- No row is settled but by it. -/
  settled : ∀ id row, lookup w.shared.committed id = some row → row.status ≠ "pending" →
    ∃ t call set, .committed t [row] ∈ w.shared.log ∧ (w.clients t).call = some call
      ∧ call.settles = some (id, set)
  /-- Who locks the row after it writes nothing, and is refused unless it fails. -/
  loser : ∀ u id older call set, .locked u id :: older <:+ w.shared.log →
    (w.clients u).call = some call → call.settles = some (id, set) →
    older.any (settlesIn w id) = true →
    (∀ written, .committed u written ∉ w.shared.log)
      ∧ ∃ row, lookup w.shared.committed id = some row ∧ row.status ≠ "pending"
        ∧ ∀ result, w.clients u = .finished call (.ok result) →
          result = .error (call.refusedBy row.record)
  /-- Run one at a time in some order that keeps to real time, the calls give their answers. -/
  serial : ∃ order, Linearizes Completes (serially timestamptz) [] w.history order
    ∧ serial (serially timestamptz) [] order = w.shared.committed
    ∧ ∀ e ∈ order, e.call.writes = true → w.shared.begun e.client = some e.stamp

/-- A client that has returned without an error returned what it had been promised. -/
theorem Inv.promised_of_finished {timestamptz : Int → Int} {w : World}
    {order : List (Entry Call Int)} (h : Inv timestamptz w order) {t : Nat} {call : Call}
    {result : Except DomainFailure Reply} (hfinished : w.clients t = .finished call (.ok result)) :
    answerIn (serially timestamptz) [] order t = some (.ok result) := by
  have hclient := h.clients t
  rw [hfinished] at hclient
  cases hclient with
  | finished hends _ =>
      rcases hends with ⟨_, _, herror⟩ | hpromise
      · cases herror
      · exact hpromise

theorem exists_of_settlesIn {w : World} {id : String} {e : ServerEvent}
    (h : settlesIn w id e = true) : ∃ t written call set, e = .committed t written
      ∧ (w.clients t).call = some call ∧ call.settles = some (id, set) := by
  cases e with
  | locked t id' => cases h
  | committed t written =>
      obtain ⟨⟨id', set⟩, hset, hid⟩ := (Option.any_eq_true _ _).mp h
      obtain ⟨call, hcall, hset⟩ := Option.bind_eq_some_iff.mp hset
      cases eq_of_beq hid
      exact ⟨t, written, call, set, rfl, hcall, hset⟩

/-- **Transitions are linearizable**, whatever runs beside them and whatever fails. -/
theorem transitions_linearizable (timestamptz : Int → Int) (w : World)
    (h : Running timestamptz w) : TransitionsLinearizable timestamptz w := by
  obtain ⟨order, hinv⟩ := h.inv
  have hlog := hinv.log
  refine ⟨fun id => ?_, ?_, fun id row hrow hp => hlog.settled hrow hp, ?_,
    order, hinv.linear, hinv.table, hinv.stamps⟩
  · -- of two settlements of one row, the later one would have met a settled row
    refine length_filter_le_one fun e older hsuffix he e' he' => ?_
    obtain ⟨t, written, call, set, rfl, hcall, hset⟩ := exists_of_settlesIn he
    by_contra hsettles
    obtain ⟨u, written', call', set', rfl, hcall', hset'⟩ :=
      exists_of_settlesIn (Bool.eq_true_of_not_eq_false hsettles)
    exact hlog.once hsuffix hcall hset he' hcall' hset'
  · intro t written call id set hmem hcall hset
    obtain ⟨row, hwritten, ⟨old, now, rfl, hbegun⟩, hcurrent, hpromised⟩ :=
      hlog.winner hmem hcall hset
    refine ⟨old, now, hbegun, hwritten, hcurrent, fun result hfinished => ?_⟩
    have hpromise := hinv.promised_of_finished hfinished
    exact Except.ok.inj (Option.some.inj (hpromise.symm.trans hpromised))
  · intro u id older call set hsuffix hcall hset hany
    obtain ⟨e, he, hsettles⟩ := List.any_eq_true.mp hany
    obtain ⟨t, written, call', set', rfl, hcall', hset'⟩ := exists_of_settlesIn hsettles
    obtain ⟨row, hrow, hrefused⟩ := hlog.loser hsuffix hcall hset he hcall' hset'
    -- the row has been settled by then, and is as it was left
    obtain ⟨row', hrow', hpending⟩ := hlog.not_pending hinv.db.sound
      (hsuffix.subset (List.mem_cons_of_mem _ he)) hcall' hset'
    cases hrow.symm.trans hrow'
    refine ⟨fun written' hmem => ?_, row, hrow, hpending, fun result hfinished => ?_⟩
    · -- it would have been promised its success
      obtain ⟨_, hsettled⟩ := hlog.winner hmem hcall hset
      cases hrefused.symm.trans hsettled.promised
    · have hpromise := hinv.promised_of_finished hfinished
      exact Except.ok.inj (Option.some.inj (hpromise.symm.trans hrefused))

/-! ## A race -/

def holiday : RequestIntent where
  requestId := "request-1"
  requesterInstance := "hr"
  idempotencyKey := "holiday-7"
  requestedBy := "employee-7"
  approvalKind := "holiday"
  subjectKind := "holiday"
  subjectId := "7"
  intentDigest := none
  requestedAt := 0
  expiresAt := 60000000000

def approve : Call := .decide "request-1" .approved "console" "manager-1" "email-1" none

def reject : Call := .decide "request-1" .rejected "console" "manager-2" "email-2" none

def held : PgRow := .ofIntent Standard.deps.timestamptz holiday

def approved : PgRow :=
  held.settle ⟨"approved", "console", some "manager-1", some "email-1", none⟩ 1

theorem held_checks : held.checks = true := by decide +kernel

theorem approved_checks : approved.checks = true := by decide +kernel

/--
Two decisions have seen the pending row when one of them locks it. The other one waits
for the commit, and is refused.
-/
theorem race : ∃ w, Running Standard.deps.timestamptz w
    ∧ w.shared.log = [.locked 2 "request-1", .committed 1 [approved], .locked 1 "request-1",
      .committed 0 [held]]
    ∧ w.clients 2 = .finished reject (.ok (.error .alreadyTerminal)) := by
  have h : Reachable machine (Call.prog Standard.deps.timestamptz) Database.empty _ := .initial
  replace h := h.step (.invoke 0 (.request holiday) rfl)
  replace h := h.step (.answer (t := 0) rfl (.inl (.begin 0 rfl)))
  replace h := h.step (.answer (t := 0) rfl (.inl (.inserted rfl held_checks rfl (by
    rintro (_ | u) tx hu htx
    · exact absurd rfl hu
    · cases htx))))
  replace h := h.step (.answer (t := 0) rfl (.inl (.decode held)))
  replace h := h.step (.answer (t := 0) rfl (.inl (.commit rfl)))
  replace h := h.step (.respond (t := 0) rfl)
  -- both decisions begin, and see the row
  replace h := h.step (.invoke 1 approve rfl)
  replace h := h.step (.invoke 2 reject rfl)
  replace h := h.step (.answer (t := 1) rfl (.inl (.begin 1 rfl)))
  replace h := h.step (.answer (t := 2) rfl (.inl (.begin 2 rfl)))
  replace h := h.step (.work (t := 1) rfl
    (.snapshot rfl rfl (List.Perm.refl ["request-1"]) (List.cons_ne_nil _ _)))
  replace h := h.step (.work (t := 2) rfl
    (.snapshot rfl rfl (List.Perm.refl ["request-1"]) (List.cons_ne_nil _ _)))
  -- the first one locks it, and commits
  replace h := h.step (.work (t := 1) rfl (.lock rfl rfl (by
    rintro (_ | _ | _ | u) tx hu htx
    · cases htx
    · exact absurd rfl hu
    · cases htx
      exact List.not_mem_nil
    · cases htx) (show _ = some held from rfl) rfl))
  replace h := h.step (.answer (t := 1) rfl (.inl (.selected rfl rfl)))
  replace h := h.step (.answer (t := 1) rfl (.inl (.decode held)))
  replace h := h.step (.answer (t := 1) rfl (.inl (.updated rfl (show _ = some held from rfl) (by
    rintro (_ | _ | _ | u) tx hu htx
    · cases htx
    · exact absurd rfl hu
    · cases htx
      exact List.not_mem_nil
    · cases htx) approved_checks)))
  replace h := h.step (.answer (t := 1) rfl (.inl (.decode approved)))
  replace h := h.step (.answer (t := 1) rfl (.inl (.commit rfl)))
  -- the other one gets the lock, and the row as it is now
  replace h := h.step (.work (t := 2) rfl (.lock rfl rfl (by
    rintro (_ | _ | _ | u) tx hu htx
    · cases htx
    · cases htx
    · exact absurd rfl hu
    · cases htx) (show _ = some approved from rfl) rfl))
  replace h := h.step (.answer (t := 2) rfl (.inl (.selected rfl rfl)))
  replace h := h.step (.answer (t := 2) rfl (.inl (.decode approved)))
  replace h := h.step (.respond (t := 1) rfl)
  replace h := h.step (.respond (t := 2) rfl)
  exact ⟨_, h, rfl, rfl⟩

theorem transitions_linearizable_race : ∃ w, w.shared.log = [.locked 2 "request-1",
      .committed 1 [approved], .locked 1 "request-1", .committed 0 [held]]
    ∧ Running Standard.deps.timestamptz w ∧ TransitionsLinearizable Standard.deps.timestamptz w := by
  obtain ⟨w, h, hlog, -⟩ := race
  exact ⟨w, hlog, h, transitions_linearizable _ w h⟩

end BusinessApproval.Postgres
