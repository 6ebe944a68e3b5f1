import BusinessApproval.Proof.Waiting
import BusinessApproval.Proof.Winner

/-!
# Deadlock

As long as nothing fails, the only calls that can go on waiting for each other are creations.
A creation that meets two approvals, one with its request id and one with its idempotency key,
locks them one after the other, in an order the server chooses; so each of several creations
may hold what the next one waits for (`Circle`). A server ends this by failing one of them.
Short of that, all calls under way come to their end as soon as nothing fails any more,
whatever is done first. And clients that give each request id one idempotency key never meet
two approvals.
-/

namespace BusinessApproval.Postgres

open Concurrent

/-- A creation that has locked one of the approvals it shares a key with, and waits for another. -/
structure Torn (w : World) (t : Nat) (held wanted : String) : Prop where
  creation : ∃ intent k, w.clients t
      = .running (.request intent) (.call (.selectForUpdate (sharesKey intent)) k)
    ∧ ∃ row row', lookup w.shared.committed held = some row
      ∧ lookup w.shared.committed wanted = some row'
      ∧ sharesKey intent row = true ∧ sharesKey intent row' = true
  apart : held ≠ wanted
  waits : ∃ tx rest rows, w.shared.transactions t = some tx
    ∧ tx.locking = some ⟨wanted :: rest, rows⟩ ∧ held ∈ tx.locks

/-- Creations each of which waits for what another one of them holds. -/
structure Circle (w : World) (clients : Set Nat) : Prop where
  nonempty : clients.Nonempty
  waits : ∀ t ∈ clients, ∃ held wanted, Torn w t held wanted
    ∧ ∃ u ∈ clients, u ≠ t ∧ ∃ tx, w.shared.transactions u = some tx ∧ wanted ∈ tx.locks

/-- No two requests so far pair a request id with two idempotency keys, or a key with two ids. -/
def Consistently (w : World) : Prop :=
  ∀ t u intent intent', .invoked t (.request intent) ∈ w.history →
    .invoked u (.request intent') ∈ w.history →
    (intent.requestId = intent'.requestId
      ↔ (intent.requesterInstance, intent.idempotencyKey)
        = (intent'.requesterInstance, intent'.idempotencyKey))

/-- All calls have returned, and no transaction is open. -/
structure Quiet (w : World) : Prop where
  finished : ∀ t call, (w.clients t).call = some call → ∃ a, w.clients t = .finished call a
  closed : ∀ t, w.shared.transactions t = none

/-- What becomes of the calls under way when nothing fails any more. -/
structure ComesToRest (w : World) : Prop where
  /-- There is not much left to do for each call made, in whatever order it is done. -/
  bounded : ∀ ws : List World, List.IsChain Calm (w :: ws) → ws.length ≤ 33 * w.called.length
  /-- So it comes to an end. -/
  ends : ∃ w', Relation.ReflTransGen Calm w w' ∧ ∀ w'', ¬ Calm w' w''
  /-- Where nothing can be done any more, all is done, or creations wait for each other. -/
  rests : ∀ w', Relation.ReflTransGen Calm w w' → (∀ w'', ¬ Calm w' w'') →
    Quiet w' ∨ ∃ clients, Circle w' clients
  /-- Creations that wait for each other do so until something fails. -/
  stuck : ∀ clients, Circle w clients → ∀ w', Relation.ReflTransGen Calm w w' → Circle w' clients
  /-- With one idempotency key for each request id they do not. -/
  consistent : Consistently w → ∀ w', Relation.ReflTransGen Calm w w' → (∀ w'', ¬ Calm w' w'') →
    Quiet w'

section Deadlock

variable {timestamptz : Int → Int} {w w' : World}

/-! ## Locks are of fetched rows -/

/-- What a client that locks rows one after another has locked, it has fetched. -/
def FetchesLocked (d : Database) (t : Nat) (status : Status SqlRes Call Answer) : Prop :=
  ∀ call condition k, status = .running call (.call (.selectForUpdate condition) k) →
    ∀ tx, d.transactions t = some tx → ∀ id ∈ tx.locks, ∃ waiting rows,
      tx.locking = some ⟨waiting, rows⟩ ∧ ∃ row ∈ rows, row.requestId = id

theorem FetchesLocked.congr {d d' : Database} {t : Nat} {status : Status SqlRes Call Answer}
    (h : FetchesLocked d t status) (htx : d'.transactions t = d.transactions t) :
    FetchesLocked d' t status := by
  intro call condition k hstatus tx hopen
  rw [htx] at hopen
  exact h call condition k hstatus tx hopen

theorem FetchesLocked.of_none {d : Database} {t : Nat} {status : Status SqlRes Call Answer}
    (htx : d.transactions t = none) : FetchesLocked d t status := by
  intro call condition k _ tx hopen
  cases htx.symm.trans hopen

section Stages

variable {d d' : Database} {t : Nat} {call : Call} {promise : Option Answer} {o : SqlOp}
  {k : SqlRes o → Prog SqlRes Answer} {r : SqlRes o} {condition : PgRow → Bool}
  {k' : SqlRes (.selectForUpdate condition) → Prog SqlRes Answer} {tx : OpenTransaction}

/-- A transition comes to its `SELECT … FOR UPDATE` without locks. -/
theorem Transition.At.selects {T : Transition Answer} (h : T.At d t promise (.call o k))
    (hs : Serves t d o r d') (hk : k r = .call (.selectForUpdate condition) k')
    (htx : d'.transactions t = some tx) : tx.locks = [] := by
  cases h with
  | start hnone =>
      cases hs with
      | begin timestamp =>
          -- a new transaction has no locks
          change Function.update d.transactions t _ t = some tx at htx
          rw [Function.update_self] at htx
          cases htx
          rfl
  | lock hb hold =>
      cases hs with
      | selectNothing => cases hk
      -- the next operation decodes the row, or there is none
      | @selected _ _ rows hopen hl => cases rows <;> cases hk
  | locked hb hc hold =>
      cases hs with
      | selectNothing => cases hk
      | @selected _ _ rows hopen hl => cases rows <;> cases hk
  | decodeLocked hb hc hold =>
      cases hs with
      | decode =>
          -- it is settled, or the clock of the server is asked, or it is over
          rw [PgRow.decode_of_checks hc] at hk
          change T.settle _ = _ at hk
          unfold Transition.settle at hk
          split at hk
          · cases hk
          · split at hk <;> cases hk
  | checkDue hb hc hrefuse hdeadline hold =>
      cases hs with
      | @selectDue _ tx hopen =>
          cases hrow : lookup (tx.view d.committed) T.requestId with
          | none =>
              rw [hrow] at hk
              cases hk
          | some row =>
              rw [hrow] at hk
              change (if _ then _ else _) = _ at hk
              split at hk <;> cases hk
  | write hb hc hr hold =>
      cases hs with
      | updateNothing => cases hk
      | updateRefused => cases hk
      | updated => cases hk
  | decodeWritten hb hr hc hold =>
      cases hs with
      | decode =>
          rw [PgRow.decode_of_checks hc] at hk
          cases hk
  | finish hb hr hc hold =>
      cases hs with
      | commit => cases hk

/-- So does a creation. -/
theorem Creation.At.selects {timestamptz : Int → Int} {intent : RequestIntent}
    (h : Creation.At timestamptz intent d t promise (.call o k))
    (hs : Serves t d o r d') (hk : k r = .call (.selectForUpdate condition) k')
    (htx : d'.transactions t = some tx) : tx.locks = [] := by
  cases h with
  | start hnone =>
      cases hs with
      | begin timestamp => cases hk
  | insert hb hold =>
      cases hs with
      | insertRefused => cases hk
      -- the keys are in use: the rows that use them are locked next, the first locks there are
      | insertTaken => exact (hold tx htx).1.locks
      | inserted => cases hk
  | decodeInserted hb hc hold =>
      cases hs with
      | decode =>
          rw [PgRow.decode_of_checks hc] at hk
          cases hk
  | finishInserted hb hc hold =>
      cases hs with
      | commit => cases hk
  | select hb hc hrow hshare hold =>
      cases hs with
      | selectNothing => cases hk
      | @selected _ _ rows hopen hl =>
          match rows with
          | [] => cases hk
          | [row] => cases hk
          -- two rows are a conflict, and one is decoded
          | _ :: _ :: _ => cases hk
  | selected hne hc hold =>
      cases hs with
      | selectNothing => cases hk
      | @selected _ _ rows hopen hl =>
          match rows with
          | [] => cases hk
          | [row] => cases hk
          | _ :: _ :: _ => cases hk
  | @decodeExisting row hc hold =>
      cases hs with
      | decode =>
          rw [PgRow.decode_of_checks hc] at hk
          change (Creation.ofIntent timestamptz intent).compare row.record = _ at hk
          unfold Creation.compare at hk
          split at hk <;> cases hk
  | finishExisting hold =>
      cases hs with
      | commit => cases hk

theorem RunningOk.selects {timestamptz : Int → Int} {call : Call}
    (h : RunningOk timestamptz d t call promise (.call o k))
    (hs : Serves t d o r d') (hk : k r = .call (.selectForUpdate condition) k')
    (htx : d'.transactions t = some tx) : tx.locks = [] := by
  cases h with
  | transition hT h => exact h.selects hs hk htx
  | creation h => exact h.selects hs hk htx
  | inspection h =>
      cases h with
      | start hnone =>
          cases hs with
          | select =>
              -- a read locks nothing
              generalize d.committed.filter _ = rows at hk
              cases rows <;> cases hk
      | decodeFound hc hnone =>
          cases hs with
          | decode row =>
              rw [PgRow.decode_of_checks hc] at hk
              cases hk

end Stages

/-- No call locks rows first of all. -/
theorem FetchesLocked.begin (timestamptz : Int → Int) (d : Database) (t : Nat) (call : Call) :
    FetchesLocked d t (.running call (call.prog timestamptz)) := by
  intro call' condition k hstatus tx htx
  have hprog : call.prog timestamptz = .call (.selectForUpdate condition) k :=
    (Status.running.inj hstatus).2
  cases call.kind with
  | request intent =>
      rw [prog_request] at hprog
      cases hprog
  | read requestId requester =>
      rw [prog_read] at hprog
      cases hprog
  | transition hT =>
      rw [hT.prog] at hprog
      cases hprog

/-- A `SELECT … FOR UPDATE` that gets on locks what it fetches. -/
theorem Works.fetching {d d' : Database} {t : Nat} {o : SqlOp} {call : Call}
    {k : SqlRes o → Prog SqlRes Answer} (hs : Works t d o d')
    (h : FetchesLocked d t (.running call (.call o k))) :
    FetchesLocked d' t (.running call (.call o k)) := by
  intro call' condition k' hstatus tx htx id hid
  cases hs with
  | @snapshot _ tx₀ waiting hopen hl hw hsome =>
      -- what is to be locked has just been found, so nothing is locked
      rw [Database.setTransaction_self] at htx
      cases htx
      obtain ⟨waiting', rows, hlocking, -⟩ := h _ _ _ rfl tx₀ hopen id hid
      cases hl.symm.trans hlocking
  | @lock _ tx₀ requestId rest rows row hopen hl hfree hrow hcond =>
      cases (Function.update_self t _ d.transactions).symm.trans htx
      -- the row that has just been locked, or one from before
      rcases List.mem_cons.mp hid with rfl | hid
      · exact ⟨rest, rows ++ [row], rfl, row, List.mem_append_right _ (List.mem_singleton_self row),
          requestId_of_lookup hrow⟩
      · obtain ⟨waiting', rows', hlocking, row', hrow', hkey⟩ := h _ _ _ rfl tx₀ hopen id hid
        cases hl.symm.trans hlocking
        exact ⟨rest, rows ++ [row], rfl, row', List.mem_append_left _ hrow', hkey⟩
  | @skip _ tx₀ requestId rest rows hopen hl hfree hgone =>
      -- a row that is gone is not locked
      rw [Database.setTransaction_self] at htx
      cases htx
      obtain ⟨waiting', rows', hlocking, row', hrow', hkey⟩ := h _ _ _ rfl tx₀ hopen id hid
      cases hl.symm.trans hlocking
      exact ⟨rest, rows, rfl, row', hrow', hkey⟩

theorem Running.fetching (hw : Running timestamptz w) (t : Nat) :
    FetchesLocked w.shared t (w.clients t) := by
  induction hw with
  | initial => exact .of_none rfl
  | @step w w' hw hstep ih =>
      obtain ⟨order, hinv⟩ := Running.inv hw
      cases hstep with
      | invoke u call hidle =>
          change FetchesLocked _ t (Function.update w.clients u _ t)
          by_cases ht : t = u
          -- the first statement of a call is not this one
          · subst ht
            rw [Function.update_self]
            exact .begin timestamptz _ _ _
          · rw [Function.update_of_ne ht]
            exact ih
      | @answer u call o k r d hrunning hs =>
          have hclient := hinv.clients u
          rw [hrunning] at hclient
          cases hclient with
          | running hf h =>
          change FetchesLocked d t (Function.update w.clients u _ t)
          by_cases ht : t = u
          · subst ht
            rw [Function.update_self]
            intro call' condition k' hstatus tx htx id hid
            have hk : k r = .call (.selectForUpdate condition) k' :=
              (Status.running.inj hstatus).2
            -- it goes on, or has been told of an error, after which it locks nothing
            rcases hs with hs | ⟨fault, clock, rfl, rfl⟩
            · rw [h.selects hs hk htx] at hid
              cases hid
            · obtain ⟨name, source, hret⟩ := hf.1 fault clock
              cases hret.symm.trans hk
          · rw [Function.update_of_ne ht]
            refine ih.congr ?_
            rcases hs with hs | ⟨fault, clock, rfl, rfl⟩
            · obtain ⟨promise', hp, -⟩ := h.serve hinv.db hs
              exact (hp.change.keeps hinv.db ht).transaction
            · exact ((failed_change o).keeps hinv.db ht).transaction
      | @work u call o k d hrunning hs =>
          have hclient := hinv.clients u
          rw [hrunning] at hclient
          cases hclient with
          | running hf h =>
          by_cases ht : t = u
          · subst ht
            rw [hrunning] at ih
            change FetchesLocked d t (w.clients t)
            rw [hrunning]
            exact hs.fetching ih
          · obtain ⟨promise', hp, -⟩ := h.work hinv.db hs
            exact ih.congr (hp.change.keeps hinv.db ht).transaction
      | move hs =>
          cases hs with
          -- the server ends a transaction, and its locks are gone
          | @rollback u tx htx =>
              by_cases ht : t = u
              · exact .of_none (ht ▸ Database.setTransaction_self ..)
              · exact ih.congr (Database.setTransaction_ne ht _ _)
          | @land u tx htx hs =>
              by_cases ht : t = u
              · exact .of_none (ht ▸ Database.publish_self ..)
              · exact ih.congr (Database.publish_ne ht _ _)
      | @respond u call a hrunning =>
          change FetchesLocked _ t (Function.update w.clients u _ t)
          by_cases ht : t = u
          · subst ht
            rw [Function.update_self]
            intro call' condition k' hstatus
            cases hstatus
          · rw [Function.update_of_ne ht]
            exact ih

/-! ## Who holds what -/

/-- A client that holds locks and is held up is a creation between two approvals. -/
theorem Running.torn (hw : Running timestamptz w) {t u : Nat} {call : Call} {o : SqlOp}
    {k : SqlRes o → Prog SqlRes Answer} {tx : OpenTransaction}
    (hrunning : w.clients t = .running call (.call o k))
    (htx : w.shared.transactions t = some tx) (hb : Blocked w.shared t tx u o)
    (hlocks : tx.locks ≠ []) : ∃ held wanted, Torn w t held wanted
      ∧ u ≠ t ∧ ∃ txu, w.shared.transactions u = some txu ∧ wanted ∈ txu.locks := by
  obtain ⟨order, hinv⟩ := hw.inv
  have hfetching := hw.fetching t
  have hclient := hinv.clients t
  rw [hrunning] at hclient hfetching
  cases hclient with
  | running hf h =>
  obtain ⟨-, hnone | ⟨intent, rfl, rfl⟩⟩ := h.blocked hinv.db htx hb
  · exact absurd hnone hlocks
  cases hb with
  | @lock _ wanted rest rows txu hl hu htxu hmem =>
  -- the row it has locked last is one it has fetched
  obtain ⟨held, hheld⟩ := List.exists_mem_of_ne_nil _ hlocks
  obtain ⟨waiting, rows', hl', row, hrow, rfl⟩ := hfetching _ _ _ rfl tx htx held hheld
  cases hl.symm.trans hl'
  cases h with
  | transition hT h =>
      exact absurd (h.blocked hinv.db htx (.lock hl hu htxu hmem)).2 hlocks
  | creation h =>
  have hcollecting : Creation.Collecting intent w.shared.committed tx (wanted :: rest) rows := by
    generalize answerIn (serially timestamptz) [] order t = promise at h
    cases h with
    | select hbegun hc hstored hshare hold =>
        rcases (hold tx htx).1.locking with hnone | ⟨_, _, hsome, -, hcollecting⟩
        · cases hl.symm.trans hnone
        · cases hl.symm.trans hsome
          exact hcollecting
    | selected hne hc hold => cases hl.symm.trans (hold tx htx).2
  obtain ⟨row', hlookup', hshare'⟩ := hcollecting.waiting wanted List.mem_cons_self
  obtain ⟨-, hlookup, hshare⟩ := hcollecting.fetched row hrow
  refine ⟨row.requestId, wanted, ⟨⟨intent, k, hrunning, row, row', hlookup, hlookup', hshare,
    hshare'⟩, ?_, tx, rest, rows, htx, hl, hheld⟩, hu, txu, htxu, hmem⟩
  rintro rfl
  exact (List.nodup_append.mp hcollecting.nodup).2.2 _ (List.mem_map_of_mem hrow) _
    List.mem_cons_self rfl

/-- What can go no further, when no step fails any more. -/
structure AtRest (w : World) : Prop where
  /-- A client that has not returned waits for another one. -/
  running : ∀ t call p, w.clients t = .running call p →
    ∃ (o : SqlOp) (k : SqlRes o → Prog SqlRes Answer) (tx : OpenTransaction) (u : Nat),
      p = .call o k ∧ w.shared.transactions t = some tx ∧ Blocked w.shared t tx u o
  /-- Nobody else has a transaction. -/
  owned : ∀ t tx, w.shared.transactions t = some tx → ∃ call p, w.clients t = .running call p

theorem Running.atRest (hw : Running timestamptz w) (hrest : ∀ w', ¬ Calm w w') : AtRest w := by
  obtain ⟨order, hinv⟩ := hw.inv
  refine ⟨fun t call p hrunning => ?_, fun t tx htx => ?_⟩
  · have hclient := hinv.clients t
    rw [hrunning] at hclient
    cases hclient with
    | running hf h =>
    cases p with
    | ret a => exact absurd (.respond hrunning) (hrest _)
    -- whatever can be done next is a step, unless another client holds it up
    | call o k =>
        cases h.standing with
        | serves hs => exact absurd (.serve hrunning hs) (hrest _)
        | works hs => exact absurd (.work hrunning hs) (hrest _)
        | lost ho hnone =>
            exact absurd (.refuse hrunning ho hnone ⟨.rowNotFound, false⟩ ⟨0, 0⟩) (hrest _)
        | @blocked tx u htx hb => exact ⟨o, k, tx, u, rfl, htx, hb⟩
  -- a transaction that outlives its client can be ended
  · cases hstatus : w.clients t with
    | idle =>
        have hclient := hinv.clients t
        rw [hstatus] at hclient
        cases hclient with
        | idle hp hnone => cases hnone.symm.trans htx
    | running call p => exact ⟨call, p, rfl⟩
    | finished call a => exact absurd (.rollback hstatus htx) (hrest _)

/-- Whoever is waited for holds locks. -/
theorem Running.holder (hw : Running timestamptz w) (hrest : AtRest w) {t u : Nat} {o : SqlOp}
    {tx : OpenTransaction} (hb : Blocked w.shared t tx u o) :
    ∃ txu, w.shared.transactions u = some txu ∧ txu.locks ≠ [] := by
  obtain ⟨order, hinv⟩ := hw.inv
  cases hb with
  | insert hu htxu htaken =>
      -- it has written nothing, as it is held up itself
      obtain ⟨call, p, hrunning⟩ := hrest.owned u _ htxu
      obtain ⟨o', k, txu, v, rfl, htxu', hbu⟩ := hrest.running u call p hrunning
      cases htxu.symm.trans htxu'
      have hclient := hinv.clients u
      rw [hrunning] at hclient
      cases hclient with
      | running hf h =>
      rw [(h.blocked hinv.db htxu hbu).1] at htaken
      cases htaken
  | lock hl hu htxu hmem => exact ⟨_, htxu, List.ne_nil_of_mem hmem⟩
  | update hu htxu hmem => exact ⟨_, htxu, List.ne_nil_of_mem hmem⟩

/-- **Where nothing can be done, all is done, or creations wait for each other.** -/
theorem Running.rests (hw : Running timestamptz w) (hrest : ∀ w', ¬ Calm w w') :
    Quiet w ∨ ∃ clients, Circle w clients := by
  have hat := hw.atRest hrest
  by_cases hany : ∃ t tx, w.shared.transactions t = some tx ∧ tx.locks ≠ []
  -- those who hold locks are all held up by one another
  · refine Or.inr ⟨{t | ∃ tx, w.shared.transactions t = some tx ∧ tx.locks ≠ []}, hany, ?_⟩
    rintro t ⟨tx, htx, hlocks⟩
    obtain ⟨call, p, hrunning⟩ := hat.owned t tx htx
    obtain ⟨o, k, tx', u, rfl, htx', hb⟩ := hat.running t call p hrunning
    cases htx.symm.trans htx'
    obtain ⟨held, wanted, htorn, hu, txu, htxu, hmem⟩ := hw.torn hrunning htx hb hlocks
    exact ⟨held, wanted, htorn, u, ⟨txu, htxu, List.ne_nil_of_mem hmem⟩, hu, txu, htxu, hmem⟩
  -- nobody holds a lock, so nobody is held up
  · have hnot : ∀ t call p, w.clients t ≠ .running call p := by
      intro t call p hrunning
      obtain ⟨o, k, tx, u, rfl, htx, hb⟩ := hat.running t call p hrunning
      exact hany ⟨u, hw.holder hat hb⟩
    refine Or.inl ⟨fun t call hcall => ?_, fun t => ?_⟩
    · cases hstatus : w.clients t with
      | idle =>
          rw [hstatus] at hcall
          cases hcall
      | running call' p => exact absurd hstatus (hnot t call' p)
      | finished call' a =>
          rw [hstatus] at hcall
          cases hcall
          exact ⟨a, rfl⟩
    · cases htx : w.shared.transactions t with
      | none => rfl
      | some tx =>
          obtain ⟨call, p, hrunning⟩ := hat.owned t tx htx
          exact absurd hrunning (hnot t call p)

/-! ## No way out -/

/-- What others do changes nothing for creations that wait for each other. -/
theorem Circle.untouched (hw : Running timestamptz w) {clients : Set Nat} (hc : Circle w clients)
    (h : Calm w w') : ∀ t ∈ clients, w'.clients t = w.clients t ∧ Keeps t w.shared w'.shared := by
  obtain ⟨order, hinv⟩ := hw.inv
  have hrunning : ∀ {t call p}, w.clients t = .running call p →
      RunningOk timestamptz w.shared t call (answerIn (serially timestamptz) [] order t) p := by
    intro t call p hstatus
    have hclient := hinv.clients t
    rw [hstatus] at hclient
    cases hclient with
    | running hf h => exact h
  -- a client of the circle can neither be answered nor get on
  have hstuck : ∀ {t}, t ∈ clients → ∃ intent k tx wanted rest rows u txu,
      w.clients t = .running (.request intent) (.call (.selectForUpdate (sharesKey intent)) k)
      ∧ w.shared.transactions t = some tx ∧ tx.locking = some ⟨wanted :: rest, rows⟩
      ∧ u ≠ t ∧ w.shared.transactions u = some txu ∧ wanted ∈ txu.locks := by
    intro t ht
    obtain ⟨held, wanted, ⟨⟨intent, k, hstatus, -⟩, -, tx, rest, rows, htx, hl, -⟩, u, -, hu, txu,
      htxu, hmem⟩ := hc.waits t ht
    exact ⟨intent, k, tx, wanted, rest, rows, u, txu, hstatus, htx, hl, hu, htxu, hmem⟩
  have hother : ∀ {v : Nat} {status : Status SqlRes Call Answer} {t}, t ≠ v →
      Function.update w.clients v status t = w.clients t := fun h => Function.update_of_ne h ..
  intro t ht
  obtain ⟨intent, k₀, tx, wanted, rest, rows, u, txu, hstatus, htx, hl, hu, htxu, hmem⟩ :=
    hstuck ht
  cases h with
  | @serve v call o k r d h hs =>
      obtain ⟨promise', hp, -⟩ := (hrunning h).serve hinv.db hs
      by_cases hv : t = v
      -- it cannot be served: it has to lock a row first
      · subst hv
        cases hstatus.symm.trans h
        cases hs with
        | selectNothing hopen hnone =>
            cases htx.symm.trans hopen
            cases hl.symm.trans hnone
        | selected hopen hl' =>
            cases htx.symm.trans hopen
            cases hl.symm.trans hl'
      · exact ⟨hother hv, hp.change.keeps hinv.db hv⟩
  | @refuse v call o k h ho hnone fault clock =>
      by_cases hv : t = v
      · subst hv
        -- it still has its transaction
        cases htx.symm.trans hnone
      · exact ⟨hother hv, (failed_change o).keeps hinv.db hv⟩
  | @work v call o k d h hs =>
      obtain ⟨promise', hp, -⟩ := (hrunning h).work hinv.db hs
      by_cases hv : t = v
      · subst hv
        cases hstatus.symm.trans h
        -- it has fetched, and the row that is next is another's
        cases hs with
        | snapshot hopen hnone =>
            cases htx.symm.trans hopen
            cases hl.symm.trans hnone
        | lock hopen hl' hfree =>
            cases htx.symm.trans hopen
            cases hl.symm.trans hl'
            exact absurd hmem (hfree u txu hu htxu)
        | skip hopen hl' hfree =>
            cases htx.symm.trans hopen
            cases hl.symm.trans hl'
            exact absurd hmem (hfree u txu hu htxu)
      · exact ⟨rfl, hp.change.keeps hinv.db hv⟩
  | @rollback v call a tx' h htx' =>
      by_cases hv : t = v
      · subst hv
        -- it has not returned
        cases hstatus.symm.trans h
      · exact ⟨rfl, Change.ends.keeps hinv.db hv⟩
  | @land v call a tx' h htx' hs =>
      by_cases hv : t = v
      · subst hv
        cases hstatus.symm.trans h
      · have hclient := hinv.clients v
        rw [h] at hclient
        cases hclient with
        | finished hends hold =>
            -- what another one publishes does not take its locks away
            obtain ⟨promise', hp, -⟩ := (hold tx' htx').publish hinv.db htx'
            exact ⟨rfl, hp.change.keeps hinv.db hv⟩
  | @respond v call a h =>
      by_cases hv : t = v
      · subst hv
        cases hstatus.symm.trans h
      · exact ⟨hother hv, Change.same.keeps hinv.db hv⟩

theorem Circle.calm (hw : Running timestamptz w) {clients : Set Nat} (hc : Circle w clients)
    (h : Calm w w') : Circle w' clients := by
  have huntouched := hc.untouched hw h
  refine ⟨hc.nonempty, fun t ht => ?_⟩
  obtain ⟨held, wanted, ⟨⟨intent, k, hstatus, row, row', hrow, hrow', hshare, hshare'⟩, hapart,
    tx, rest, rows, htx, hl, hheld⟩, u, hu, hne, txu, htxu, hmem⟩ := hc.waits t ht
  obtain ⟨hclient, hkeeps⟩ := huntouched t ht
  -- the rows are still there, with the keys they had
  obtain ⟨after, hafter, hterms⟩ := hkeeps.grows _ _ hrow
  obtain ⟨after', hafter', hterms'⟩ := hkeeps.grows _ _ hrow'
  refine ⟨held, wanted, ⟨⟨intent, k, hclient.trans hstatus, after, after', hafter, hafter', ?_, ?_⟩,
    hapart, tx, rest, rows, hkeeps.transaction.trans htx, hl, hheld⟩, u, hu, hne, txu,
    (huntouched u hu).2.transaction.trans htxu, hmem⟩
  · exact (PgRow.sharesKey_of_terms hterms intent).trans hshare
  · exact (PgRow.sharesKey_of_terms hterms' intent).trans hshare'

/-! ## One key for each request id -/

/-- Every row is of a request that has been made. -/
theorem Running.requested (hw : Running timestamptz w) {id : String} {row : PgRow}
    (hrow : lookup w.shared.committed id = some row) : ∃ u intent,
      .invoked u (.request intent) ∈ w.history
        ∧ row.terms = (PgRow.ofIntent timestamptz intent).terms := by
  obtain ⟨order, hinv⟩ := hw.inv
  rw [← hinv.table] at hrow
  obtain ⟨e, he, intent, hcall, hterms⟩ := serial_created hrow
  exact ⟨e.client, intent, hcall ▸ hinv.linear.invoked e he, hterms⟩

/-- With one idempotency key for each request id, a row that shares a key shares the id. -/
theorem Consistently.requestId_eq (hw : Running timestamptz w) (hc : Consistently w) {t : Nat}
    {intent : RequestIntent} (ht : (w.clients t).call = some (.request intent)) {id : String}
    {row : PgRow} (hrow : lookup w.shared.committed id = some row)
    (hshare : sharesKey intent row = true) : id = intent.requestId := by
  obtain ⟨u, intent', hinvoked, hterms⟩ := hw.requested hrow
  have hid : row.requestId = intent'.requestId := PgRow.requestId_of_terms hterms
  have hpair : row.pair = (intent'.requesterInstance, intent'.idempotencyKey) :=
    PgRow.pair_of_terms hterms
  have hpairs := hc t u intent intent' ((Reachable.recorded hw).invoked t _ |>.mpr ht) hinvoked
  rw [← requestId_of_lookup hrow, hid]
  simp only [sharesKey, Bool.or_eq_true, Bool.and_eq_true, beq_iff_eq] at hshare
  -- the row was created under the key of the intent, or under its id
  rcases hshare with ⟨hinstance, hkey⟩ | hsame
  · refine (hpairs.mpr ?_).symm
    rw [← hpair]
    exact (Prod.ext hinstance hkey).symm
  · exact hid.symm.trans hsame

theorem Consistently.no_circle (hw : Running timestamptz w) (hc : Consistently w)
    {clients : Set Nat} : ¬ Circle w clients := by
  rintro ⟨⟨t, ht⟩, hwaits⟩
  obtain ⟨held, wanted, ⟨⟨intent, k, hstatus, row, row', hrow, hrow', hshare, hshare'⟩, hapart, -⟩,
    -⟩ := hwaits t ht
  have hcall : (w.clients t).call = some (.request intent) := by
    rw [hstatus]
    rfl
  exact hapart ((hc.requestId_eq hw hcall hrow hshare).trans
    (hc.requestId_eq hw hcall hrow' hshare').symm)

/-- No step without failures makes a call. -/
theorem Calm.invoked (h : Calm w w') {t : Nat} {call : Call}
    (hmem : .invoked t call ∈ w'.history) : .invoked t call ∈ w.history := by
  cases h with
  | serve | refuse | work | rollback | land => exact hmem
  | respond =>
      rcases List.mem_cons.mp hmem with heq | hmem
      · cases heq
      · exact hmem

theorem Consistently.calm (hc : Consistently w) (h : Calm w w') : Consistently w' :=
  fun t u intent intent' ht hu => hc t u intent intent' (h.invoked ht) (h.invoked hu)

/-! ## Coming to rest -/

theorem Running.calms (hw : Running timestamptz w) (h : Relation.ReflTransGen Calm w w') :
    Running timestamptz w' := by
  induction h with
  | refl => exact hw
  | tail _ hstep ih => exact ih.calm hstep

/-- **Without failures all calls return**, unless creations wait for each other. -/
theorem comes_to_rest (timestamptz : Int → Int) (w : World) (hw : Running timestamptz w) :
    ComesToRest w := by
  obtain ⟨called, hcalled, hcard⟩ := World.calledIn hw
  -- each step takes something from what is left, and no client is called
  have hlowers := fun x y (hx : Running timestamptz x ∧ CalledIn called x) (h : Calm x y) =>
    h.allLeft_lt hx.1 hx.2
  refine ⟨fun ws hws => ?_, exists_rest hlowers ⟨hw, hcalled⟩,
    fun w' h hrest => (hw.calms h).rests hrest, fun clients hc w' h => ?_,
    fun hc w' h hrest => ?_⟩
  · calc ws.length ≤ allLeft called w := length_le_of_lowers hlowers ⟨hw, hcalled⟩ hws
      _ ≤ 33 * called.card := allLeft_le hw called
      _ ≤ 33 * w.called.length := Nat.mul_le_mul_left 33 hcard
  · induction h with
    | refl => exact hc
    | tail hbefore hstep ih => exact ih.calm (hw.calms hbefore) hstep
  -- no call is made meanwhile
  · have hlater : Consistently w' := by
      clear hrest
      induction h with
      | refl => exact hc
      | tail _ hstep ih => exact ih.calm hstep
    exact ((hw.calms h).rests hrest).resolve_right fun ⟨clients, hcircle⟩ =>
      hlater.no_circle (hw.calms h) hcircle

end Deadlock

/-! ## An embrace -/

/-- Another request of the same requester. -/
def journey : RequestIntent := { holiday with requestId := "request-2", idempotencyKey := "trip-8" }

/-- A request with the id of the one and the key of the other. -/
def mixture : RequestIntent := { holiday with idempotencyKey := "trip-8" }

def heldJourney : PgRow := .ofIntent Standard.deps.timestamptz journey

theorem heldJourney_checks : heldJourney.checks = true := by decide +kernel

theorem mixture_checks :
    (PgRow.ofIntent Standard.deps.timestamptz mixture).checks = true := by decide +kernel

/-- Two creations meet the same two rows, and lock them in different orders. -/
theorem embrace : ∃ w, Running Standard.deps.timestamptz w ∧ Circle w {2, 3} := by
  have h : Reachable machine (Call.prog Standard.deps.timestamptz) Database.empty _ := .initial
  replace h := h.step (.invoke 0 (.request holiday) rfl)
  replace h := h.step (.answer (t := 0) rfl (.inl (.begin 0 rfl)))
  replace h := h.step (.answer (t := 0) rfl (.inl (.inserted rfl held_checks rfl (by
    rintro (_ | u) tx hu htx
    · exact absurd rfl hu
    · cases htx))))
  replace h := h.step (.answer (t := 0) rfl (.inl (.decode held)))
  replace h := h.step (.answer (t := 0) rfl (.inl (.commit rfl)))
  replace h := h.step (.invoke 1 (.request journey) rfl)
  replace h := h.step (.answer (t := 1) rfl (.inl (.begin 0 rfl)))
  replace h := h.step (.answer (t := 1) rfl (.inl (.inserted rfl heldJourney_checks rfl (by
    rintro (_ | _ | u) tx hu htx
    · cases htx
    · exact absurd rfl hu
    · cases htx))))
  replace h := h.step (.answer (t := 1) rfl (.inl (.decode heldJourney)))
  replace h := h.step (.answer (t := 1) rfl (.inl (.commit rfl)))
  -- both keys of the next two requests are taken
  replace h := h.step (.invoke 2 (.request mixture) rfl)
  replace h := h.step (.invoke 3 (.request mixture) rfl)
  replace h := h.step (.answer (t := 2) rfl (.inl (.begin 0 rfl)))
  replace h := h.step (.answer (t := 3) rfl (.inl (.begin 0 rfl)))
  replace h := h.step (.answer (t := 2) rfl (.inl (.insertTaken rfl mixture_checks rfl)))
  replace h := h.step (.answer (t := 3) rfl (.inl (.insertTaken rfl mixture_checks rfl)))
  replace h := h.step (.work (t := 2) rfl (.snapshot rfl rfl
    (List.Perm.refl ["request-1", "request-2"]) (List.cons_ne_nil _ _)))
  replace h := h.step (.work (t := 3) rfl (.snapshot rfl rfl
    (List.Perm.swap "request-1" "request-2" []) (List.cons_ne_nil _ _)))
  replace h := h.step (.work (t := 2) rfl (.lock rfl rfl (by
    rintro (_ | _ | _ | _ | u) tx hu htx
    · cases htx
    · cases htx
    · exact absurd rfl hu
    · cases htx
      exact List.not_mem_nil
    · cases htx) (show _ = some held from rfl) rfl))
  replace h := h.step (.work (t := 3) rfl (.lock rfl rfl (by
    rintro (_ | _ | _ | _ | u) tx hu htx
    · cases htx
    · cases htx
    · cases htx
      decide
    · exact absurd rfl hu
    · cases htx) (show _ = some heldJourney from rfl) rfl))
  refine ⟨_, h, ⟨2, Or.inl rfl⟩, ?_⟩
  rintro t (rfl | rfl)
  · exact ⟨"request-1", "request-2", ⟨⟨mixture, _, rfl, held, heldJourney, rfl, rfl, rfl, rfl⟩,
      by decide, _, _, _, rfl, rfl, List.mem_singleton_self _⟩, 3, Or.inr rfl, by decide, _, rfl,
      List.mem_singleton_self _⟩
  · exact ⟨"request-2", "request-1", ⟨⟨mixture, _, rfl, heldJourney, held, rfl, rfl, rfl, rfl⟩,
      by decide, _, _, _, rfl, rfl, List.mem_singleton_self _⟩, 2, Or.inl rfl, by decide, _, rfl,
      List.mem_singleton_self _⟩

theorem comes_to_rest_embrace : ∃ w, Circle w {2, 3}
    ∧ Running Standard.deps.timestamptz w ∧ ComesToRest w := by
  obtain ⟨w, h, hcircle⟩ := embrace
  exact ⟨w, hcircle, h, comes_to_rest _ w h⟩

end BusinessApproval.Postgres
