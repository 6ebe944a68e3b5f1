import BusinessApproval.Proof.Steps

/-!
# What the log says

The log of the server has the rows that have been locked and those that have been
committed, in their order. `LogOk` relates it to the table and to what the clients
have been promised: who settled a row, who came too late, who created a row.
`LogOk.step` takes it over a step of a client, and `LogOk.invoke` over a new call.
-/

namespace BusinessApproval.Postgres

/-! ## Settled rows -/

/-- A row a transition has settled is not pending, if it is within its constraints. -/
theorem settle_not_pending {old : PgRow} {set : PgRow.Settlement} {now : Int}
    (hc : (old.settle set now).checks = true) : (old.settle set now).status ≠ "pending" := by
  intro hp
  simp only [PgRow.checks, Bool.and_eq_true] at hc
  obtain ⟨⟨-, hevidence⟩, -⟩ := hc
  simp [PgRow.evidenceCheck, PgRow.settle, show set.status = "pending" from hp] at hevidence

theorem pending_iff {row : PgRow} (hc : row.checks = true) :
    row.status = "pending" ↔ row.record.status = .pending := by
  have hs := (PgRow.checks_iff.mp hc).status
  rw [hs]
  cases row.record.status <;> simp [ApprovalStatus.asStr]

/-! ## Calls that write -/

/-- The answer of a call that has written. -/
def wrote : Answer → Bool
  | .ok (.ok (.outcome result)) => result.created
  | .ok (.ok (.settled _)) => true
  | _ => false

/-- Run alone, a creation that leaves the table as it is has not created a row. -/
theorem Creation.wrote_of_outcome {timestamptz : Int → Int} {intent : RequestIntent} {table : Table}
    (h : ((Creation.ofIntent timestamptz intent).outcome table).2 = table) :
    wrote (outcomeAnswer ((Creation.ofIntent timestamptz intent).outcome table).1) = false := by
  generalize hcreation : Creation.ofIntent timestamptz intent = c at h
  cases hc : c.row.checks with
  | false => simp [Creation.outcome, hc, outcomeAnswer, Except.map, wrote]
  | true =>
      cases ht : taken table c.row with
      | false =>
          -- the row would have been written
          rw [c.outcome_created hc ht] at h
          have hrow : c.row ∈ table := h ▸ Keyed.mem_of_lookup (Keyed.lookup_put_self _ _)
          exact absurd rfl ((Keyed.taken_eq_false.mp ht).1 c.row hrow)
      | true =>
          -- what is in use is left as it is
          simp only [Creation.outcome, hc, ht, Bool.not_true, Bool.false_eq_true, if_false]
          split
          · rfl
          · split <;> rfl
          · rfl

/-- Run alone, a transition that leaves the table as it is has not settled a row. -/
theorem Transition.wrote_of_outcome {T : Transition Answer} {call : Call} (hT : T.Performs call)
    {now : Int} {table : Table} (hs : Sound table) (h : (T.outcome now table).2 = table) :
    wrote (settledAnswer (T.outcome now table).1) = false := by
  cases hrow : lookup table T.requestId with
  | none => rw [T.outcome_missing hrow]; rfl
  | some row =>
      cases hr : T.refusal now row with
      | some failure => rw [T.outcome_refused hrow hr]; rfl
      | none =>
          cases hc : (row.settle T.set now).checks with
          | false => simp [Transition.outcome, hrow, hr, hc, settledAnswer, Except.map, wrote]
          | true =>
              rw [T.outcome_settled hrow hr hc] at h
              have hsettled : lookup table T.requestId = some (row.settle T.set now) := by
                rw [← h]
                exact lookup_put_settle hrow T.set now
              -- the row was pending and would be settled
              have hpending := T.pending_of_refusal hT (hs.checks_of_lookup hrow) hr
              rw [Option.some.inj (hrow.symm.trans hsettled)] at hpending
              exact absurd hpending (settle_not_pending hc)

/-- Run alone, a call that leaves the table as it is has not written. -/
theorem Call.wrote_of_alone {timestamptz : Int → Int} {clock : Clock} {table : Table}
    (hs : Sound table) {call : Call} {a : Answer}
    (h : call.alone timestamptz clock table = (a, table)) : wrote a = false := by
  cases call.kind with
  | request intent =>
      rw [Call.alone_request timestamptz clock hs] at h
      obtain ⟨rfl, htable⟩ := Prod.ext_iff.mp h
      exact Creation.wrote_of_outcome htable
  | read requestId requester =>
      rw [Call.alone_read timestamptz clock hs] at h
      obtain ⟨rfl, -⟩ := Prod.ext_iff.mp h
      rfl
  | @transition _ T hT =>
      rw [hT.alone timestamptz clock hs] at h
      obtain ⟨rfl, htable⟩ := Prod.ext_iff.mp h
      exact Transition.wrote_of_outcome hT hs htable

/-! ## What a step logs -/

namespace Logged

variable {timestamptz : Int → Int} {call : Call} {d d' : Database} {t : Nat}
  {promise : Option Answer}

theorem log_subset (h : Logged timestamptz call d d' t promise) : d.log ⊆ d'.log := by
  cases h with
  | silent h => exact h ▸ List.Subset.refl _
  | locked h => exact h ▸ List.subset_cons_self _ _
  | settled _ _ _ _ h => exact h ▸ List.subset_cons_self _ _
  | created _ _ h => exact h ▸ List.subset_cons_self _ _

theorem grows (h : Logged timestamptz call d d' t promise) : Grows d.committed d'.committed := by
  cases h with
  | silent _ hc => exact hc ▸ Grows.refl _
  | locked _ hc => exact hc ▸ Grows.refl _
  | @settled id set old now _ hold _ _ _ hc =>
      rw [hc]
      have hid : lookup d.committed (old.settle set now).requestId = some old := by
        rw [PgRow.settle_requestId, requestId_of_lookup hold]
        exact hold
      exact Grows.put_same hid rfl
  | created _ hfree _ hc => exact hc ▸ Grows.put_fresh hfree

end Logged

/-- A step that promises a call to have written says so in the log. -/
theorem Progress.logs_writes {timestamptz : Int → Int} {call : Call} {d d' : Database} {t : Nat}
    {promise promise' : Option Answer} (h : Progress timestamptz call d d' t promise promise')
    (hs : Sound d.committed) {a : Answer} (ha : promise' = some a) (hw : wrote a = true) :
    promise = some a ∨ ∃ written, .committed t written ∈ d'.log := by
  have heffect := h.effect
  subst ha
  cases heffect with
  | quiet => exact Or.inl rfl
  | @point _ now hb halone =>
      -- whoever has written has changed the table
      have hchanged : d'.committed ≠ d.committed := by
        intro hc
        rw [hc] at halone
        rw [Call.wrote_of_alone hs halone] at hw
        cases hw
      cases h.logged with
      | silent _ hc => exact absurd hc hchanged
      | locked _ hc => exact absurd hc hchanged
      | settled _ _ _ _ hlog => exact Or.inr ⟨_, hlog ▸ List.mem_cons_self⟩
      | created _ _ hlog => exact Or.inr ⟨_, hlog ▸ List.mem_cons_self⟩

/-! ## The log -/

/-- Two intents have the request id in common, or the requester and its idempotency key. -/
def SharesKey (intent intent' : RequestIntent) : Prop :=
  intent.requestId = intent'.requestId
    ∨ intent.requesterInstance = intent'.requesterInstance
      ∧ intent.idempotencyKey = intent'.idempotencyKey

theorem SharesKey.symm {intent intent' : RequestIntent} (h : SharesKey intent intent') :
    SharesKey intent' intent :=
  h.imp Eq.symm (And.imp Eq.symm Eq.symm)

/-- A transition of a client has settled a row, which is as it left it. -/
structure Settled (d : Database) (promise : Nat → Option Answer) (t : Nat) (id : String)
    (set : PgRow.Settlement) (written : Table) (row : PgRow) : Prop where
  written : written = [row]
  settles : ∃ (old : PgRow) (now : Int), row = old.settle set now ∧ d.begun t = some now
  current : lookup d.committed id = some row
  promised : promise t = some (.ok (.ok (.settled row.record)))

/-- A creation of a client has added its row, which is still there with its terms. -/
structure Created (timestamptz : Int → Int) (d : Database) (promise : Nat → Option Answer)
    (t : Nat) (intent : RequestIntent) (written : Table) : Prop where
  written : written = [.ofIntent timestamptz intent]
  current : ∃ row, lookup d.committed intent.requestId = some row
    ∧ row.terms = (PgRow.ofIntent timestamptz intent).terms
  promised : promise t
    = some (.ok (.ok (.outcome ⟨true, (PgRow.ofIntent timestamptz intent).record⟩)))

/-! ### What a step has added -/

/-- What a client has just committed: the row it has settled, or the one it has created. -/
inductive Commits (timestamptz : Int → Int) (call : Call) (d d' : Database)
    (promise : Nat → Option Answer) (t : Nat) (written : Table) : Prop
  | settled {id : String} {set : PgRow.Settlement} {old row : PgRow}
      (hset : call.settles = some (id, set)) (hold : lookup d.committed id = some old)
      (hp : old.status = "pending") (hrow : Settled d' promise t id set written row)
  | created {intent : RequestIntent} (hcall : call = .request intent)
      (hfree : taken d.committed (.ofIntent timestamptz intent) = false)
      (hrow : Created timestamptz d' promise t intent written)

namespace Logged

variable {timestamptz : Int → Int} {call : Call} {d d' : Database} {t : Nat}
  {promise : Nat → Option Answer}

theorem suffix_committed (h : Logged timestamptz call d d' t (promise t)) {u : Nat}
    {written : Table} {older : List ServerEvent} (hsuffix : .committed u written :: older <:+ d'.log) :
    .committed u written :: older <:+ d.log
      ∨ u = t ∧ older = d.log ∧ Commits timestamptz call d d' promise t written := by
  cases h with
  | silent hlog hc => exact Or.inl (hlog ▸ hsuffix)
  | locked hlog hc hset =>
      rw [hlog] at hsuffix
      rcases List.suffix_cons_iff.mp hsuffix with heq | hold
      -- the new event is a lock
      · cases heq
      · exact Or.inl hold
  | @settled id set old now hset hold hp hb hlog hc ha =>
      rw [hlog] at hsuffix
      rcases List.suffix_cons_iff.mp hsuffix with heq | hsuffix
      · cases heq
        -- the new event: the row stands as it has been settled
        have hcurrent : lookup d'.committed id = some (old.settle set now) := by
          rw [hc]
          exact lookup_put_settle hold set now
        exact Or.inr ⟨rfl, rfl, .settled hset hold hp ⟨rfl, ⟨old, now, rfl, hb⟩, hcurrent, ha⟩⟩
      · exact Or.inl hsuffix
  | @created intent hcall hfree hlog hc ha =>
      rw [hlog] at hsuffix
      rcases List.suffix_cons_iff.mp hsuffix with heq | hsuffix
      · cases heq
        -- the new event: the row stands as it has been created
        have hcurrent : lookup d'.committed intent.requestId
            = some (.ofIntent timestamptz intent) := by
          rw [hc]
          exact Keyed.lookup_put_self _ _
        exact Or.inr ⟨rfl, rfl, .created hcall hfree ⟨rfl, ⟨_, hcurrent, rfl⟩, ha⟩⟩
      · exact Or.inl hsuffix

/-- A commit in the log was there before the step, or is the client's own. -/
theorem mem_committed (h : Logged timestamptz call d d' t (promise t)) {u : Nat} {written : Table}
    (hmem : .committed u written ∈ d'.log) :
    .committed u written ∈ d.log ∨ u = t ∧ Commits timestamptz call d d' promise t written := by
  obtain ⟨newer, older, heq⟩ := List.append_of_mem hmem
  have hsuffix : .committed u written :: older <:+ d'.log := heq ▸ List.suffix_append _ _
  rcases h.suffix_committed hsuffix with hold | ⟨hu, -, hcommits⟩
  · exact Or.inl (hold.subset List.mem_cons_self)
  · exact Or.inr ⟨hu, hcommits⟩

theorem suffix_locked (h : Logged timestamptz call d d' t (promise t)) {u : Nat} {id : String}
    {older : List ServerEvent} (hsuffix : .locked u id :: older <:+ d'.log) :
    .locked u id :: older <:+ d.log
      ∨ u = t ∧ older = d.log ∧ d'.committed = d.committed ∧
        ∀ id' set, call.settles = some (id', set) → id' = id ∧ ∃ row,
          lookup d.committed id = some row ∧ (row.record.status ≠ .pending →
            promise t = some (.ok (.error (call.refusedBy row.record)))) := by
  cases h with
  | silent hlog hc => exact Or.inl (hlog ▸ hsuffix)
  | locked hlog hc hset =>
      rw [hlog] at hsuffix
      rcases List.suffix_cons_iff.mp hsuffix with heq | hold
      · cases heq
        exact Or.inr ⟨rfl, rfl, hc, hset⟩
      · exact Or.inl hold
  | settled _ _ _ _ hlog | created _ _ hlog =>
      rw [hlog] at hsuffix
      rcases List.suffix_cons_iff.mp hsuffix with heq | hold
      -- the new event is a commit
      · cases heq
      · exact Or.inl hold

theorem mem_locked (h : Logged timestamptz call d d' t (promise t)) {u : Nat} {id : String}
    (hmem : .locked u id ∈ d'.log) : .locked u id ∈ d.log ∨ u = t := by
  obtain ⟨newer, older, heq⟩ := List.append_of_mem hmem
  have hsuffix : .locked u id :: older <:+ d'.log := heq ▸ List.suffix_append _ _
  exact (h.suffix_locked hsuffix).imp (fun hold => hold.subset List.mem_cons_self) And.left

/-- A row that is not pending stays as it is. -/
theorem persists (h : Logged timestamptz call d d' t (promise t)) {id : String} {row : PgRow}
    (hrow : lookup d.committed id = some row) (hnot : row.status ≠ "pending") :
    lookup d'.committed id = some row := by
  cases h with
  | silent _ hc | locked _ hc => exact hc ▸ hrow
  | @settled id' set old now hset hold hp hb hlog hc ha =>
      -- the row that is settled was pending, so it is another one
      have hne : id ≠ (old.settle set now).requestId := by
        rintro rfl
        rw [PgRow.settle_requestId, requestId_of_lookup hold] at hrow
        cases hold.symm.trans hrow
        exact hnot hp
      rw [hc]
      exact (Keyed.lookup_put_ne hne).trans hrow
  | @created intent hcall hfree hlog hc ha =>
      -- a new row has a new id
      have hne : id ≠ (PgRow.ofIntent timestamptz intent).requestId := fun heq =>
        (Keyed.taken_eq_false.mp hfree).1 row (Keyed.mem_of_lookup hrow)
          ((requestId_of_lookup hrow).trans heq)
      rw [hc]
      exact (Keyed.lookup_put_ne hne).trans hrow

/-- A row that is not pending was there before the step, or is the one it has settled. -/
theorem row_settled (h : Logged timestamptz call d d' t (promise t)) {id : String} {row : PgRow}
    (hrow : lookup d'.committed id = some row) (hnot : row.status ≠ "pending") :
    lookup d.committed id = some row
      ∨ ∃ set, call.settles = some (id, set) ∧ .committed t [row] ∈ d'.log := by
  cases h with
  | silent _ hc | locked _ hc => exact Or.inl (hc ▸ hrow)
  | @settled id₀ set old now hset hold hp hb hlog hc ha =>
      rw [hc] at hrow
      by_cases heq : id = id₀
      · subst heq
        -- the row that has just been settled
        cases (lookup_put_settle hold set now).symm.trans hrow
        exact Or.inr ⟨set, hset, hlog ▸ List.mem_cons_self⟩
      · have hne : id ≠ (old.settle set now).requestId := by
          rwa [PgRow.settle_requestId, requestId_of_lookup hold]
        exact Or.inl ((Keyed.lookup_put_ne hne).symm.trans hrow)
  | @created intent hcall hfree hlog hc ha =>
      rw [hc] at hrow
      by_cases heq : id = (PgRow.ofIntent timestamptz intent).requestId
      · subst heq
        cases (Keyed.lookup_put_self _ _).symm.trans hrow
        -- a new row is pending
        exact absurd rfl hnot
      · exact Or.inl ((Keyed.lookup_put_ne heq).symm.trans hrow)

/-- A step adds what it logs in front. -/
theorem log_suffix (h : Logged timestamptz call d d' t (promise t)) : d.log <:+ d'.log := by
  cases h with
  | silent hlog => exact hlog ▸ List.suffix_rfl
  | locked hlog | settled _ _ _ _ hlog | created _ _ hlog => exact hlog ▸ List.suffix_cons _ _

end Logged

/-! ### From request to settlement -/

/-- The table that the commits of a log have made. -/
def replay : List ServerEvent → Table
  | [] => []
  | .locked _ _ :: older => replay older
  | .committed _ written :: older => written.foldl (Keyed.put PgRow.requestId) (replay older)

/-- A transaction of the client has committed the row, where there was `old` before. -/
def Made (log : List ServerEvent) (t : Nat) (old : Option PgRow) (row : PgRow) : Prop :=
  ∃ older, .committed t [row] :: older <:+ log ∧ lookup (replay older) row.requestId = old

theorem Made.mono {log log' : List ServerEvent} {t : Nat} {old : Option PgRow} {row : PgRow}
    (h : Made log t old row) (hlog : log <:+ log') : Made log' t old row := by
  obtain ⟨older, hsuffix, hold⟩ := h
  exact ⟨older, hsuffix.trans hlog, hold⟩

theorem Made.mem {log : List ServerEvent} {t : Nat} {old : Option PgRow} {row : PgRow}
    (h : Made log t old row) : .committed t [row] ∈ log := by
  obtain ⟨older, hsuffix, -⟩ := h
  exact hsuffix.subset List.mem_cons_self

/-- A row is as its request has made it, or as one transition has made it out of that. -/
inductive Lived (timestamptz : Int → Int) (log : List ServerEvent) (calls : Nat → Option Call)
    (row : PgRow) : Prop
  | requested {t : Nat} {intent : RequestIntent} (hcall : calls t = some (.request intent))
      (hrow : row = .ofIntent timestamptz intent) (hmade : Made log t none row)
  | settled {t u : Nat} {intent : RequestIntent} {old : PgRow} {call : Call}
      {set : PgRow.Settlement} (hcall : calls t = some (.request intent))
      (hold : old = .ofIntent timestamptz intent) (hmade : Made log t none old)
      (hu : calls u = some call) (hset : call.settles = some (row.requestId, set))
      (hmade' : Made log u (some old) row)

/-- The log gets longer, and clients that are in it keep their calls. -/
theorem Lived.mono {timestamptz : Int → Int} {log log' : List ServerEvent}
    {calls calls' : Nat → Option Call} {row : PgRow} (h : Lived timestamptz log calls row)
    (hlog : log <:+ log')
    (hcalls : ∀ {u c}, (∃ written, .committed u written ∈ log) → calls u = some c →
      calls' u = some c) : Lived timestamptz log' calls' row := by
  cases h with
  | requested hcall hrow hmade =>
      exact .requested (hcalls ⟨_, hmade.mem⟩ hcall) hrow (hmade.mono hlog)
  | settled hcall hold hmade hu hset hmade' =>
      exact .settled (hcalls ⟨_, hmade.mem⟩ hcall) hold (hmade.mono hlog)
        (hcalls ⟨_, hmade'.mem⟩ hu) hset (hmade'.mono hlog)

/-! ### The invariant -/

/-- What the log says of the clients with these calls and promises. -/
structure LogOk (timestamptz : Int → Int) (d : Database) (calls : Nat → Option Call)
    (promise : Nat → Option Answer) : Prop where
  /-- A client that is in the log has been called. -/
  known : ∀ {t : Nat}, (∃ written, .committed t written ∈ d.log) ∨ (∃ id, .locked t id ∈ d.log) →
    calls t ≠ none
  /-- A transition in the log has settled its row, and the row is as it left it. -/
  winner : ∀ {t written call id set}, .committed t written ∈ d.log → calls t = some call →
    call.settles = some (id, set) → ∃ row, Settled d promise t id set written row
  /-- A row that is not pending is one that some transition in the log has left. -/
  settled : ∀ {id row}, lookup d.committed id = some row → row.status ≠ "pending" →
    ∃ t call set, .committed t [row] ∈ d.log ∧ calls t = some call
      ∧ call.settles = some (id, set)
  /-- No transition in the log comes after another one with its row. -/
  once : ∀ {t written older call id set}, .committed t written :: older <:+ d.log →
    calls t = some call → call.settles = some (id, set) → ∀ {u written' call' set'},
      .committed u written' ∈ older → calls u = some call' → call'.settles ≠ some (id, set')
  /-- A transition that locks its row after another one has settled it is refused. -/
  loser : ∀ {u id older call set}, .locked u id :: older <:+ d.log → calls u = some call →
    call.settles = some (id, set) → ∀ {t written call' set'}, .committed t written ∈ older →
      calls t = some call' → call'.settles = some (id, set') →
      ∃ row, lookup d.committed id = some row
        ∧ promise u = some (.ok (.error (call.refusedBy row.record)))
  created : ∀ {t written intent}, .committed t written ∈ d.log →
    calls t = some (.request intent) → Created timestamptz d promise t intent written
  /-- No two creations in the log share a key. -/
  distinct : ∀ {t u written written' intent intent'}, .committed t written ∈ d.log →
    calls t = some (.request intent) → .committed u written' ∈ d.log →
    calls u = some (.request intent') → SharesKey intent intent' → t = u
  /-- Who is promised to have written is in the log. -/
  logged : ∀ {t a}, promise t = some a → wrote a = true → ∃ written, .committed t written ∈ d.log
  /-- Nothing but the commits in the log has changed the table. -/
  replayed : replay d.log = d.committed
  lives : ∀ {id row}, lookup d.committed id = some row → Lived timestamptz d.log calls row

theorem logOk_empty (timestamptz : Int → Int) (calls : Nat → Option Call) :
    LogOk timestamptz Database.empty calls fun _ => none where
  known h := by rcases h with ⟨_, h⟩ | ⟨_, h⟩ <;> cases h
  winner h := by cases h
  settled h := by cases h
  once h := by cases List.suffix_nil.mp h
  loser h := by cases List.suffix_nil.mp h
  created h := by cases h
  distinct h := by cases h
  logged h := by cases h
  replayed := rfl
  lives h := by cases h

namespace LogOk

variable {timestamptz : Int → Int} {d d' : Database} {calls : Nat → Option Call}
  {promise promise' : Nat → Option Answer}

/-- The row of a transition in the log is not pending. -/
theorem not_pending (h : LogOk timestamptz d calls promise) (hs : Sound d.committed) {t : Nat}
    {written : Table} {call : Call} {id : String} {set : PgRow.Settlement}
    (hlog : .committed t written ∈ d.log) (hcall : calls t = some call)
    (hset : call.settles = some (id, set)) :
    ∃ row, lookup d.committed id = some row ∧ row.status ≠ "pending" := by
  obtain ⟨row, hsettled⟩ := h.winner hlog hcall hset
  obtain ⟨old, now, rfl, -⟩ := hsettled.settles
  exact ⟨_, hsettled.current, settle_not_pending (hs.checks_of_lookup hsettled.current)⟩

/-- A key of a creation in the log is taken. -/
theorem taken_of_created (h : LogOk timestamptz d calls promise) {u : Nat} {written : Table}
    {intent intent' : RequestIntent} (hlog : .committed u written ∈ d.log)
    (hu : calls u = some (.request intent')) (hshare : SharesKey intent intent') :
    taken d.committed (.ofIntent timestamptz intent) = true := by
  obtain ⟨row, hrow, hterms⟩ := (h.created hlog hu).current
  refine taken_of_sharesKey (Creation.ofIntent timestamptz intent) (Keyed.mem_of_lookup hrow) ?_
  rw [PgRow.sharesKey_of_terms hterms]
  rcases hshare with hid | ⟨hinstance, hkey⟩
  · simp [sharesKey, PgRow.ofIntent, Creation.ofIntent, hid]
  · simp [sharesKey, PgRow.ofIntent, Creation.ofIntent, hinstance, hkey]

/-! ### A step of a client -/

/-- A client takes a step; what it adds to the log is what its new promise says. -/
structure Stepped (timestamptz : Int → Int) (d d' : Database) (calls : Nat → Option Call)
    (promise promise' : Nat → Option Answer) (t : Nat) (call : Call) : Prop where
  db : DbInv d
  called : calls t = some call
  logged : Logged timestamptz call d d' t (promise' t)
  /-- Promises are kept. -/
  mono : ∀ {u a}, promise u = some a → promise' u = some a
  others : ∀ u, u ≠ t → promise' u = promise u
  wrote : ∀ a, promise' t = some a → wrote a = true →
    promise t = some a ∨ ∃ written, .committed t written ∈ d'.log
  begun : ∀ u, promise u ≠ none → d'.begun u = d.begun u

section Steps

variable {t : Nat} {call : Call} (h : LogOk timestamptz d calls promise)
  (hs : Stepped timestamptz d d' calls promise promise' t call)
include h hs

theorem known_step {u : Nat}
    (hmem : (∃ written, .committed u written ∈ d'.log) ∨ (∃ id, .locked u id ∈ d'.log)) :
    calls u ≠ none := by
  have hself : calls t ≠ none := by
    rw [hs.called]
    exact Option.some_ne_none _
  rcases hmem with ⟨written, hmem⟩ | ⟨id, hmem⟩
  · rcases hs.logged.mem_committed hmem with hold | ⟨rfl, -⟩
    · exact h.known (Or.inl ⟨written, hold⟩)
    · exact hself
  · rcases hs.logged.mem_locked hmem with hold | rfl
    · exact h.known (Or.inr ⟨id, hold⟩)
    · exact hself

theorem winner_step {u : Nat} {written : Table} {c : Call} {id : String} {set : PgRow.Settlement}
    (hmem : .committed u written ∈ d'.log) (hu : calls u = some c)
    (hset : c.settles = some (id, set)) : ∃ row, Settled d' promise' u id set written row := by
  rcases hs.logged.mem_committed hmem with hold | ⟨rfl, hcommits⟩
  · -- the row is there to stay, and so are the timestamp and the promise
    obtain ⟨row, hsettled⟩ := h.winner hold hu hset
    obtain ⟨old, now, rfl, hb⟩ := hsettled.settles
    have hnot := settle_not_pending (hs.db.sound.checks_of_lookup hsettled.current)
    have hbegun := hs.begun u (by rw [hsettled.promised]; exact Option.some_ne_none _)
    exact ⟨_, hsettled.written, ⟨old, now, rfl, hbegun.trans hb⟩,
      hs.logged.persists hsettled.current hnot, hs.mono hsettled.promised⟩
  · cases hs.called.symm.trans hu
    cases hcommits with
    | settled hset' hold hp hrow =>
        cases hset'.symm.trans hset
        exact ⟨_, hrow⟩
    | created hcall =>
        subst hcall
        cases hset

theorem settled_step {id : String} {row : PgRow} (hrow : lookup d'.committed id = some row)
    (hnot : row.status ≠ "pending") :
    ∃ u c set, .committed u [row] ∈ d'.log ∧ calls u = some c ∧ c.settles = some (id, set) := by
  rcases hs.logged.row_settled hrow hnot with hold | ⟨set, hset, hmem⟩
  · obtain ⟨u, c, set, hmem, hu, hset⟩ := h.settled hold hnot
    exact ⟨u, c, set, hs.logged.log_subset hmem, hu, hset⟩
  · exact ⟨t, call, set, hmem, hs.called, hset⟩

theorem once_step {u : Nat} {written : Table} {older : List ServerEvent} {c : Call} {id : String}
    {set : PgRow.Settlement} (hsuffix : .committed u written :: older <:+ d'.log)
    (hu : calls u = some c) (hset : c.settles = some (id, set)) {v : Nat} {written' : Table}
    {c' : Call} {set' : PgRow.Settlement} (hmem : .committed v written' ∈ older)
    (hv : calls v = some c') : c'.settles ≠ some (id, set') := by
  rcases hs.logged.suffix_committed hsuffix with hold | ⟨rfl, rfl, hcommits⟩
  · exact h.once hold hu hset hmem hv
  · intro hset'
    cases hs.called.symm.trans hu
    cases hcommits with
    | settled hset₀ hold hp hrow =>
        -- the row was pending, so no transition in the log has settled it
        cases hset₀.symm.trans hset
        obtain ⟨row, hrow', hnot⟩ := h.not_pending hs.db.sound hmem hv hset'
        cases hold.symm.trans hrow'
        exact hnot hp
    | created hcall =>
        subst hcall
        cases hset

theorem loser_step {u : Nat} {id : String} {older : List ServerEvent} {c : Call}
    {set : PgRow.Settlement} (hsuffix : .locked u id :: older <:+ d'.log) (hu : calls u = some c)
    (hset : c.settles = some (id, set)) {v : Nat} {written : Table} {c' : Call}
    {set' : PgRow.Settlement} (hmem : .committed v written ∈ older) (hv : calls v = some c')
    (hset' : c'.settles = some (id, set')) :
    ∃ row, lookup d'.committed id = some row
      ∧ promise' u = some (.ok (.error (c.refusedBy row.record))) := by
  rcases hs.logged.suffix_locked hsuffix with hold | ⟨rfl, rfl, hc, hlocked⟩
  · obtain ⟨row, hrow, hrefused⟩ := h.loser hold hu hset hmem hv hset'
    have hmem' := hold.subset (List.mem_cons_of_mem _ hmem)
    obtain ⟨row', hrow', hnot⟩ := h.not_pending hs.db.sound hmem' hv hset'
    cases hrow.symm.trans hrow'
    exact ⟨row, hs.logged.persists hrow hnot, hs.mono hrefused⟩
  · -- the row has just been locked: it is the one the other transition has left
    cases hs.called.symm.trans hu
    obtain ⟨-, row, hrow, hrefused⟩ := hlocked _ _ hset
    obtain ⟨row', hrow', hnot⟩ := h.not_pending hs.db.sound hmem hv hset'
    cases hrow.symm.trans hrow'
    refine ⟨row, hc ▸ hrow, hrefused fun hp => hnot ?_⟩
    exact (pending_iff (hs.db.sound.checks_of_lookup hrow)).mpr hp

theorem created_step {u : Nat} {written : Table} {intent : RequestIntent}
    (hmem : .committed u written ∈ d'.log) (hu : calls u = some (.request intent)) :
    Created timestamptz d' promise' u intent written := by
  rcases hs.logged.mem_committed hmem with hold | ⟨rfl, hcommits⟩
  · obtain ⟨hwritten, ⟨row, hrow, hterms⟩, hp⟩ := h.created hold hu
    obtain ⟨row', hrow', hterms'⟩ := hs.logged.grows _ _ hrow
    exact ⟨hwritten, ⟨row', hrow', hterms'.trans hterms⟩, hs.mono hp⟩
  · cases hs.called.symm.trans hu
    cases hcommits with
    | settled hset => cases hset
    | created hcall hfree hrow =>
        cases hcall
        exact hrow

theorem distinct_step {u v : Nat} {written written' : Table} {intent intent' : RequestIntent}
    (hmem : .committed u written ∈ d'.log) (hu : calls u = some (.request intent))
    (hmem' : .committed v written' ∈ d'.log) (hv : calls v = some (.request intent'))
    (hshare : SharesKey intent intent') : u = v := by
  -- the keys of a creation are free, so no creation before it has one of them
  have hfresh : ∀ {w : Nat} {written written' : Table} {intent intent' : RequestIntent},
      .committed w written ∈ d.log → calls w = some (.request intent) →
      Commits timestamptz call d d' promise' t written' → calls t = some (.request intent') →
      ¬ SharesKey intent' intent := by
    intro w written written' intent intent' hold hw hcommits ht hshare
    cases hs.called.symm.trans ht
    cases hcommits with
    | settled hset => cases hset
    | created hcall hfree =>
        cases hcall
        cases hfree.symm.trans (h.taken_of_created hold hw hshare)
  rcases hs.logged.mem_committed hmem with hold | ⟨rfl, hcommits⟩
  · rcases hs.logged.mem_committed hmem' with hold' | ⟨rfl, hcommits'⟩
    · exact h.distinct hold hu hold' hv hshare
    · exact absurd hshare.symm (hfresh hold hu hcommits' hv)
  · rcases hs.logged.mem_committed hmem' with hold' | ⟨rfl, -⟩
    · exact absurd hshare (hfresh hold' hv hcommits hu)
    · rfl

theorem logged_step {u : Nat} {a : Answer} (ha : promise' u = some a) (hw : wrote a = true) :
    ∃ written, .committed u written ∈ d'.log := by
  have hold : promise u = some a → ∃ written, .committed u written ∈ d'.log := fun hp =>
    (h.logged hp hw).imp fun _ hmem => hs.logged.log_subset hmem
  by_cases hu : u = t
  · subst hu
    exact (hs.wrote a ha hw).elim hold id
  · exact hold ((hs.others u hu).symm.trans ha)

theorem replayed_step : replay d'.log = d'.committed := by
  have hold := h.replayed
  cases hs.logged with
  | silent hlog hc => rw [hlog, hc, hold]
  | locked hlog hc => rw [hlog, hc, replay, hold]
  | settled _ _ _ _ hlog hc | created _ _ hlog hc => rw [hlog, hc, replay, hold]; rfl

theorem lives_step {id : String} {row : PgRow} (hrow : lookup d'.committed id = some row) :
    Lived timestamptz d'.log calls row := by
  -- what was there before has lived as it had
  have hkept : ∀ {row}, lookup d.committed id = some row → Lived timestamptz d'.log calls row :=
    fun hrow => (h.lives hrow).mono hs.logged.log_suffix fun _ hcall => hcall
  have hlonger := hs.logged.log_suffix
  cases hs.logged with
  | silent _ hc | locked _ hc => exact hkept (hc ▸ hrow)
  | @settled id₀ set old now hset hold hp hb hlog hc ha =>
      have hid : (old.settle set now).requestId = id₀ :=
        (PgRow.settle_requestId _ _ _).trans (requestId_of_lookup hold)
      rw [hc] at hrow
      by_cases heq : id = id₀
      · subst heq
        cases (lookup_put_settle hold set now).symm.trans hrow
        have hmade' : Made d'.log t (some old) (old.settle set now) :=
          ⟨d.log, hlog ▸ List.suffix_rfl, by rw [h.replayed, hid]; exact hold⟩
        cases h.lives hold with
        | requested hcall hrow hmade =>
            exact .settled hcall hrow (hmade.mono hlonger) hs.called (hid ▸ hset) hmade'
        | settled _ _ _ hu hsettles hmade =>
            -- a row that another transition has settled is not pending any more
            obtain ⟨row, hrow, hnot⟩ := h.not_pending hs.db.sound hmade.mem hu hsettles
            rw [requestId_of_lookup hold] at hrow
            cases hold.symm.trans hrow
            exact absurd hp hnot
      · exact hkept ((Keyed.lookup_put_ne (hid.symm ▸ heq)).symm.trans hrow)
  | @created intent hcall hfree hlog hc ha =>
      rw [hc] at hrow
      by_cases heq : id = (PgRow.ofIntent timestamptz intent).requestId
      · subst heq
        cases (Keyed.lookup_put_self _ _).symm.trans hrow
        have hnone := Keyed.lookup_eq_none.mpr (Keyed.taken_eq_false.mp hfree).1
        exact .requested (hs.called.trans (congrArg some hcall)) rfl
          ⟨d.log, hlog ▸ List.suffix_rfl, h.replayed.symm ▸ hnone⟩
      · exact hkept ((Keyed.lookup_put_ne heq).symm.trans hrow)

/-- **What a step adds to the log agrees with what it has said so far.** -/
theorem step : LogOk timestamptz d' calls promise' where
  known := h.known_step hs
  winner := h.winner_step hs
  settled := h.settled_step hs
  once := h.once_step hs
  loser := h.loser_step hs
  created := h.created_step hs
  distinct := h.distinct_step hs
  logged := h.logged_step hs
  replayed := h.replayed_step hs
  lives := h.lives_step hs

end Steps

/-! ### A new call -/

/-- A client that is called is not in the log yet. -/
theorem invoke (h : LogOk timestamptz d calls promise) {t : Nat} (call : Call)
    (hnone : calls t = none) :
    LogOk timestamptz d (Function.update calls t (some call)) promise := by
  -- whoever is in the log was called before, so is not the new client
  have hcall : ∀ {u c}, (∃ written, .committed u written ∈ d.log) ∨ (∃ id, .locked u id ∈ d.log) →
      Function.update calls t (some call) u = some c → calls u = some c := by
    intro u c hmem hu
    have hne : u ≠ t := by
      rintro rfl
      exact h.known hmem hnone
    rwa [Function.update_of_ne hne] at hu
  refine ⟨?_, ?_, ?_, ?_, ?_, ?_, ?_, ?_, ?_, ?_⟩
  · intro u hmem hu
    by_cases hut : u = t
    · subst hut
      exact h.known hmem hnone
    · rw [Function.update_of_ne hut] at hu
      exact h.known hmem hu
  · intro u written c id set hmem hu hs
    exact h.winner hmem (hcall (Or.inl ⟨written, hmem⟩) hu) hs
  · intro id row hrow hp
    obtain ⟨u, c, set, hmem, hu, hs⟩ := h.settled hrow hp
    refine ⟨u, c, set, hmem, ?_, hs⟩
    have hne : u ≠ t := by
      rintro rfl
      rw [hnone] at hu
      cases hu
    rwa [Function.update_of_ne hne]
  · intro u written older c id set hsuffix hu hs v written' c' set' hmem hv
    have hmem' := hsuffix.subset (List.mem_cons_of_mem _ hmem)
    exact h.once hsuffix (hcall (Or.inl ⟨written, hsuffix.subset List.mem_cons_self⟩) hu) hs hmem
      (hcall (Or.inl ⟨written', hmem'⟩) hv)
  · intro u id older c set hsuffix hu hs v written c' set' hmem hv hs'
    have hmem' := hsuffix.subset (List.mem_cons_of_mem _ hmem)
    exact h.loser hsuffix (hcall (Or.inr ⟨id, hsuffix.subset List.mem_cons_self⟩) hu) hs hmem
      (hcall (Or.inl ⟨written, hmem'⟩) hv) hs'
  · intro u written intent hmem hu
    exact h.created hmem (hcall (Or.inl ⟨written, hmem⟩) hu)
  · intro u v written written' intent intent' hmem hu hmem' hv
    exact h.distinct hmem (hcall (Or.inl ⟨written, hmem⟩) hu) hmem'
      (hcall (Or.inl ⟨written', hmem'⟩) hv)
  · exact h.logged
  · exact h.replayed
  · intro id row hrow
    refine (h.lives hrow).mono List.suffix_rfl fun {u c} hmem hu => ?_
    have hne : u ≠ t := by
      rintro rfl
      exact h.known (Or.inl hmem) hnone
    rwa [Function.update_of_ne hne]

end LogOk

end BusinessApproval.Postgres
