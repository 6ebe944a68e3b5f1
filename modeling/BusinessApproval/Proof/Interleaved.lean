import BusinessApproval.Lib.Linearize
import BusinessApproval.Proof.Log

/-!
# All interleavings of the storage functions

`Inv` is the invariant of the worlds that concurrent calls lead to: the server is in
order, every client is at a stage of its program, and the calls that have been
linearized, in their order, give the table as it is and the answers as promised.
`inv_step` takes it over every step of every client and of the server, and
`Running.inv` is what follows by induction.
-/

namespace BusinessApproval.Postgres

open Concurrent

/-- A call run at a timestamp. No storage function reads the other clock. -/
def serially (timestamptz : Int → Int) (now : Int) (call : Call) (table : Table) : Answer × Table :=
  call.alone timestamptz ⟨0, now⟩ table

/-- A call has completed when it has returned without an error of the database. -/
def Completes (a : Answer) : Prop := ∃ result, a = .ok result

/-- A client, with the answer it has been promised. -/
inductive ClientOk (timestamptz : Int → Int) (d : Database) (t : Nat) (promise : Option Answer) :
    Status SqlRes Call Answer → Prop
  | idle (hp : promise = none) (htx : d.transactions t = none) :
      ClientOk timestamptz d t promise .idle
  | running {call : Call} {p : Prog SqlRes Answer} (hf : FailsFast p)
      (h : RunningOk timestamptz d t call promise p) :
      ClientOk timestamptz d t promise (.running call p)
  | finished {call : Call} {a : Answer} (h : EndsWith promise a)
      (htx : Holding d t (Backed timestamptz d t call promise)) :
      ClientOk timestamptz d t promise (.finished call a)

/-! ## The invariant -/

/-- A client stays as it is when others take their steps. -/
theorem ClientOk.keeps {timestamptz : Int → Int} {d d' : Database} {t : Nat}
    {promise : Option Answer} {status : Status SqlRes Call Answer}
    (h : ClientOk timestamptz d t promise status) (hk : Keeps t d d') (hd : DbInv d) :
    ClientOk timestamptz d' t promise status := by
  cases h with
  | idle hp htx => exact .idle hp (hk.transaction.trans htx)
  | running hf h => exact .running hf (h.keeps hk hd)
  | finished h htx => exact .finished h (htx.keeps hk fun _ htx h => h.keeps hk htx)

structure Inv (timestamptz : Int → Int) (w : World) (order : List (Entry Call Int)) : Prop where
  db : DbInv w.shared
  linear : Linearizes Completes (serially timestamptz) [] w.history order
  table : serial (serially timestamptz) [] order = w.shared.committed
  /-- A call that may write is in the order with the timestamp of its transaction. -/
  stamps : ∀ e ∈ order, e.call.writes = true → w.shared.begun e.client = some e.stamp
  clients : ∀ t, ClientOk timestamptz w.shared t (answerIn (serially timestamptz) [] order t)
    (w.clients t)
  log : LogOk timestamptz w.shared (fun t => (w.clients t).call)
    (answerIn (serially timestamptz) [] order)

theorem inv_initial (timestamptz : Int → Int) :
    Inv timestamptz (.initial Database.empty) [] where
  db := dbInv_empty
  linear := Linearizes.initial
  table := rfl
  stamps _ he := by cases he
  clients _ := .idle rfl rfl
  log := logOk_empty timestamptz _

namespace Inv

variable {timestamptz : Int → Int} {w : World} {order : List (Entry Call Int)}

/-- A step of a client or on its behalf, when the order it leads to is known. -/
theorem advance_to (h : Inv timestamptz w order) {t : Nat} {call : Call} {d' : Database}
    {promise' : Option Answer} (hcall : (w.clients t).call = some call)
    (hp : Progress timestamptz call w.shared d' t (answerIn (serially timestamptz) [] order t)
      promise')
    {clients : Nat → Status SqlRes Call Answer} (hothers : ∀ u, u ≠ t → clients u = w.clients u)
    (hcall' : (clients t).call = some call) (hok : ClientOk timestamptz d' t promise' (clients t))
    {order' : List (Entry Call Int)}
    (hlinear : Linearizes Completes (serially timestamptz) [] w.history order')
    (htable : serial (serially timestamptz) [] order' = d'.committed)
    (hself : answerIn (serially timestamptz) [] order' t = promise')
    (hanswers : ∀ u, u ≠ t → answerIn (serially timestamptz) [] order' u
      = answerIn (serially timestamptz) [] order u)
    (hstamps : ∀ e ∈ order', e.call.writes = true → d'.begun e.client = some e.stamp) :
    Inv timestamptz ⟨d', clients, w.history⟩ order' where
  db := hp.change.dbInv h.db
  linear := hlinear
  table := htable
  stamps := hstamps
  clients u := by
    by_cases hu : u = t
    · subst hu
      rw [hself]
      exact hok
    · change ClientOk timestamptz d' u _ (clients u)
      rw [hanswers u hu, hothers u hu]
      exact (h.clients u).keeps (hp.change.keeps h.db hu) h.db
  log := by
    have hcalls : (fun u => (clients u).call) = fun u => (w.clients u).call := by
      funext u
      by_cases hu : u = t
      · subst hu
        rw [hcall, hcall']
      · rw [hothers u hu]
    change LogOk timestamptz d' (fun u => (clients u).call) _
    rw [hcalls]
    -- a promise, once made, is not taken back
    have hmono : ∀ {u a}, answerIn (serially timestamptz) [] order u = some a →
        answerIn (serially timestamptz) [] order' u = some a := by
      intro u a ha
      by_cases hu : u = t
      · subst hu
        rw [hself]
        have heffect := hp.effect
        rw [ha] at heffect
        cases heffect with
        | quiet => rfl
      · rw [hanswers u hu]
        exact ha
    -- a client with a promise keeps the clock it began with
    have hbegun : ∀ u, answerIn (serially timestamptz) [] order u ≠ none →
        d'.begun u = w.shared.begun u := by
      intro u hpromised
      by_cases hu : u = t
      · subst hu
        exact hp.begun.resolve_left hpromised
      · exact (hp.change.keeps h.db hu).begun
    exact h.log.step ⟨h.db, hcall, hself ▸ hp.logged, hmono, hanswers,
      fun a ha hw => hp.logs_writes h.db.sound (hself.symm.trans ha) hw, hbegun⟩

/-- A step of a client or on its behalf. -/
theorem advance (h : Inv timestamptz w order) (hrec : w.Recorded) {t : Nat} {call : Call}
    {d' : Database} {promise' : Option Answer} (hcall : (w.clients t).call = some call)
    (hp : Progress timestamptz call w.shared d' t (answerIn (serially timestamptz) [] order t)
      promise')
    {clients : Nat → Status SqlRes Call Answer} (hothers : ∀ u, u ≠ t → clients u = w.clients u)
    (hcall' : (clients t).call = some call)
    (hok : ClientOk timestamptz d' t promise' (clients t)) :
    ∃ order', Inv timestamptz ⟨d', clients, w.history⟩ order' := by
  have hbegun : ∀ e ∈ order, d'.begun e.client = w.shared.begun e.client := by
    intro e he
    by_cases hu : e.client = t
    · have hmem : t ∈ order.map Entry.client := hu ▸ List.mem_map_of_mem he
      rw [hu]
      refine hp.begun.resolve_left fun hnone => ?_
      exact (answerIn_eq_none _ _).mp hnone hmem
    · exact (hp.change.keeps h.db hu).begun
  generalize hpromise : answerIn (serially timestamptz) [] order t = promise at hp
  have heffect := hp.effect
  cases heffect with
  | quiet hc =>
      -- nothing takes effect: the order stays
      refine ⟨order, h.advance_to hcall (hpromise ▸ hp) hothers hcall' hok h.linear
        (h.table.trans hc.symm) hpromise (fun _ _ => rfl) (fun e he hw => ?_)⟩
      rw [hbegun e he]
      exact h.stamps e he hw
  | @point a now hb ha =>
      -- this is where the call takes effect: it becomes the last of the order
      have hfresh := (answerIn_eq_none _ _).mp hpromise
      have hspec : serially timestamptz now call (serial (serially timestamptz) [] order)
          = (a, d'.committed) := by
        rw [h.table]
        exact ha
      refine ⟨⟨t, now, call⟩ :: order, h.advance_to hcall (hpromise ▸ hp) hothers hcall' hok
        (h.linear.point now hfresh ((hrec.invoked t call).mpr hcall)) ?_ ?_ ?_ ?_⟩
      · rw [serial_cons, hspec]
      · rw [answerIn_cons, if_pos rfl, hspec]
      · intro u hu
        rw [answerIn_cons, if_neg (Ne.symm hu)]
      · intro e he hw
        rcases List.mem_cons.mp he with rfl | he
        · exact hb hw
        · rw [hbegun e he]
          exact h.stamps e he hw

end Inv

/-- A client whose program is over. -/
theorem RunningOk.of_ret {timestamptz : Int → Int} {d : Database} {t : Nat} {call : Call}
    {promise : Option Answer} {a : Answer} (h : RunningOk timestamptz d t call promise (.ret a)) :
    EndsWith promise a ∧ Holding d t (Backed timestamptz d t call promise) := by
  cases h with
  | transition hT h => cases h
  | creation h => cases h
  | inspection h => cases h
  | ended h htx => exact ⟨h, htx⟩

/-! ## The steps -/

namespace Inv

variable {timestamptz : Int → Int} {w : World} {order : List (Entry Call Int)} {t : Nat}

theorem invoke (h : Inv timestamptz w order) (call : Call) (hidle : w.clients t = .idle) :
    Inv timestamptz ⟨w.shared,
      Function.update w.clients t (.running call (Call.prog timestamptz call)),
      .invoked t call :: w.history⟩ order := by
  have hclient := h.clients t
  rw [hidle] at hclient
  cases hclient with
  | idle hpromise htx =>
      have hnone : (w.clients t).call = none := by rw [hidle]; rfl
      -- a new call is at its first statement
      have hstarts : ClientOk timestamptz w.shared t (answerIn (serially timestamptz) [] order t)
          (.running call (Call.prog timestamptz call)) := by
        rw [hpromise]
        exact .running (call.failsFast timestamptz) (.begin timestamptz call htx)
      refine ⟨h.db, h.linear.invoke call ((answerIn_eq_none _ _).mp hpromise), h.table, h.stamps,
        (Function.forall_update_iff w.clients _).mpr ⟨hstarts, fun u _ => h.clients u⟩, ?_⟩
      show LogOk timestamptz w.shared (fun u => (Function.update w.clients t _ u).call) _
      rw [call_update]
      exact h.log.invoke call hnone

theorem answer (h : Inv timestamptz w order) (hrec : w.Recorded) {call : Call} {o : SqlOp}
    {k : SqlRes o → Prog SqlRes Answer} (hrunning : w.clients t = .running call (.call o k))
    {r : SqlRes o} {d' : Database} (hs : machine.answers t o w.shared r d') :
    ∃ order', Inv timestamptz
      ⟨d', Function.update w.clients t (.running call (k r)), w.history⟩ order' := by
  have hclient := h.clients t
  rw [hrunning] at hclient
  have hcall : (w.clients t).call = some call := by rw [hrunning]; rfl
  have hcall' : (Function.update w.clients t (.running call (k r)) t).call = some call := by
    rw [Function.update_self]
    rfl
  have hothers : ∀ u, u ≠ t → Function.update w.clients t (.running call (k r)) u
      = w.clients u := fun u hu => Function.update_of_ne hu ..
  cases hclient with
  | running hf hrun =>
      rcases hs with hs | ⟨fault, clock, rfl, rfl⟩
      · obtain ⟨promise', hp, hrun'⟩ := hrun.serve h.db hs
        refine h.advance hrec hcall hp hothers hcall' ?_
        rw [Function.update_self]
        exact .running (hf.2 r) hrun'
      · -- the statement has failed: the call gives up, and nothing is committed
        obtain ⟨hc, hl, hb⟩ := failed_committed (d := w.shared) (t := t) o
        refine h.advance hrec hcall
          (.quiet (failed_change o) hc hl (Or.inr (congrFun hb t))) hothers hcall' ?_
        rw [Function.update_self]
        exact .running (hf.2 _) (hrun.fail hf fault clock)

theorem work (h : Inv timestamptz w order) (hrec : w.Recorded) {call : Call} {o : SqlOp}
    {k : SqlRes o → Prog SqlRes Answer} (hrunning : w.clients t = .running call (.call o k))
    {d' : Database} (hs : Works t w.shared o d') :
    ∃ order', Inv timestamptz ⟨d', w.clients, w.history⟩ order' := by
  have hclient := h.clients t
  rw [hrunning] at hclient
  have hcall : (w.clients t).call = some call := by rw [hrunning]; rfl
  cases hclient with
  | running hf hrun =>
      -- the call gets on, and may come to its point
      obtain ⟨promise', hp, hrun'⟩ := hrun.work h.db hs
      refine h.advance hrec hcall hp (fun _ _ => rfl) hcall ?_
      rw [hrunning]
      exact .running hf hrun'

/-- The transaction of a client that does not go on with it is rolled back. -/
theorem rollback (h : Inv timestamptz w order) (hrec : w.Recorded) {tx : OpenTransaction}
    (htx : w.shared.transactions t = some tx) :
    ∃ order', Inv timestamptz ⟨w.shared.setTransaction t none, w.clients, w.history⟩ order' := by
  have hclient := h.clients t
  generalize hstatus : w.clients t = status at hclient
  -- a transaction that ends without a commit changes nothing
  have hp : ∀ call, Progress timestamptz call w.shared (w.shared.setTransaction t none) t
      (answerIn (serially timestamptz) [] order t)
      (answerIn (serially timestamptz) [] order t) :=
    fun call => .quiet .ends rfl rfl (Or.inr rfl)
  cases hclient with
  | idle _ hnone => cases hnone.symm.trans htx
  | @running call p hf hrun =>
      have hcall : (w.clients t).call = some call := by rw [hstatus]; rfl
      refine h.advance hrec hcall (hp call) (fun _ _ => rfl) hcall ?_
      rw [hstatus]
      exact .running hf hrun.rollback
  | @finished call a hends hold =>
      have hcall : (w.clients t).call = some call := by rw [hstatus]; rfl
      refine h.advance hrec hcall (hp call) (fun _ _ => rfl) hcall ?_
      rw [hstatus]
      exact .finished hends (holding_none (Database.setTransaction_self ..))

/-- A commit lands whose client has been told of a failure. -/
theorem land (h : Inv timestamptz w order) (hrec : w.Recorded) {tx : OpenTransaction}
    (htx : w.shared.transactions t = some tx) (hs : tx.submitted = true) :
    ∃ order', Inv timestamptz ⟨w.shared.publish t tx, w.clients, w.history⟩ order' := by
  have hclient := h.clients t
  generalize hstatus : w.clients t = status at hclient
  have hgone : ∀ P, Holding (w.shared.publish t tx) t P :=
    fun P => holding_none (Database.publish_self ..)
  cases hclient with
  | idle _ hnone => cases hnone.symm.trans htx
  | @running call p hf hrun =>
      have hcall : (w.clients t).call = some call := by rw [hstatus]; rfl
      -- a call that has submitted its transaction has ended
      obtain ⟨a, rfl, hends⟩ := hrun.ended_of_submitted htx hs
      obtain ⟨promise', hp, hmono⟩ := (hrun.of_ret.2 tx htx).publish h.db htx
      refine h.advance hrec hcall hp (fun _ _ => rfl) hcall ?_
      rw [hstatus]
      exact .running hf (.ended (hends.imp id (hmono a)) (hgone _))
  | @finished call a hends hold =>
      have hcall : (w.clients t).call = some call := by rw [hstatus]; rfl
      obtain ⟨promise', hp, hmono⟩ := (hold tx htx).publish h.db htx
      refine h.advance hrec hcall hp (fun _ _ => rfl) hcall ?_
      rw [hstatus]
      exact .finished (hends.imp id (hmono a)) (hgone _)

theorem respond (h : Inv timestamptz w order) {call : Call} {a : Answer}
    (hrunning : w.clients t = .running call (.ret a)) :
    Inv timestamptz ⟨w.shared, Function.update w.clients t (.finished call a),
      .responded t call a :: w.history⟩ order := by
  have hclient := h.clients t
  rw [hrunning] at hclient
  cases hclient with
  | running hf hrun =>
      obtain ⟨hends, hold⟩ := hrun.of_ret
      -- a call that has completed was promised its answer
      have hcompleted : Completes a → answerIn (serially timestamptz) [] order t = some a := by
        rintro ⟨result, rfl⟩
        rcases hends with ⟨name, source, herror⟩ | hpromise
        · cases herror
        · exact hpromise
      refine ⟨h.db, h.linear.respond call hcompleted, h.table, h.stamps,
        (Function.forall_update_iff w.clients _).mpr
          ⟨.finished hends hold, fun u _ => h.clients u⟩, ?_⟩
      show LogOk timestamptz w.shared (fun u => (Function.update w.clients t _ u).call) _
      rw [call_update_same (by rw [hrunning]; rfl)]
      exact h.log

end Inv

/-- **Every step keeps the invariant**, with the order it had or with one more call at its end. -/
theorem inv_step {timestamptz : Int → Int} {w w' : World} {order : List (Entry Call Int)}
    (hrec : w.Recorded) (h : Inv timestamptz w order)
    (hstep : Step machine (Call.prog timestamptz) w w') :
    ∃ order', Inv timestamptz w' order' := by
  cases hstep with
  | invoke t call hidle => exact ⟨order, h.invoke call hidle⟩
  | answer hrunning hs => exact h.answer hrec hrunning hs
  | work hrunning hs => exact h.work hrec hrunning hs
  | move hs =>
      cases hs with
      | rollback htx => exact h.rollback hrec htx
      | land htx hs => exact h.land hrec htx hs
  | respond hrunning => exact ⟨order, h.respond hrunning⟩

/-- Every world that concurrent calls lead to has an order of its calls. -/
theorem Running.inv {timestamptz : Int → Int} {w : World} (h : Running timestamptz w) :
    ∃ order, Inv timestamptz w order :=
  Reachable.inv (I := fun w => ∃ order, Inv timestamptz w order) ⟨[], inv_initial timestamptz⟩
    (fun _ _ hrec ⟨_, h⟩ hstep => inv_step hrec h hstep) h

end BusinessApproval.Postgres
