import BusinessApproval.Model.Lifecycle
import BusinessApproval.Proof.PostgresLinear

/-!
# Calls over the life of a plugin

What is said of runs of calls is said of a store that is there. A plugin is activated and
deactivated between its calls, and its activations may fail. But whatever comes between, each
database has seen the calls that were made while the plugin had a pool for it, one after
another, and nothing else. Without a pool a call fails in the runtime, unless it is one that
the store is not asked about.
-/

namespace BusinessApproval

variable {Ctx : Type}

/-! ## Without a store -/

section Unserved

variable {Clock State Row : Type}

/-- What a call comes to when there is no store to ask: a failure of the runtime, unless the
answer would be the same over every store. -/
def Unserved (B : Backend Clock State Row) (deps : Deps Ctx) (config : ApprovalPolicy)
    (clock : Clock) (call : ServiceCall Ctx) (r : Response) : Prop :=
  (∃ failure, r.runtimeFailure = some failure) ∨ ∀ s, B.serve deps config clock call s = (r, s)

/-- Reading the clock is no use of the store. -/
theorem run_unserved (B : Backend Clock State Row) (clock : Clock) {σ : Type}
    {h : Prog.Handler StoreRes σ} {t : σ} {now : StoreRes .now}
    (hnow : ∀ s, B.perform clock .now s = (now, s)) (hnow' : h .now t = (now, t))
    (hnone : ∀ o, o ≠ .now → h o t = (Postgres.failed o .unavailable, t))
    (deps : Deps Ctx) (config : ApprovalPolicy) (call : ServiceCall Ctx) :
    (Prog.run h (serve deps config call) t).2 = t
      ∧ Unserved B deps config clock call (Prog.run h (serve deps config call) t).1 := by
  -- the rest of the call, when the clock has been read
  have hrest : ∀ {p : Prog StoreRes Response}, Postgres.Stores p →
      (Prog.run h p t).2 = t ∧ ((∃ failure, (Prog.run h p t).1.runtimeFailure = some failure)
        ∨ ∀ s, Prog.run (B.perform clock) p s = ((Prog.run h p t).1, s)) := by
    intro p hp
    cases hp with
    | answered r => exact ⟨rfl, Or.inr fun s => rfl⟩
    | @stores o storage ho respond hfails =>
        have ho' : o ≠ .now := by
          rintro rfl
          cases ho
        rw [Prog.run_call, hnone o ho']
        exact ⟨rfl, Or.inl (hfails .unavailable)⟩
  rcases Postgres.serve_stores deps config call with hstores | ⟨k, hk, hstores⟩
  · exact hrest hstores
  · have hrun : Prog.run h (serve deps config call) t = Prog.run h (k now) t := by
      rw [hk, Prog.run_call, hnow']
    have hserve : ∀ s, B.serve deps config clock call s = Prog.run (B.perform clock) (k now) s := by
      intro s
      rw [Backend.serve, hk, Prog.run_call, hnow s]
    rw [hrun, Unserved]
    simp only [hserve]
    exact hrest (hstores now)

end Unserved

namespace Postgres

variable {SchemaPlan OwnedPostgres : Type} [DecidableEq OwnedPostgres] (deps : Deps Ctx)
  (config : BusinessApprovalConfig)

/-! ## Activation -/

section Activation

omit [DecidableEq OwnedPostgres]

variable {around : Surroundings SchemaPlan OwnedPostgres} {config}

/-- What an activation that succeeds has found on its way. -/
theorem activate_eq_ok {postgres : OwnedPostgres} : config.activate around = .ok postgres
    ↔ around.invocationContextAfter = .ok () ∧ ∃ url plan,
      around.resolveWithContext config.databaseUrlSecret = .ok url
        ∧ around.schemaPlan config.schema = .ok plan ∧ around.prepare url plan = .ok postgres := by
  unfold BusinessApprovalConfig.activate resolveSecret
  cases around.invocationContextAfter with
  | error failure => exact iff_of_false (fun h => by cases h) fun h => by cases h.1
  | ok u =>
      cases around.resolveWithContext config.databaseUrlSecret with
      | error failure =>
          refine iff_of_false (fun h => by cases h) ?_
          rintro ⟨-, url, plan, h, -⟩
          cases h
      | ok url =>
          cases hplan : around.schemaPlan config.schema with
          | error message =>
              refine iff_of_false (fun h => by cases h) ?_
              rintro ⟨-, url, plan, -, h, -⟩
              cases h
          | ok plan =>
              -- all that is left is the pool
              change (around.prepare url plan).mapError _ = _ ↔ _
              constructor
              · intro h
                refine ⟨rfl, url, plan, rfl, rfl, ?_⟩
                cases hprepare : around.prepare url plan with
                | error message =>
                    rw [hprepare] at h
                    cases h
                | ok postgres' =>
                    rw [hprepare] at h
                    cases h
                    rfl
              · rintro ⟨-, url', plan', hurl, hplan', h⟩
                cases hurl
                cases hplan'
                rw [h]
                rfl

end Activation

/-! ## What a database sees -/

def PluginEvent.call? : PluginEvent Ctx SchemaPlan OwnedPostgres → Option (Clock × ServiceCall Ctx)
  | .call clock made => some (clock, made)
  | _ => none

omit [DecidableEq OwnedPostgres] in
theorem eq_call {event : PluginEvent Ctx SchemaPlan OwnedPostgres} {clock : Clock}
    {call : ServiceCall Ctx} (h : event.call? = some (clock, call)) : event = .call clock call := by
  cases event with
  | activate | deactivate => cases h
  | call clock' call' =>
      cases h
      rfl

def PluginAnswer.response? : PluginAnswer → Option Response
  | .response r => some r
  | _ => none

/-- The call of an entry, if it was made with a pool. -/
def PluginEntry.callWith (postgres : OwnedPostgres) (e : PluginEntry Ctx SchemaPlan OwnedPostgres) :
    Option (Clock × ServiceCall Ctx) :=
  if e.prepared = some postgres then e.event.call? else none

def PluginEntry.answerWith (postgres : OwnedPostgres)
    (e : PluginEntry Ctx SchemaPlan OwnedPostgres) : Option Response :=
  if e.prepared = some postgres then e.answer.response? else none

theorem behind_now (clock : Clock) (tables : OwnedPostgres → Table) :
    behind deps.timestamptz clock none .now tables = (.ok clock.nowUtc, tables) := rfl

theorem behind_none (clock : Clock) {o : StoreOp} (ho : o ≠ .now)
    (tables : OwnedPostgres → Table) :
    behind deps.timestamptz clock none o tables = (failed o .unavailable, tables) := by
  cases o with
  | now => exact absurd rfl ho
  | request | read | decide | cancel | expire => rfl

/-- A call without a pool leaves all tables as they are. -/
theorem step_unserved (s : PluginState OwnedPostgres) (hs : s.prepared = none) (clock : Clock)
    (call : ServiceCall Ctx) {event : PluginEvent Ctx SchemaPlan OwnedPostgres}
    (he : event = .call clock call) : ∃ r, s.step deps config event = (.response r, s)
      ∧ Unserved (backend deps) deps config.policy clock call r := by
  obtain ⟨hsame, hunserved⟩ := run_unserved (backend deps) clock (fun _ => rfl)
    (behind_now deps clock s.tables) (fun o ho => behind_none deps clock ho s.tables) deps
    config.policy call
  refine ⟨_, ?_, hunserved⟩
  obtain ⟨prepared, tables⟩ := s
  cases hs
  cases he
  exact Prod.ext rfl (congrArg (PluginState.mk none) hsame)

/-- A call with a pool is one of the backend, on the table behind the pool. -/
theorem step_served (s : PluginState OwnedPostgres) {postgres : OwnedPostgres}
    (hs : s.prepared = some postgres) (clock : Clock) (call : ServiceCall Ctx) :
    s.step deps config (.call clock call : PluginEvent Ctx SchemaPlan OwnedPostgres)
      = (.response (served deps config.policy clock call (s.tables postgres)).1,
        ⟨s.prepared, Function.update s.tables postgres
          (served deps config.policy clock call (s.tables postgres)).2⟩) := by
  have hrun := Prog.run_at (alone deps.timestamptz clock) postgres (serve deps config.policy call)
    s.tables
  obtain ⟨prepared, tables⟩ := s
  cases hs
  exact congrArg (fun out : Response × (OwnedPostgres → Table) =>
    (PluginAnswer.response out.1, PluginState.mk (some postgres) out.2)) hrun

/-- An activation or a deactivation leaves all tables as they are. -/
theorem step_tables (s : PluginState OwnedPostgres)
    {event : PluginEvent Ctx SchemaPlan OwnedPostgres} (h : event.call? = none) :
    (s.step deps config event).2.tables = s.tables
      ∧ (s.step deps config event).1.response? = none := by
  cases event with
  | call clock call => cases h
  | deactivate => exact ⟨rfl, rfl⟩
  | activate around =>
      rw [PluginState.step]
      cases config.activate around with
      | error failure => exact ⟨rfl, rfl⟩
      | ok postgres => exact ⟨rfl, rfl⟩

/-- What an event is to one database: a call on its table, or nothing. -/
theorem step_seen (s : PluginState OwnedPostgres) (postgres : OwnedPostgres)
    (event : PluginEvent Ctx SchemaPlan OwnedPostgres)
    {e : PluginEntry Ctx SchemaPlan OwnedPostgres}
    (he : e = ⟨s.prepared, event, (s.step deps config event).1⟩) :
    (∃ clock call, e.callWith postgres = some (clock, call)
        ∧ e.answerWith postgres = some (served deps config.policy clock call (s.tables postgres)).1
        ∧ (s.step deps config event).2.tables postgres
          = (served deps config.policy clock call (s.tables postgres)).2)
      ∨ (e.callWith postgres = none ∧ e.answerWith postgres = none
        ∧ (s.step deps config event).2.tables postgres = s.tables postgres) := by
  subst he
  cases hcall : event.call? with
  | none =>
      -- what is not a call touches no table
      obtain ⟨htables, hnone⟩ := step_tables deps config s hcall
      refine Or.inr ⟨?_, ?_, congrFun htables postgres⟩
      · simp only [PluginEntry.callWith, hcall, ite_self]
      · simp only [PluginEntry.answerWith, hnone, ite_self]
  | some made =>
      obtain ⟨clock, call⟩ := made
      obtain rfl := eq_call hcall
      cases hs : s.prepared with
      | none =>
          -- without a pool nothing is done
          obtain ⟨r, hstep, -⟩ := step_unserved deps config s hs clock call rfl
          rw [hstep]
          exact Or.inr ⟨rfl, rfl, rfl⟩
      | some other =>
          -- the call is made on the pool there is
          rw [step_served deps config s hs clock call]
          by_cases hother : other = postgres
          · subst hother
            exact Or.inl ⟨clock, call, if_pos rfl, if_pos rfl, Function.update_self ..⟩
          · have hne : some other ≠ some postgres := fun h => hother (Option.some.inj h)
            exact Or.inr ⟨if_neg hne, if_neg hne, Function.update_of_ne (Ne.symm hother) ..⟩

theorem run_cons (event : PluginEvent Ctx SchemaPlan OwnedPostgres)
    (events : List (PluginEvent Ctx SchemaPlan OwnedPostgres)) (s : PluginState OwnedPostgres) :
    PluginState.run deps config (event :: events) s
      = (⟨s.prepared, event, (s.step deps config event).1⟩
          :: (PluginState.run deps config events (s.step deps config event).2).1,
        (PluginState.run deps config events (s.step deps config event).2).2) := rfl

/-- **Each database has seen the calls that were made with a pool for it**, one after another. -/
theorem run_projects (events : List (PluginEvent Ctx SchemaPlan OwnedPostgres))
    (s : PluginState OwnedPostgres) (postgres : OwnedPostgres) :
    (backend deps).run deps config.policy
        ((PluginState.run deps config events s).1.filterMap (PluginEntry.callWith postgres))
        (s.tables postgres)
      = ((PluginState.run deps config events s).1.filterMap (PluginEntry.answerWith postgres),
        (PluginState.run deps config events s).2.tables postgres) := by
  induction events generalizing s with
  | nil => rfl
  | cons event events ih =>
      have hrest := ih (s.step deps config event).2
      rw [run_cons]
      -- the entry is about this database, or about none or another
      rcases step_seen deps config s postgres event rfl with
        ⟨clock, call, hcall, hanswer, htable⟩ | ⟨hcall, hanswer, htable⟩
      · rw [htable] at hrest
        rw [List.filterMap_cons_some hcall, List.filterMap_cons_some hanswer, Backend.run,
          Prog.runAll_cons]
        exact congrArg (fun out : List Response × Table => (_ :: out.1, out.2)) hrest
      · rw [htable] at hrest
        rw [List.filterMap_cons_none hcall, List.filterMap_cons_none hanswer, hrest]

/-! ## Which pool there is -/

/-- Events after which the pool is the one there was. -/
def Retains (config : BusinessApprovalConfig) : PluginEvent Ctx SchemaPlan OwnedPostgres → Prop
  | .activate around => ∃ failure, config.activate around = .error failure
  | .deactivate => False
  | .call _ _ => True

theorem run_append (first second : List (PluginEvent Ctx SchemaPlan OwnedPostgres))
    (s : PluginState OwnedPostgres) :
    PluginState.run deps config (first ++ second) s
      = ((PluginState.run deps config first s).1
          ++ (PluginState.run deps config second (PluginState.run deps config first s).2).1,
        (PluginState.run deps config second (PluginState.run deps config first s).2).2) := by
  induction first generalizing s with
  | nil => rfl
  | cons event first ih =>
      rw [List.cons_append, run_cons, run_cons, ih]
      rfl

/-- Each event keeps the pool, is an activation that comes to one, or gives it back. -/
theorem step_prepared (s : PluginState OwnedPostgres)
    (event : PluginEvent Ctx SchemaPlan OwnedPostgres) :
    (Retains config event ∧ (s.step deps config event).2.prepared = s.prepared)
      ∨ (∃ around postgres, event = .activate around ∧ config.activate around = .ok postgres
        ∧ (s.step deps config event).2.prepared = some postgres)
      ∨ (event = .deactivate ∧ (s.step deps config event).2.prepared = none) := by
  cases event with
  | call clock call => exact Or.inl ⟨trivial, rfl⟩
  | deactivate => exact Or.inr (Or.inr ⟨rfl, rfl⟩)
  | activate around =>
      cases h : config.activate around with
      | error failure =>
          refine Or.inl ⟨⟨failure, h⟩, ?_⟩
          rw [PluginState.step, h]
      | ok postgres =>
          refine Or.inr (Or.inl ⟨around, postgres, rfl, h, ?_⟩)
          rw [PluginState.step, h]

/-- **The pool is that of the last activation that came to one**, unless it was taken back. -/
theorem prepared_iff (events : List (PluginEvent Ctx SchemaPlan OwnedPostgres))
    (tables : OwnedPostgres → Table) (postgres : OwnedPostgres) :
    (PluginState.run deps config events ⟨none, tables⟩).2.prepared = some postgres
      ↔ ∃ before around after, events = before ++ .activate around :: after
        ∧ config.activate around = .ok postgres ∧ ∀ event ∈ after, Retains config event := by
  induction events using List.reverseRecOn with
  | nil =>
      refine iff_of_false (fun h => by cases h) ?_
      rintro ⟨before, around, after, h, -⟩
      exact absurd h.symm (by simp)
  | append_singleton events event ih =>
      rw [run_append]
      change ((PluginState.run deps config events ⟨none, tables⟩).2.step deps config
        event).2.prepared = _ ↔ _
      have hstep := step_prepared deps config (PluginState.run deps config events ⟨none, tables⟩).2
        event
      constructor
      · intro h
        -- the event keeps the pool, makes one, or drops it
        rcases hstep with ⟨hretains, hsame⟩ | ⟨around, other, rfl, hactive, hnew⟩ | ⟨-, hnone⟩
        · obtain ⟨before, around, after, rfl, hactive, hafter⟩ := ih.mp (hsame.symm.trans h)
          refine ⟨before, around, after ++ [event], by simp, hactive, fun e he => ?_⟩
          rcases List.mem_append.mp he with he | he
          · exact hafter e he
          · rwa [List.mem_singleton.mp he]
        · cases hnew.symm.trans h
          exact ⟨events, around, [], rfl, hactive, fun e he => absurd he List.not_mem_nil⟩
        · cases hnone.symm.trans h
      · rintro ⟨before, around, after, heq, hactive, hafter⟩
        -- the activation is the last event, or comes before it
        rcases List.eq_nil_or_concat after with rfl | ⟨after, last, rfl⟩
        · obtain ⟨-, hevent⟩ := List.append_inj' heq rfl
          cases hevent
          rw [PluginState.step, hactive]
        · have heq' : events ++ [event] = (before ++ .activate around :: after) ++ [last] := by
            rw [heq]
            simp
          obtain ⟨hevents, hevent⟩ := List.append_inj' heq' rfl
          cases hevent
          have hretains := hafter event (by simp)
          have hbefore := ih.mpr ⟨before, around, after, hevents, hactive,
            fun e he => hafter e (by simp [he])⟩
          rcases hstep with ⟨-, hsame⟩ | ⟨around', other, rfl, hactive', -⟩ | ⟨rfl, -⟩
          · exact hsame.trans hbefore
          · obtain ⟨failure, h⟩ := hretains
            cases h.symm.trans hactive'
          · exact hretains.elim

/-! ## The whole life -/

/-- An entry of a call that was made without a pool. -/
theorem unserved_of_mem (events : List (PluginEvent Ctx SchemaPlan OwnedPostgres))
    (s : PluginState OwnedPostgres) {e : PluginEntry Ctx SchemaPlan OwnedPostgres}
    (he : e ∈ (PluginState.run deps config events s).1) (hnone : e.prepared = none) {clock : Clock}
    {call : ServiceCall Ctx} (hcall : e.event.call? = some (clock, call)) :
    ∃ r, e.answer = .response r ∧ Unserved (backend deps) deps config.policy clock call r := by
  induction events generalizing s with
  | nil => cases he
  | cons event events ih =>
      rw [run_cons] at he
      rcases List.mem_cons.mp he with rfl | he
      · obtain ⟨r, hstep, hunserved⟩ := step_unserved deps config s hnone clock call (eq_call hcall)
        exact ⟨r, congrArg Prod.fst hstep, hunserved⟩
      · exact ih _ he

/-- The life of a plugin, from before its first activation. -/
structure Lives (deps : Deps Ctx) (config : BusinessApprovalConfig)
    (SchemaPlan OwnedPostgres : Type) [DecidableEq OwnedPostgres] : Prop where
  /-- Each database has seen the calls made with a pool for it, and given their answers. -/
  databases : ∀ (events : List (PluginEvent Ctx SchemaPlan OwnedPostgres)) tables postgres,
    let (log, s) := PluginState.run deps config events ⟨none, tables⟩
    (backend deps).run deps config.policy (log.filterMap (PluginEntry.callWith postgres))
        (tables postgres)
      = (log.filterMap (PluginEntry.answerWith postgres), s.tables postgres)
  /-- A call made without a pool fails, unless no store would have been asked. -/
  unserved : ∀ (events : List (PluginEvent Ctx SchemaPlan OwnedPostgres)) tables,
    ∀ e ∈ (PluginState.run deps config events ⟨none, tables⟩).1, e.prepared = none →
      ∀ clock call, e.event.call? = some (clock, call) →
        ∃ r, e.answer = .response r ∧ Unserved (backend deps) deps config.policy clock call r
  /-- The pool is that of the last activation that came to one, unless it was given back, and
  an activation comes to what the configured secret and the plan of the schema open. -/
  prepared : ∀ (events : List (PluginEvent Ctx SchemaPlan OwnedPostgres)) tables postgres,
    (PluginState.run deps config events ⟨none, tables⟩).2.prepared = some postgres
      ↔ ∃ before around after url plan, events = before ++ .activate around :: after
        ∧ around.invocationContextAfter = .ok ()
        ∧ around.resolveWithContext config.databaseUrlSecret = .ok url
        ∧ around.schemaPlan config.schema = .ok plan ∧ around.prepare url plan = .ok postgres
        ∧ ∀ event ∈ after, Retains config event

/-- **Whatever comes between the calls of a plugin, its databases have seen calls alone.** -/
theorem plugin_lives (deps : Deps Ctx) (config : BusinessApprovalConfig)
    (SchemaPlan OwnedPostgres : Type) [DecidableEq OwnedPostgres] :
    Lives deps config SchemaPlan OwnedPostgres where
  databases events tables postgres := run_projects deps config events ⟨none, tables⟩ postgres
  unserved events tables _ he hnone _ _ hcall :=
    unserved_of_mem deps config events ⟨none, tables⟩ he hnone hcall
  prepared events tables postgres := by
    rw [prepared_iff]
    constructor
    · rintro ⟨before, around, after, heq, hactive, hafter⟩
      obtain ⟨hcontext, url, plan, hurl, hplan, hprepare⟩ := activate_eq_ok.mp hactive
      exact ⟨before, around, after, url, plan, heq, hcontext, hurl, hplan, hprepare, hafter⟩
    · rintro ⟨before, around, after, url, plan, heq, hcontext, hurl, hplan, hprepare, hafter⟩
      exact ⟨before, around, after, heq,
        activate_eq_ok.mpr ⟨hcontext, url, plan, hurl, hplan, hprepare⟩, hafter⟩

end Postgres

end BusinessApproval
