import BusinessApproval.Model.D1
import BusinessApproval.Model.Session

/-!
# The service over its backends

The service with a store behind it, called again and again. A backend is what such
a run depends on: the store methods by themselves, and how to look at the rows
they leave. There are two of them.
-/

namespace BusinessApproval

/-- A store, run one call at a time. -/
structure Backend (Clock State Row : Type) where
  empty : State
  perform : Clock → Prog.Handler StoreRes State
  /-- The row with a request id. -/
  row : State → String → Option Row
  /-- The approval a row decodes to. -/
  approval : Row → Option StoredApproval
  /-- The clock reads of a call name instants in the years 0 to 9999. -/
  inYears : Clock → Prop

def Postgres.backend {Ctx : Type} (deps : Deps Ctx) :
    Backend Postgres.Clock Postgres.Table Postgres.PgRow where
  empty := []
  perform := Postgres.alone deps.timestamptz
  row := Postgres.lookup
  approval row := (Postgres.decodeApproval row).toOption
  inYears := Postgres.Clock.InYears

def D1.backend {Ctx : Type} (deps : Deps Ctx) : Backend D1.Clock D1.Table D1.D1Row where
  empty := []
  perform := D1.alone deps.time
  row := D1.lookup
  approval row := D1.StoredApproval.ofJson deps.time row.recordJson
  inYears := D1.Clock.InYears

namespace Backend

variable {Ctx Clock State Row : Type} (B : Backend Clock State Row) (deps : Deps Ctx)
  (config : ApprovalPolicy)

/-- One service call. -/
def serve (clock : Clock) (call : ServiceCall Ctx) (s : State) : Response × State :=
  Prog.run (B.perform clock) (BusinessApproval.serve deps config call) s

/-- Service calls one after another, each with its own clock reads. -/
def run (calls : List (Clock × ServiceCall Ctx)) (s : State) : List Response × State :=
  Prog.runAll B.perform (BusinessApproval.serve deps config) calls s

/--
The clock reads of all calls are in the years 0 to 9999. An instant of another year has no
RFC 3339 text, so a D1 row cannot hold it, nor a response show it.
-/
def Timely (calls : List (Clock × ServiceCall Ctx)) : Prop := ∀ c ∈ calls, B.inYears c.1

/-- The same store, with clocks that may show any time at all. -/
def anytime : Backend Clock State Row := { B with inYears := fun _ => True }

/-- A state some service calls, each made in the years 0 to 9999, lead to from the empty store. -/
def Reachable (s : State) : Prop :=
  ∃ calls, B.Timely calls ∧ (B.run deps config calls B.empty).2 = s

/-- The approval stored under a request id. -/
def find (s : State) (id : String) : Option StoredApproval := (B.row s id).bind B.approval

end Backend

end BusinessApproval
