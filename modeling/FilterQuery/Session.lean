import FilterQuery.Exchange.Salesforce
import FilterQuery.Query.Basic
import FilterQuery.Query.Row

/-!
# Sessions

A session knows the executor of each provider. Running a query builds it, hands
the descriptor to the executor of its provider, maps every row to a record and
validates it, in the order of the rows; the first record that does not fit fails
the whole query.
-/

namespace FilterQuery

/-- How to reach HubSpot. No executor exists for it. -/
structure HubspotConfig where
  providerName : String := "hubspot"
deriving DecidableEq, Repr

/-- Which providers are enabled, and how. -/
structure Providers where
  salesforce : Option SalesforceConfig := none
  hubspot : Option HubspotConfig := none
deriving DecidableEq, Repr

/-- The executors, by provider. -/
structure Session (m : Type → Type) where
  executors : List (Provider × Executor m) := []

namespace Session

variable {m : Type → Type}

/-- Sets the executor of a provider, in the place of an earlier one. -/
def withExecutor (s : Session m) (p : Provider) (e : Executor m) : Session m :=
  ⟨s.executors.filter (fun x => x.1 ≠ p) ++ [(p, e)]⟩

/-- One executor for each enabled provider that has one. -/
def new [Monad m] (t : Transport m) (config : Providers) : Session m :=
  match config.salesforce with
  | some sf => { executors := [(.salesforce, sf.executor t)] }
  | none => {}

/-- The executor of a provider. -/
def executor (s : Session m) (p : Provider) : Outcome (Executor m) :=
  match s.executors.lookup p with
  | some e => .ok e
  | none => .error (.executorNotConfigured p)

/-- The name of a provider in `summary`. -/
def providerTitle : Provider → String
  | .salesforce => "Salesforce"
  | .hubspot => "Hubspot"

/-- One line that names the providers with an executor. -/
def summary (s : Session m) : String :=
  "Orm \x7b executors: ExecutorRegistry \x7b providers: [" ++
    ", ".intercalate (s.executors.map fun x => providerTitle x.1) ++ "] \x7d \x7d"

end Session

namespace Query

/-- The record of one row: mapped to the keys of the query, then validated against
the fields that the query asks for. -/
def reconcile (q : Query) (index : Nat) (row : Json) : Except Invalid Record :=
  (q.model.schema.project q.resultKeys).validate (q.model.mapRow q.resultKeys row) index

/-- The records of rows, the first of which has the position `index`. -/
def reconcileFrom (q : Query) (index : Nat) : List Json → Except Invalid (List Record)
  | [] => .ok []
  | row :: rows => do
      let record ← q.reconcile index row
      let records ← q.reconcileFrom (index + 1) rows
      return record :: records

/-- The records of all rows of an answer. -/
def records (q : Query) (rows : List Json) : Outcome (List Record) :=
  (q.reconcileFrom 0 rows).mapError .validation

variable {m : Type → Type} [Monad m]

/-- Runs the query and gives every record. -/
def getMany (q : Query) (e : Executor m) (ctx : Option Context) : m (Outcome (List Record)) :=
  match q.build with
  | .error u => pure (.error (.unknownField u))
  | .ok select => do
      let rows ← e.run select ctx
      return rows.bind q.records

/-- Runs the query for one row at most and gives its record. -/
def getOne (q : Query) (e : Executor m) (ctx : Option Context) : m (Outcome (Option Record)) := do
  let records ← (q.take 1).getMany e ctx
  return records.map List.head?

/-- Runs the query and decodes every record. -/
def getManyAs {α : Type} (decode : Json → Outcome α) (q : Query) (e : Executor m)
    (ctx : Option Context) : m (Outcome (List α)) := do
  let records ← q.getMany e ctx
  return records.bind fun rs => rs.mapM fun r => decode (.object r)

/-- Runs the query for one row at most and decodes its record. -/
def getOneAs {α : Type} (decode : Json → Outcome α) (q : Query) (e : Executor m)
    (ctx : Option Context) : m (Outcome (Option α)) := do
  let record ← q.getOne e ctx
  return record.bind fun r => r.mapM fun r => decode (.object r)

end Query

namespace Session

variable {m : Type → Type} [Monad m]

/-- Runs a query with the executor of its provider and gives every record. -/
def getMany (s : Session m) (q : Query) (ctx : Option Context) : m (Outcome (List Record)) :=
  match s.executor q.model.provider with
  | .error e => pure (.error e)
  | .ok executor => q.getMany executor ctx

/-- Runs a query for one row at most with the executor of its provider and gives its
record. -/
def getOne (s : Session m) (q : Query) (ctx : Option Context) : m (Outcome (Option Record)) :=
  match s.executor q.model.provider with
  | .error e => pure (.error e)
  | .ok executor => q.getOne executor ctx

end Session

end FilterQuery
