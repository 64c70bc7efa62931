import FilterQuery.Exchange.Transport
import FilterQuery.Number.Whole
import FilterQuery.Text.Basic

/-!
# The executor for Salesforce

A descriptor becomes one request with the text of the query. An answer with a
success holds the rows; any other answer becomes a failure that carries the
provider's own words, and for too many requests the wait that it asks for.
-/

namespace FilterQuery

/-- How to reach Salesforce. -/
structure SalesforceConfig where
  /-- The version of the interface, without the leading letter. -/
  version : String := "59.0"
  /-- The name that the transport knows the connection by. -/
  providerName : String := "salesforce"
deriving DecidableEq, Repr

namespace SalesforceConfig

def queryPath (c : SalesforceConfig) : String :=
  "/services/data/v" ++ c.version ++ "/query"

/-- The request for a query text. -/
def request (c : SalesforceConfig) (soql : String) (ctx : Option Context) : Request where
  provider := c.providerName
  url := c.queryPath
  query := [("q", soql)]
  metadata := ctx.bind Context.metadata

end SalesforceConfig

namespace Response

/-- The provider's words about a failure. -/
def detail? (r : Response) : Option String :=
  match r.data with
  | .array (first :: _) =>
      match first.get? "message" with
      | some (.string s) => some s
      | _ => none
  | _ => none

/-- The message of a failure. -/
def failureMessage (r : Response) : String :=
  match r.detail? with
  | some detail => "Salesforce query error: " ++ detail
  | none => "Salesforce query error"

/-- The wait in milliseconds that an answer asks for: whole seconds, on too many
requests only. A wait that 64 bits do not hold is none. -/
def retryAfterMs? (r : Response) : Option UInt64 :=
  if r.status = 429 then do
    let text ← r.header? "retry-after"
    let seconds ← readWord? (trimBlanks text)
    let ms := seconds.toNat * 1000
    if FitsUnsigned ms then some (UInt64.ofNat ms) else none
  else none

/-- The failure that an answer stands for. -/
def failure (r : Response) : ProviderFailure :=
  .ofStatus r.status r.failureMessage r.retryAfterMs?

/-- The rows of a success. -/
def records (r : Response) : List Json :=
  match r.data.get? "records" with
  | some (.array rows) => rows
  | _ => []

/-- The rows of an answer, or the failure that it stands for. -/
def rows (r : Response) : Outcome (List Json) :=
  if r.isSuccess then .ok r.records else .error (.provider r.failure)

end Response

/-- The executor that sends one request for each descriptor. -/
def SalesforceConfig.executor {m : Type → Type} [Monad m] (c : SalesforceConfig)
    (t : Transport m) : Executor m where
  run q ctx :=
    match q.textIn .salesforce with
    | .error e => pure (.error (.unsupported e))
    | .ok soql => do
        let answer ← t.send (c.request soql ctx)
        return answer.bind Response.rows

end FilterQuery
