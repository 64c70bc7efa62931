import FilterQuery.Error
import FilterQuery.Text.Basic

/-!
# Requests and answers

This library does not talk to a network. It hands requests to a transport, in any
monad, and classifies the answers.
-/

namespace FilterQuery

/-- Labels that a caller gives to a request. -/
structure Metadata where
  requestName : Option String := none
  userId : Option String := none
  organizationId : Option String := none
deriving DecidableEq, Repr

/-- What a caller passes along with one call. -/
structure Context where
  metadata : Option Metadata := none
deriving DecidableEq, Repr

/-- The context that only names the request. -/
def Context.named (name : String) : Context :=
  { metadata := some { requestName := some name } }

inductive Method
  | get
deriving DecidableEq, Repr

def Method.name : Method → String
  | get => "GET"

/-- A request. The transport knows the address of the provider; `url` is the path
below it. -/
structure Request where
  provider : String
  method : Method := .get
  url : String
  headers : List (String × String) := []
  query : List (String × String) := []
  body : Option Json := none
  metadata : Option Metadata := none

/-- An answer, whatever its status. -/
structure Response where
  status : UInt16
  headers : List (String × String) := []
  data : Json := .null

namespace Response

/-- The value of a header; its name counts in any case of ASCII letters. -/
def header? (r : Response) (name : String) : Option String :=
  (r.headers.find? fun h => sameLetters h.1 name).map Prod.snd

/-- Whether the status is a success. -/
def isSuccess (r : Response) : Bool :=
  decide (200 ≤ r.status ∧ r.status < 300)

end Response

/-- What performs requests. -/
structure Transport (m : Type → Type) where
  send : Request → m (Outcome Response)

/-- What runs descriptors and gives the rows of the answer. -/
structure Executor (m : Type → Type) where
  run : Select → Option Context → m (Outcome (List Json))

end FilterQuery
