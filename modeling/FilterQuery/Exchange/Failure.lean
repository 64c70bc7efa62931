/-!
# Failures of a provider

What a provider's answer means when its status is no success.
-/

namespace FilterQuery

/-- A failure, by the status of the answer. -/
inductive ProviderFailure
  | badRequest (message : String)
  | unauthorized (message : String)
  | forbidden (message : String)
  | notFound (message : String)
  | methodNotAllowed (message : String)
  /-- Too many requests, with the wait that the provider asks for. -/
  | rateLimited (message : String) (retryAfterMs : Option UInt64)
  | server (status : UInt16) (message : String)
  | other (status : UInt16) (message : String)
deriving DecidableEq, Repr

namespace ProviderFailure

/-- The failure for a status. The wait counts only for too many requests. -/
def ofStatus (status : UInt16) (message : String) (retryAfterMs : Option UInt64) :
    ProviderFailure :=
  if status = 400 then badRequest message
  else if status = 401 then unauthorized message
  else if status = 403 then forbidden message
  else if status = 404 then notFound message
  else if status = 405 then methodNotAllowed message
  else if status = 429 then rateLimited message retryAfterMs
  else if 500 ≤ status then server status message
  else other status message

/-- The status that a failure was made from. -/
def status : ProviderFailure → UInt16
  | badRequest _ => 400
  | unauthorized _ => 401
  | forbidden _ => 403
  | notFound _ => 404
  | methodNotAllowed _ => 405
  | rateLimited _ _ => 429
  | server s _ => s
  | other s _ => s

def retryAfterMs : ProviderFailure → Option UInt64
  | rateLimited _ ms => ms
  | _ => none

/-- The text of a failure. -/
def message : ProviderFailure → String
  | badRequest m => "Bad request: " ++ m
  | unauthorized m => "Unauthorized: " ++ m
  | forbidden m => "Forbidden: " ++ m
  | notFound m => "Not found: " ++ m
  | methodNotAllowed m => "Method not allowed: " ++ m
  | rateLimited m _ => "Rate limited: " ++ m
  | server s m => "Server error (" ++ toString s.toNat ++ "): " ++ m
  | other s m => "HTTP " ++ toString s.toNat ++ ": " ++ m

end ProviderFailure

end FilterQuery
