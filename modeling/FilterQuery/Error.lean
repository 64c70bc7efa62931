import FilterQuery.Exchange.Failure
import FilterQuery.Filter.Document
import FilterQuery.Filter.Normalized
import FilterQuery.Json.Reader
import FilterQuery.Schema.Validation
import FilterQuery.Select.Soql

/-!
# Errors

Everything that building and running a query can fail with, by cause, and the one
text of each cause.
-/

namespace FilterQuery

/-- Why a configuration cannot be used. -/
inductive ConfigFault
  | repeatedKey (e : RepeatedKey)
  /-- The file could not be read; `reason` is what the system said. -/
  | unreadable (path reason : String)
  /-- The text is no TOML, or not the form of a configuration. -/
  | malformed (path : Option String)
  | noDirectory

def ConfigFault.message : ConfigFault → String
  | repeatedKey e => e.message
  | unreadable path reason => path ++ ": " ++ reason
  | malformed (some path) => path ++ ": TOML parse error"
  | malformed none => "TOML parse error"
  | noDirectory => "no config directory on this platform"

/-- Why a JSON text or document cannot be used. -/
inductive JsonFault
  | notJson
  | mismatch (cause : Mismatch)
  | filter (fault : FilterFault)

def JsonFault.message : JsonFault → String
  | notJson => "not JSON"
  | mismatch cause => cause.message
  | filter fault => "Invalid filter: " ++ fault.message

/-- An error of this library. -/
inductive Error
  | unknownField (e : UnknownField)
  | unknownProvider (name : String)
  | executorNotConfigured (provider : Provider)
  | invalidFilter (fault : FilterFault)
  | unsupported (e : Unsupported)
  | validation (e : Invalid)
  | provider (e : ProviderFailure)
  | config (fault : ConfigFault)
  | io (reason : String)
  | json (fault : JsonFault)

def UnknownField.message (e : UnknownField) : String :=
  "Unknown field '" ++ e.field ++ "' on model '" ++ e.model ++ "'"

/-- The text of an error. -/
def Error.message : Error → String
  | unknownField e => e.message
  | unknownProvider name => "Unknown provider: '" ++ name ++ "'"
  | executorNotConfigured p => "No executor configured for provider '" ++ p.name ++ "'"
  | invalidFilter fault => "Invalid filter: " ++ fault.message
  | unsupported e => e.message
  | validation e => e.message
  | provider e => e.message
  | config fault => "Configuration error: " ++ fault.message
  | io reason => "IO error: " ++ reason
  | json fault => "JSON error: " ++ fault.message

/-- What an operation gives: a result, or an error. -/
abbrev Outcome (α : Type) := Except Error α

namespace Provider

/-- The provider with the given name. -/
def parse (s : String) : Outcome Provider :=
  match ofName? s with
  | some p => .ok p
  | none => .error (.unknownProvider s)

end Provider

/-- The filter that a document describes. -/
def Filter.parse (policy : Policy) (doc : Json) : Outcome Filter :=
  (Filter.ofJson policy doc).mapError .invalidFilter

/-- The filter in a record, where every part must be readable. -/
def Filter.decode (doc : Json) : Outcome Filter :=
  (Filter.ofJson .reject doc).mapError fun fault => .json (.filter fault)

/-- The filter that a JSON text holds. It is decoded as soon as its value ends, so
that a fault of the filter comes before anything that follows in the text. -/
def Filter.read (text : String) : Outcome Filter :=
  match Json.front? text with
  | none => .error (.json .notJson)
  | some front => do
      let f ← Filter.decode front.value
      if front.isWhole then return f else throw (.json .notJson)

end FilterQuery
