import FilterQuery.Text.Basic

/-!
# Providers

The systems that keep the records, and the query languages that they take.
-/

namespace FilterQuery

/-- A system that keeps records. -/
inductive Provider
  | salesforce
  | hubspot
deriving DecidableEq, Repr

/-- A query language. -/
inductive Dialect
  | salesforce
  | hubspot
deriving DecidableEq, Repr

namespace Provider

def name : Provider → String
  | salesforce => "salesforce"
  | hubspot => "hubspot"

/-- The providers by their names. -/
def named : List (String × Provider) :=
  [salesforce, hubspot].map fun p => (p.name, p)

/-- The provider with the given name, in any case of ASCII letters. -/
def ofName? (s : String) : Option Provider :=
  named.lookup (lowerCase s)

/-- The query language of a provider. -/
def dialect : Provider → Dialect
  | salesforce => .salesforce
  | hubspot => .hubspot

end Provider

def Dialect.name : Dialect → String
  | salesforce => "salesforce"
  | hubspot => "hubspot"

end FilterQuery
