import FilterQuery.CommandLine.Options
import FilterQuery.Text.Basic

/-!
# Invocations

What the arguments of the program ask for: the text of its version, or one of its
commands over a file of models. Arguments that are not understood are refused.
-/

namespace FilterQuery.CommandLine

/-- What the surroundings of the program say about the file of models. -/
structure Environment where
  /-- The value of the variable that names the file. -/
  modelsVariable : Option String := none
  /-- The directory of configurations. -/
  configDirectory : Option String := none

/-- The arguments of a command about one query. -/
structure QueryArguments where
  model : String
  select : List String := []
  filter : Option String := none
  order : List String := []
  limit : Option UInt64 := none
  offset : Option UInt64 := none
  lenient : Bool := false

/-- A command. -/
inductive Command
  | compile (args : QueryArguments)
  | explain (args : QueryArguments)
  | models

/-- What the arguments ask for. -/
inductive Invocation
  | run (command : Command) (modelsFile : Option String)
  | version
  | help
  | refused

/-- The options in front of a command. -/
def topOptions : List Opt := [.models, .verbose, .version, .help]

/-- The options of the command that lists models. -/
def listOptions : List Opt := [.models, .verbose, .help]

/-- The options of a command about one query. -/
def queryOptions : List Opt :=
  [.models, .verbose, .help, .model, .select, .filter, .order, .limit, .offset, .lenient]

/-- A count given as the value of an option. -/
def count? (o : Opt) (gs : List Given) : Option UInt64 :=
  (valuesOf o gs).head?.bind readWord?

/-- The arguments of a command about one query, whose model must be given. -/
def queryArguments? (gs : List Given) : Option QueryArguments :=
  (valuesOf .model gs).head?.map fun model => {
    model
    select := (valuesOf .select gs).flatMap (partsAt ',')
    filter := (valuesOf .filter gs).head?
    order := (valuesOf .order gs).flatMap (partsAt ',')
    limit := count? .limit gs
    offset := count? .offset gs
    lenient := isGiven .lenient gs }

/-- A command with its own options. -/
def command? (name : String) (gs : List Given) : Option Command :=
  if name = "models" then some .models
  else if name = "compile" then (queryArguments? gs).map .compile
  else (queryArguments? gs).map .explain

/-- The file of models: the one named last, in front of the command or after it,
else the one that the environment names. -/
def modelsFile? (env : Environment) (top own : List Given) : Option String :=
  match valuesOf .models own, valuesOf .models top with
  | path :: _, _ => some path
  | [], path :: _ => some path
  | [], [] =>
      match env.modelsVariable with
      | some path => some path
      | none => env.configDirectory.map fun d => d ++ "/crmql/models.toml"

/-- The names of the commands. -/
def commandNames : List String := ["compile", "explain", "models"]

/-- Help about the program, or about the one command that `args` names. -/
def Invocation.ofHelp : (args : List String) → Invocation
  | [] => .help
  | [name] => if name = "help" ∨ name ∈ commandNames then .help else .refused
  | _ => .refused

/-- The command `name` with the arguments after it. -/
def Invocation.ofCommand (env : Environment) (top : List Given) (name : String)
    (args : List String) : Invocation :=
  if name = "help" then .ofHelp args
  else if name ∉ commandNames then .refused
  else
    let (own, ending) := scan (if name = "models" then listOptions else queryOptions) none args
    match judge [] own with
    | .refused => .refused
    | .asks _ => .help
    | .accepted =>
        if ending = .done then
          match command? name own with
          | some c => .run c (modelsFile? env top own)
          | none => .refused
        else .refused

/-- What the arguments ask for. -/
def Invocation.ofArguments (env : Environment) (args : List String) : Invocation :=
  let (top, ending) := scan topOptions none args
  match judge [] top with
  | .refused => .refused
  | .asks .version => .version
  | .asks _ => .help
  | .accepted =>
      match ending with
      | .word name rest => .ofCommand env top name rest
      | _ => .refused

end FilterQuery.CommandLine
