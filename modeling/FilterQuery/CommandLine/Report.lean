import FilterQuery.Clause.Outline
import FilterQuery.CommandLine.Invocation
import FilterQuery.Config.Form
import FilterQuery.Json.Reader

/-!
# Reports

What a command prints, and the code that it ends with. `compile` prints the text
of a query; `explain` prints the condition tree, the chunk directives and the text;
`models` lists the models. What `explain` has printed before it fails stays.
-/

namespace FilterQuery.CommandLine

/-- What a run of the program leaves behind. -/
structure Report where
  code : Nat
  stdout : String := ""
  stderr : String := ""
deriving DecidableEq, Repr

/-- Why a command fails. -/
inductive Complaint
  | error (e : Error)
  | undeclaredModel (name : String)
  | filterNotJson

def Complaint.message : Complaint → String
  | error e => e.message
  | undeclaredModel name => "model '" ++ name ++ "' is not declared"
  | filterNotJson => "--where is not valid JSON"

/-- A failure after `printed` has been printed. -/
def Report.failed (printed : String) (c : Complaint) : Report where
  code := 1
  stdout := printed
  stderr := "Error: " ++ c.message ++ "\n"

/-! ## Queries -/

namespace QueryArguments

def policy (args : QueryArguments) : Policy :=
  if args.lenient then .ignore else .reject

/-- The filter in the text of an option. -/
def parseFilter (args : QueryArguments) : Except Complaint (Option Filter) :=
  match args.filter with
  | none => .ok none
  | some text =>
      match Json.read? text with
      | none => .error .filterNotJson
      | some doc => ((Filter.parse args.policy doc).mapError .error).map some

/-- A key and a direction on both sides of the first colon; ascending without one. -/
def orderPair (s : String) : String × String :=
  match partsAt ':' s with
  | key :: part :: parts => (trimBlanks key, trimBlanks (":".intercalate (part :: parts)))
  | _ => (trimBlanks s, "asc")

/-- The query that the arguments describe, over the model `m`. -/
def query (args : QueryArguments) (m : Model) (filter : Option Filter) : Query where
  model := m
  selection := if args.select.isEmpty then none else some (.ofKeys (args.select.map trimBlanks))
  filter := filter
  orderBy := SortKey.ofPairs (args.order.map orderPair)
  limit := args.limit
  offset := args.offset
  policy := args.policy

/-- The query over a model of the registry. -/
def prepare (args : QueryArguments) (models : Outcome Registry) : Except Complaint Query := do
  let registry ← models.mapError .error
  match registry.get? args.model with
  | none => throw (.undeclaredModel args.model)
  | some m => do
      let filter ← args.parseFilter
      return args.query m filter

/-- The filter in the text of its option, which is read once more, and normalized over the
model `m`. -/
def normalized (args : QueryArguments) (m : Model) : Except Complaint Normalized := do
  match ← args.parseFilter with
  | some f => (f.normalize m args.policy).mapError fun e => .error (.unknownField e)
  | none => return {}

end QueryArguments

/-- The text of a query in the language of its provider. -/
def queryText (q : Query) : Outcome String := do
  let select ← q.build.mapError .unknownField
  select.text.mapError .unsupported

/-- Prints the text of a query. -/
def compile (args : QueryArguments) (models : Outcome Registry) : Report :=
  match args.prepare models with
  | .error c => .failed "" c
  | .ok q =>
      match queryText q with
      | .error e => .failed "" (.error e)
      | .ok text => { code := 0, stdout := text ++ "\n" }

/-! ## Explaining -/

/-- A line without the carriage return at its end, if it has one. -/
def withoutReturn (line : String) : String :=
  let cs := line.toList
  String.ofList (if cs.getLast? = some '\r' then cs.dropLast else cs)

/-- The lines of a text each of whose lines ends with a line feed, without the breaks
that end them. -/
def lines (s : String) : List String :=
  (partsAt '\n' s).dropLast.map withoutReturn

/-- Lines, each indented by two blanks. -/
def indented (ls : List String) : String :=
  String.join (ls.map fun l => "  " ++ l ++ "\n")

/-- The line of a chunk directive. -/
def directiveLine (d : Directive) : String :=
  d.path ++ " " ++ (if d.negated then Operator.notIn else Operator.isIn).name ++ " " ++
    toString d.values.length ++ " value(s) in " ++ toString d.batches.length ++ " batch(es)"

/-- The part about the condition tree. -/
def treePart (c : Option Clause) : String :=
  "Condition Tree:\n" ++
    match c with
    | some c => indented (lines c.outline)
    | none => indented ["(no filter)"]

/-- The part about chunk directives, if there are any. -/
def directivesPart (ds : List Directive) : String :=
  if ds.isEmpty then "" else "\nChunks:\n" ++ indented (ds.map directiveLine)

/-- Everything that is printed before the text of the query. -/
def explanation (m : Model) (n : Normalized) : String :=
  "Query Explanation\n\n" ++
    indented ["Model: " ++ m.name ++ " (" ++ m.object ++ ")", "Provider: " ++ m.provider.name] ++
    "\n" ++ treePart n.clause ++ directivesPart n.directives ++ "\nGenerated Query:\n"

/-- Prints the condition tree, the chunk directives and the text of a query. -/
def explain (args : QueryArguments) (models : Outcome Registry) : Report :=
  match args.prepare models with
  | .error c => .failed "" c
  | .ok q =>
      match args.normalized q.model with
      | .error c => .failed "" c
      | .ok n =>
          let printed := explanation q.model n
          match queryText q with
          | .error e => .failed printed (.error e)
          | .ok text => { code := 0, stdout := printed ++ indented [text] }

/-! ## Models -/

/-- A text, filled with blanks up to a width. -/
def padded (width : Nat) (s : String) : String :=
  s ++ String.ofList (List.replicate (width - s.length) ' ')

/-- The type of a field; a question mark follows the type of an optional one. -/
def typeText (m : Model) (key : String) : String :=
  match m.schema.get? key with
  | some s => s.type.name ++ (if s.required then "" else "?")
  | none => ""

/-- The lines of a model. -/
def modelText (m : Model) : String :=
  m.name ++ " [" ++ m.provider.name ++ "] " ++ m.object ++ "\n" ++
    indented (m.fields.map fun f =>
      padded 20 f.key ++ " " ++ padded 30 f.path ++ " " ++ typeText m f.key) ++
    indented (m.relations.map fun r =>
      "rel " ++ r.key ++ " -> " ++ r.model ++ "." ++ r.foreignKey)

/-- Lists the models. -/
def listModels (models : Outcome Registry) : Report :=
  match models with
  | .error e => .failed "" (.error e)
  | .ok r =>
      if r.isEmpty then { code := 0, stdout := "(no models)\n" }
      else { code := 0, stdout := String.join (r.models.map modelText) }

/-! ## Programs -/

/-- The registry in the file of models. -/
def loadModels (read : String → Except String String) (file : Option String) :
    Outcome Registry :=
  match file with
  | none => .error (.config .noDirectory)
  | some path => do
      let c ← Config.load read path
      c.toRegistry

/-- Runs a command over a registry. -/
def Command.run (models : Outcome Registry) : Command → Report
  | compile args => CommandLine.compile args models
  | explain args => CommandLine.explain args models
  | .models => listModels models

/-- The name and the version of the program. -/
def versionText : String := "crmql 0.3.0"

/-- Runs what the arguments ask for. `read` gives the text of a file, or the reason
why there is none. -/
def Invocation.report (read : String → Except String String) : Invocation → Report
  | run command file => command.run (loadModels read file)
  | version => { code := 0, stdout := versionText ++ "\n" }
  | help => { code := 0, stdout := versionText ++ "\n\nCommands: compile, explain, models\n" }
  | refused => { code := 2, stderr := "error: arguments not understood\n" }

end FilterQuery.CommandLine
