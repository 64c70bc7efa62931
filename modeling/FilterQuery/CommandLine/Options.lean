import FilterQuery.Number.Whole

/-!
# Options on a command line

Options have a long name and perhaps a short one, and may take a value. Short
options may be written together, and a value may follow its option directly or as
the next argument. A scan stops at the first word that is no option.
-/

namespace FilterQuery.CommandLine

/-- The options of the program. -/
inductive Opt
  | models | verbose | version | help
  | model | select | filter | order | limit | offset | lenient
deriving DecidableEq, Repr

namespace Opt

/-- The name after two hyphens. -/
def long : Opt → String
  | models => "models"
  | verbose => "verbose"
  | version => "version"
  | help => "help"
  | model => "model"
  | select => "select"
  | filter => "where"
  | order => "order"
  | limit => "limit"
  | offset => "offset"
  | lenient => "lenient"

/-- The letter after one hyphen. -/
def short? : Opt → Option Char
  | verbose => some 'v'
  | version => some 'V'
  | help => some 'h'
  | model => some 'm'
  | select => some 's'
  | filter => some 'f'
  | order => some 'o'
  | limit => some 'l'
  | models | offset | lenient => none

/-- Whether an option takes a value. -/
def takesValue : Opt → Bool
  | verbose | version | help | lenient => false
  | models | model | select | filter | order | limit | offset => true

/-- Whether an option may be given more than once. -/
def repeats : Opt → Bool
  | select | order => true
  | _ => false

end Opt

/-- An option as it was given. -/
structure Given where
  opt : Opt
  value : Option String := none
deriving DecidableEq, Repr

/-- Whether an option can take its value: a file has a name, and a count is a
number of 64 bits. -/
def Given.isFit (g : Given) : Bool :=
  match g.opt, g.value with
  | .models, some path => path != ""
  | .limit, some count => (readWord? count).isSome
  | .offset, some count => (readWord? count).isSome
  | _, _ => true

/-- What ends a scan. -/
inductive Ending
  | done
  /-- A word that is no option, and the arguments after it. -/
  | word (w : String) (rest : List String)
  /-- An argument that is not understood. -/
  | refused
deriving DecidableEq, Repr

/-- Whether an argument reads as options and not as a value. -/
def isOptionLike (arg : String) : Bool :=
  match arg.toList with
  | '-' :: _ :: _ => true
  | _ => false

/-- A text up to the first equals sign, and what follows it. -/
def splitEquals : List Char → List Char × Option (List Char)
  | [] => ([], none)
  | c :: cs =>
      if c = '=' then ([], some cs)
      else
        let (name, value) := splitEquals cs
        (c :: name, value)

/-- The value that is written together with a short option. -/
def attached? : List Char → Option String
  | [] => none
  | '=' :: cs => some (String.ofList cs)
  | cs => some (String.ofList cs)

/-- How a scan goes on after an argument. -/
inductive Onward
  /-- With any argument. -/
  | free
  /-- With the value of an option. -/
  | waiting (o : Opt)
  /-- Not at all: the argument is not understood from some place on. -/
  | refused

/-- What one argument gives: options, and how the scan goes on. -/
structure Reading where
  given : List Given := []
  onward : Onward := .free

/-- The options of a group of letters. Those in front of a letter that is not known
are given nevertheless. -/
def readLetters (known : List Opt) : List Char → Reading
  | [] => {}
  | c :: cs =>
      match known.find? fun o => o.short? = some c with
      | none => { onward := .refused }
      | some o =>
          if o.takesValue then
            match attached? cs with
            | some v => { given := [⟨o, some v⟩] }
            | none => { onward := .waiting o }
          else
            let r := readLetters known cs
            { r with given := ⟨o, none⟩ :: r.given }

/-- The option of a long name. -/
def readLong (known : List Opt) (cs : List Char) : Reading :=
  let (name, value) := splitEquals cs
  match known.find? fun o => o.long = String.ofList name with
  | none => { onward := .refused }
  | some o =>
      match o.takesValue, value with
      | true, some v => { given := [⟨o, some (String.ofList v)⟩] }
      | true, none => { onward := .waiting o }
      | false, none => { given := [⟨o, none⟩] }
      | false, some _ => { onward := .refused }

/-- The options of one argument; `none` for a word. -/
def readArgument? (known : List Opt) (arg : String) : Option Reading :=
  match arg.toList with
  | '-' :: '-' :: cs => some (readLong known cs)
  | '-' :: c :: cs => some (readLetters known (c :: cs))
  | _ => none

/-- The options at the front of the arguments, in order, and what ends them.
`waiting` is an option that takes the next argument as its value. -/
def scan (known : List Opt) : Option Opt → List String → List Given × Ending
  | none, [] => ([], .done)
  | some _, [] => ([], .refused)
  | some o, arg :: args =>
      if isOptionLike arg then ([], .refused)
      else
        let (given, ending) := scan known none args
        (⟨o, some arg⟩ :: given, ending)
  | none, arg :: args =>
      if arg = "--" then ([], if args.isEmpty then .done else .refused)
      else
        match readArgument? known arg with
        | none => ([], .word arg args)
        | some ⟨given, .refused⟩ => (given, .refused)
        | some ⟨given, .free⟩ =>
            let (more, ending) := scan known none args
            (given ++ more, ending)
        | some ⟨given, .waiting o⟩ =>
            let (more, ending) := scan known (some o) args
            (given ++ more, ending)

/-- What given options amount to. -/
inductive Verdict
  | accepted
  | asks (o : Opt)
  | refused
deriving DecidableEq, Repr

/-- Looks at given options in order; `seen` are those before. The first that only
asks for information decides. Refused are an option that may be given once and is
given twice, and a value that does not fit. -/
def judge (seen : List Opt) : List Given → Verdict
  | [] => .accepted
  | g :: gs =>
      if g.opt = .version ∨ g.opt = .help then .asks g.opt
      else if g.opt ∈ seen ∧ !g.opt.repeats then .refused
      else if !g.isFit then .refused
      else judge (g.opt :: seen) gs

/-- The values of an option, in order. -/
def valuesOf (o : Opt) (gs : List Given) : List String :=
  gs.filterMap fun g => if g.opt = o then g.value else none

/-- Whether an option is given. -/
def isGiven (o : Opt) (gs : List Given) : Bool :=
  gs.any fun g => g.opt = o

end FilterQuery.CommandLine
