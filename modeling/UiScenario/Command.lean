import UiScenario.Compile
import UiScenario.Json.Printer
import UiScenario.Text.Escaped

/-!
The command line. A command reads files, and then it writes to the outputs and to files and ends
with an exit code. Commands are pure: they are given the files, and tell what to write.
-/

namespace UiScenario

/-- What to do. Scripts without a file are read from the standard input. -/
inductive Command where
  | tokens (file : Option String)
  | check (file : Option String) (context : List String) (json : Bool)
  /-- Compiles a script; its source, context and parameters are names of files here. -/
  | compile (file : Option String) (options : CompileOptions) (output : Option String)
    (json : Bool)
  | explain (code : Option String)

namespace Command

/-! ## Arguments -/

/-- An argument: a value, or an option that may have a value attached. -/
inductive Argument where
  | value (text : String)
  | option (name : String) (attached : Option String)

/-- The options with a value, in all their spellings, with their names. -/
def valueOptions : List (String × String) :=
  [("context", "context"), ("c", "context"), ("scenario", "scenario"), ("tag", "tag"),
    ("exclude-tag", "exclude-tag"), ("tag-mode", "tag-mode"), ("grep", "grep"),
    ("params", "params"), ("output", "output"), ("o", "output")]

/-- The options without a value, in all their spellings, with their names. -/
def flagOptions : List (String × String) :=
  [("json", "json"), ("verbose", "verbose"), ("v", "verbose")]

def repeatable : List String :=
  ["context", "tag", "exclude-tag", "grep"]

/-- The spelling of an option and the value attached to it. Long options take it behind an equals
sign, short ones right behind their letter. -/
def spelling? (argument : String) : Option (String × Option String) :=
  match argument.toList with
  | '-' :: '-' :: c :: cs =>
    let name := (c :: cs).takeWhile (· != '=')
    let rest := (c :: cs).dropWhile (· != '=')
    some (String.ofList name, if rest.isEmpty then none else some (String.ofList (rest.drop 1)))
  | '-' :: c :: cs =>
    if c == '-' then none
    else
      let attached := if cs.head? == some '=' then cs.drop 1 else cs
      some (c.toString, if cs.isEmpty then none else some (String.ofList attached))
  | _ => none

/-- The values and the options of a command, in order; nothing if an option is not known or lacks
its value. The option `pending` is waiting for its value. -/
def readArguments? (pending : Option String) : List String → Option (List Argument)
  | [] => if pending.isNone then some [] else none
  | a :: rest =>
    match pending, spelling? a with
    | some option, none =>
      if a == "--" then none
      else (readArguments? none rest).map (.option option (some a) :: ·)
    | some _, some _ => none
    | none, none =>
      if a == "--" then some (rest.map .value)
      else (readArguments? none rest).map (.value a :: ·)
    | none, some (name, attached) =>
      match valueOptions.lookup name, flagOptions.lookup name, attached with
      | some option, _, some v => (readArguments? none rest).map (.option option (some v) :: ·)
      | some option, _, none => readArguments? (some option) rest
      | none, some flag, none => (readArguments? none rest).map (.option flag none :: ·)
      | none, _, _ => none

def plainValues (arguments : List Argument) : List String :=
  arguments.filterMap fun
    | .value text => some text
    | .option .. => none

def optionValues (arguments : List Argument) (name : String) : List String :=
  arguments.filterMap fun
    | .option n (some v) => if n == name then some v else none
    | _ => none

def optionNames (arguments : List Argument) : List String :=
  arguments.filterMap fun
    | .option n _ => some n
    | .value _ => none

/-- Whether the options are among those of a command, and none is given twice that may not be. -/
def optionsFit (allowed : List String) (arguments : List Argument) : Bool :=
  let names := optionNames arguments
  names.all (fun n => n == "verbose" || allowed.contains n) &&
    names.all fun n => repeatable.contains n || names.count n == 1

def read? (arguments : List String) : Option Command := do
  let arguments ← readArguments? none arguments
  let value (name : String) : Option String := (optionValues arguments name).head?
  let values (name : String) : List String := optionValues arguments name
  let json := (optionNames arguments).contains "json"
  match plainValues arguments with
  | [] => none
  | word :: operands =>
    guard (operands.length ≤ 1)
    let operand := operands.head?
    match word with
    | "tokens" =>
      guard (optionsFit [] arguments)
      return .tokens operand
    | "check" =>
      guard (optionsFit ["context", "json"] arguments)
      return .check operand (values "context") json
    | "compile" =>
      guard (optionsFit (valueOptions.map (·.2) ++ ["json"]) arguments)
      let options : CompileOptions :=
        ⟨"", values "context", value "scenario", values "tag", values "exclude-tag",
          value "tag-mode", values "grep", value "params"⟩
      return .compile operand options (value "output") json
    | "explain" =>
      guard (optionsFit [] arguments)
      return .explain operand
    | _ => none

/-! ## Running -/

inductive Output where
  | standard (text : String)
  | error (text : String)
  | file (name text : String)
deriving DecidableEq

/-- What a command writes, in order, and its exit code. -/
structure Outcome where
  outputs : List Output
  exit : Nat
deriving DecidableEq

inductive Failure where
  | file (reason : String)
  | compile (error : CompileError)
  | unknownCode (code : String)
  /-- The script has errors, which are reported already. -/
  | script (errors : Nat)
deriving DecidableEq

def Failure.message : Failure → String
  | file reason => s!"IO error: {reason}"
  | compile e => e.message
  | unknownCode code =>
    s!"Unknown error code: '{code}'\nRun 'vero explain' to list every code."
  | script errors => s!"{errors} error(s) found"

def line (text : String) : String :=
  text ++ "\n"

def Outcome.ofResult (outputs : List Output) : Except Failure Unit → Outcome
  | .ok () => ⟨outputs, 0⟩
  | .error failure => ⟨outputs ++ [.error (line failure.message)], 1⟩

/-- How a script with the given number of errors ends a command. -/
def verdict (errors : Nat) : Except Failure Unit :=
  if errors = 0 then .ok () else .error (.script errors)

/-- A token on a line: its place, its kind and its text. -/
def tokenLine (t : Token) : String :=
  line (s!"{t.line}:{t.column}\t{t.kind.name}\t" ++ Text.escaped t.value)

def runTokens (source : String) : Outcome :=
  let lexing := tokenize source
  .ofResult
    (lexing.tokens.map (.standard ∘ tokenLine) ++
      lexing.errors.map fun e => .error (line (Problem.lexical e).diagnostic.text))
    (verdict lexing.errors.length)

def runCheck (source : String) (context : List String) (json : Bool) : Outcome :=
  let report := UiScenario.check (parseProject context) source
  let output : Output :=
    if json then .standard (line report.toJson.pretty)
    else if report.errors.isEmpty && report.warnings.isEmpty then
      .standard (line "No problems found")
    else .error (line report.text)
  .ofResult [output] (verdict report.errors.length)

/-- How many tests there are, and from which part of the scenarios. -/
def generatedLine (g : Generated) : String :=
  line s!"Generated {g.cases.length} test(s) from {g.selected} of {g.total} scenario(s)"

def compiledOutputs (output : Option String) : Compilation → List Output
  | .success g warnings =>
    (if warnings.isEmpty then [] else [.error (line (Report.mk [] warnings).text)]) ++
    [output.elim (.standard g.code) (.file · g.code), .error (generatedLine g)]
  | .failure report => [.error (line report.text)]

def runCompile (options : CompileOptions) (output : Option String) (json : Bool) : Outcome :=
  match options.run with
  | .error e => .ofResult [] (.error (.compile e))
  | .ok compilation =>
    let outputs := if json then [.standard (line compilation.toJson.pretty)]
      else compiledOutputs output compilation
    .ofResult outputs <| verdict <| match compilation with
      | .success .. => 0
      | .failure report => report.errors.length

def runExplain (code : Option String) : Outcome :=
  match code with
  | none => ⟨[.standard catalogueOverview], 0⟩
  | some code =>
    match explain? code with
    | some entry => ⟨[.standard entry.text], 0⟩
    | none => .ofResult [] (.error (.unknownCode code))

/-- Reads what a command needs: the script, the context, and then the parameters. -/
def readInputs (read : String → Except String String) (input : String) (file : Option String)
    (context : List String) (parameters : Option String) :
    Except Failure (String × List String × Option String) := do
  let readFile (name : String) : Except Failure String := (read name).mapError .file
  let source ← file.elim (.ok input) readFile
  let context ← context.mapM readFile
  return (source, context, ← parameters.mapM readFile)

/-- Runs a command, given how to read files and the text of the standard input. -/
def run (read : String → Except String String) (input : String) (c : Command) : Outcome :=
  let outcome : Except Failure Outcome := do
    match c with
    | tokens file =>
      let (source, _, _) ← readInputs read input file [] none
      return runTokens source
    | check file context json =>
      let (source, context, _) ← readInputs read input file context none
      return runCheck source context json
    | compile file options output json =>
      let (source, context, parameters) ←
        readInputs read input file options.context options.parameters
      return runCompile { options with source, context, parameters } output json
    | explain code => return runExplain code
  match outcome with
  | .ok outcome => outcome
  | .error failure => .ofResult [] (.error failure)

def inputFiles : Command → List String
  | tokens file => file.toList
  | check file context _ => file.toList ++ context
  | compile file options _ _ => file.toList ++ options.context ++ options.parameters.toList
  | explain _ => []

end Command

end UiScenario
