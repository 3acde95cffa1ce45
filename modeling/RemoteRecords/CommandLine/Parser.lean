import RemoteRecords.CommandLine.Level

namespace RemoteRecords.CommandLine

/-! ## Variables -/

/-- The value of a flag's variable. -/
def variableValue? (environment : List (String × String)) (flag : Flag) : Option String :=
  flag.variableName.bind fun name => environment.lookup name

/-- Checks the variables of the flags that the level does not give. -/
def checkVariables (environment : List (String × String)) (level : Level) : Except Usage Unit :=
  [Flag.config, Flag.workers].forM fun flag =>
    match level.value? flag, variableValue? environment flag with
    | none, some text => flag.check text
    | _, _ => .ok ()

/-- The level once its last value and the variables have been checked. -/
def complete (environment : List (String × String)) (level : Level) : Except Usage Level := do
  let level ← level.settle
  checkVariables environment level
  return level

/-! ## Before the command -/

/-- What is said about a request for help with the named commands. -/
def helpUsage : List String → Usage
  | [] => .helpAsked
  | [name] => if name = "help" ∨ (Verb.ofName? name).isSome then .helpAsked else .unknownCommand
  | _ => .unknownCommand

/-- What is said about a command line without a command. -/
def absentUsage (environment : List (String × String)) (level : Level) : Usage :=
  match complete environment level with
  | .error usage => usage
  | .ok level =>
      let byVariable (flag : Flag) : Bool := (variableValue? environment flag).isSome
      if level.given.isEmpty && !byVariable .config && !byVariable .workers then .nothingAsked
      else .missingCommand

/-- The flags before the command, the command and the arguments behind it. -/
def readVerb (environment : List (String × String)) (args : List String) :
    Except Usage (Level × Verb × List String) := do
  match ← Level.empty.read Flag.beforeCommand args with
  | (level, .finished) => .error (absentUsage environment level)
  | (level, .word word rest) =>
      if word = "help" then .error (helpUsage rest)
      else
        match Verb.ofName? word with
        | some verb => return (level, verb, rest)
        | none => .error .unknownCommand
  | (_, .behindDashes word) =>
      if word = "help" ∨ (Verb.ofName? word).isSome then .error .unknownArgument
      else .error .unknownCommand

/-! ## Behind the command -/

/-- The flags behind the command. -/
def readFlags (environment : List (String × String)) (verb : Verb) (args : List String) :
    Except Usage Level := do
  match ← Level.empty.read (Flag.behindCommand verb.flags) args with
  | (level, .finished) =>
      let level ← complete environment level
      if (level.value? .model).isSome then return level else .error .missingArgument
  | _ => .error .unknownArgument

/-! ## All together -/

/-- The settings file that is used when none is named. -/
def defaultConfig : String := "config.yml"

/-- What separates the cells of a row when nothing else is said. -/
def defaultSeparator : String := ";"

/-- The values of a command line. Those behind the command come first, then those before it, then
those of variables. -/
structure Values where
  before : Level
  behind : Level
  environment : List (String × String)

namespace Values

def value? (values : Values) (flag : Flag) : Option String :=
  match values.behind.value? flag with
  | some text => some text
  | none =>
      match values.before.value? flag with
      | some text => some text
      | none => variableValue? values.environment flag

/-- The values that win over the settings. -/
def overrides (values : Values) : Settings.Overrides where
  hostname := values.value? .hostname
  port := (values.value? .port).bind Flag.portOf?
  database := values.value? .database
  username := values.value? .username
  password := values.value? .password
  schema := values.value? .schema

/-- The number of a flag, zero when it is not given. -/
def count (values : Values) (flag : Flag) : Nat :=
  ((values.value? flag).bind Flag.countOf?).getD 0

def modelText (values : Values) : String := (values.value? .model).getD ""

def selection (values : Values) : Selection :=
  ⟨values.modelText, values.value? .field, values.value? .domain, values.count .offset,
    values.count .limit⟩

def dataFile (values : Values) : DataFile :=
  ⟨(values.value? .file).map Path.ofText, (values.value? .separator).getD defaultSeparator⟩

def command (values : Values) : Verb → Command
  | .query => .query values.selection
  | .save => .save values.selection values.dataFile
  | .send =>
      .send values.modelText (values.count .offset) (values.count .limit) values.dataFile

def invocation (values : Values) (verb : Verb) : Invocation where
  config := .ofText ((values.value? .config).getD defaultConfig)
  overrides := values.overrides
  workers := (values.value? .workers).bind Flag.countOf?
  verbose := (values.value? .verbose).isSome
  command := values.command verb

end Values

/-- What the arguments ask for. What is wrong behind the command is told before what is wrong in the
last value before it. -/
def parse (environment : List (String × String)) (args : List String) :
    Except Usage Invocation := do
  let (before, verb, rest) ← readVerb environment args
  let behind ← readFlags environment verb rest
  let before ← complete environment before
  return (Values.mk before behind environment).invocation verb

end RemoteRecords.CommandLine
