namespace SelectionEngine

/-- What can be said on the command line. A part that is missing was not given. -/
structure Options where
  logFilter : Option String := none
  jsonLogs : Option Bool := none
  configuration : Option String := none
  request : Option String := none
  printSchema : Bool := false
  configSchema : Bool := false
  version : Bool := false

/-- Why options are not acted upon. -/
inductive OptionsRefusal where
  | help
  | misuse
deriving DecidableEq

namespace Options

/-- The options that have a value. -/
inductive Setting where
  | logFilter
  | configuration
  | request
deriving DecidableEq

/-- The options that have none. -/
inductive Switch where
  | jsonLogs
  | printSchema
  | configSchema
  | version
deriving DecidableEq

/-- What one argument of the command line asks for. -/
inductive Action where
  | help
  | turnOn (switch : Switch)
  | assign (setting : Setting) (value : String)
  /-- The value is the next argument. -/
  | await (setting : Setting)
deriving DecidableEq

def longSetting? : String → Option Setting
  | "log" | "log-level" => some .logFilter
  | "config" => some .configuration
  | "request" => some .request
  | _ => none

def longSwitch? : String → Option Action
  | "help" => some .help
  | "json-logs" => some (.turnOn .jsonLogs)
  | "print-schema" => some (.turnOn .printSchema)
  | "config-schema" => some (.turnOn .configSchema)
  | "version" => some (.turnOn .version)
  | _ => none

/-- The action of an option that is named in full, perhaps with its value
after an equals sign. -/
def longAction? (text : List Char) : Option Action :=
  let name := String.ofList (text.takeWhile (· != '='))
  match text.dropWhile (· != '=') with
  | [] => longSwitch? name <|> (longSetting? name).map .await
  | _ :: value => (longSetting? name).map (.assign · (String.ofList value))

/-- The action of an option with a value, which may follow directly or
after an equals sign. -/
def shortSetting (setting : Setting) : List Char → Action
  | [] => .await setting
  | '=' :: value | value => .assign setting (String.ofList value)

/-- The actions of options that are named by letters. What follows a letter with
a value is that value. -/
def shortActions? : List Char → Option (List Action)
  | [] => some []
  | 'h' :: _ => some [.help]
  | 'V' :: rest => (shortActions? rest).map (.turnOn .version :: ·)
  | 'c' :: rest => some [shortSetting .configuration rest]
  | 'r' :: rest => some [shortSetting .request rest]
  | _ => none

/-- The actions of an argument. One that names no option is of no use. -/
def actions? (argument : String) : Option (List Action) :=
  match argument.toList with
  | '-' :: '-' :: text => (longAction? text).map ([·])
  | '-' :: c :: rest => shortActions? (c :: rest)
  | _ => none

/-- Whether an argument can be the value of an option that stands before it. -/
def isValue (argument : String) : Bool :=
  match argument.toList with
  | '-' :: _ :: _ => false
  | _ => true

def turnOn? (options : Options) : Switch → Option Options
  | .jsonLogs => if options.jsonLogs.isSome then none else some { options with jsonLogs := some true }
  | .printSchema => if options.printSchema then none else some { options with printSchema := true }
  | .configSchema => if options.configSchema then none else some { options with configSchema := true }
  | .version => if options.version then none else some { options with version := true }

/-- Gives an option its value, if it has none yet. Paths are not empty. -/
def assign? (options : Options) (setting : Setting) (value : String) : Option Options :=
  match setting with
  | .logFilter => if options.logFilter.isSome then none else some { options with logFilter := some value }
  | .configuration =>
    if options.configuration.isSome ∨ value.isEmpty then none else some { options with configuration := some value }
  | .request => if options.request.isSome ∨ value.isEmpty then none else some { options with request := some value }

/-- Does the actions of one argument and says which option still
waits for its value. -/
def perform (options : Options) : List Action → Except OptionsRefusal (Options × Option Setting)
  | [] => .ok (options, none)
  | .help :: _ => .error .help
  | .turnOn switch :: rest => match options.turnOn? switch with
    | some options => perform options rest
    | none => .error .misuse
  | .assign setting value :: rest => match options.assign? setting value with
    | some options => perform options rest
    | none => .error .misuse
  | .await setting :: _ => .ok (options, some setting)

/-- Reads the arguments in their order, each option at most once. -/
def readArguments (options : Options) (waiting : Option Setting) : List String → Except OptionsRefusal Options
  | [] => if waiting.isSome then .error .misuse else .ok options
  | argument :: rest => match waiting with
    | some setting =>
      match if isValue argument then options.assign? setting argument else none with
      | some options => readArguments options none rest
      | none => .error .misuse
    | none =>
      if argument = "--" then if rest.isEmpty then .ok options else .error .misuse
      else match actions? argument with
        | none => .error .misuse
        | some actions => match options.perform actions with
          | .error refusal => .error refusal
          | .ok (options, waiting) => readArguments options waiting rest

/-- The environment variables that stand in for options. -/
def logVariable : String := "APOLLO_EXECUTOR_LOG"

def jsonLogsVariable : String := "APOLLO_EXECUTOR_JSON_LOGS"

def configurationVariable : String := "APOLLO_EXECUTOR_CONFIG_PATH"

def readSwitch? : String → Option Bool
  | "true" => some true
  | "false" => some false
  | _ => none

/-- Fills in from the environment what was not given. -/
def fillIn? (options : Options) (environment : String → Option String) : Option Options := do
  let jsonLogs ← match options.jsonLogs, environment jsonLogsVariable with
    | none, some text => (readSwitch? text).map some
    | given, _ => some given
  let options := { options with jsonLogs, logFilter := options.logFilter <|> environment logVariable }
  match options.configuration, environment configurationVariable with
  | none, some path => options.assign? .configuration path
  | _, _ => some options

/-- The options of a command line. -/
def read (arguments : List String) (environment : String → Option String) : Except OptionsRefusal Options := do
  let given ← readArguments {} none arguments
  match given.fillIn? environment with
  | some options => return options
  | none => throw .misuse

end Options

end SelectionEngine
