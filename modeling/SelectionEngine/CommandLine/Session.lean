import SelectionEngine.CommandLine.LogFilter
import SelectionEngine.CommandLine.Options
import SelectionEngine.Execution.Operation
import SelectionEngine.Json.Parser
import SelectionEngine.Request.Decoding
import SelectionEngine.Schema.Layout
import SelectionEngine.Schema.Error
import SelectionEngine.Settings.Description
import SelectionEngine.Store

namespace SelectionEngine

/-- How a program ends: its exit code, what it prints, and the
error it reports. -/
structure Ending where
  exitCode : Nat := 0
  output : String := ""
  error : Option String := none
  /-- What else is said beside the output. -/
  notice : String := ""

/-- A program that reads texts before it ends. -/
inductive Session where
  | finish (ending : Ending)
  /-- Goes on with the text of a file, if it can be read. -/
  | fileText (path : String) (next : Option String → Session)
  /-- Goes on with what is left of the standard input, if it can be read. -/
  | inputText (next : Option String → Session)

namespace Session

def print (output : String) : Session := finish { output }

def fail (error : String) : Session := finish { exitCode := 1, error := some error }

/-- Ends at once, without an error to report. -/
def abort : Session := finish { exitCode := 101 }

/-- Reads a file, or the standard input for a dash. -/
def withText (path : String) (next : String → Session) : Session :=
  if path = "-" then inputText fun
    | some text => next text
    | none => fail "could not read the standard input"
  else fileText path fun
    | some text => next text
    | none => fail ("could not read " ++ path)

end Session

namespace CommandLine

def versionText : String := "0.1.0\n"

/-- A number of blanks. -/
def margin (width : Nat) : String := String.ofList (List.replicate width ' ')

/-- The help on an option. Further lines start below the first one. -/
def optionHelp (option meaning : String) : String :=
  let lines := meaning.splitOn "\n"
  "  " ++ option ++ margin (30 - option.length) ++ ("\n" ++ margin 32).intercalate lines ++ "\n"

/-- The help on the options, with the values that the environment has for
them. No usage is given. -/
def help (environment : String → Option String) : String :=
  let fromVariable (name : String) : String := " [env: " ++ name ++ "=" ++ (environment name).getD "" ++ "]"
  "Executes a GraphQL selection tree against the demonstration schema\n\nUsage: \n\nOptions:\n" ++
    optionHelp "    --log <LOG_LEVEL>" ("Log level (off|error|warn|info|debug|trace)" ++
      fromVariable Options.logVariable ++ " [default: info]") ++
    optionHelp "    --json-logs" ("Emit logs as JSON" ++ fromVariable Options.jsonLogsVariable) ++
    optionHelp "-c, --config <CONFIG_PATH>" ("Configuration file location" ++
      fromVariable Options.configurationVariable) ++
    optionHelp "-r, --request <REQUEST_PATH>" "JSON request file location, \x60-\x60 to read from stdin" ++
    optionHelp "    --print-schema" "Prints the schema requests are executed against" ++
    optionHelp "    --config-schema" "Prints the configuration schema" ++
    optionHelp "-V, --version" "Display version and exit" ++
    optionHelp "-h, --help" "Print help"

/-- What is said when the options make no sense. -/
def misuse : String :=
  "error: invalid arguments\n\nFor more information, try '--help'.\n"

/-- What is said when there is no request. -/
def missingRequest : String :=
  "\nThe executor requires a request to be set using '--request':\n\n" ++
    "    $ ./executor --request request.json\n\nor, to read it from the standard input:\n\n" ++
    "    $ echo '\x7b\"selectionSet\": [\x7b\"field\": \x7b\"name\": \"hello\"\x7d\x7d]\x7d' | ./executor --request -\n"

/-- Executes a request that is given as a text and prints the response. -/
def respond (schema : Schema Store) (settings : ExecutionSettings) (text : String) : Session :=
  match (Json.Document.parse? text).bind Request.ofDocument? with
  | none => .fail "could not parse request"
  | some request =>
    let (response, _) := schema.execute settings request (.object []) {}
    .print (response.toValue.toIndentedJson ++ "\n")

/-- Reads the request and executes it. -/
def execute (schema : Schema Store) (options : Options) (configuration : Configuration) : Session :=
  match options.request with
  | none => .fail missingRequest
  | some path => .withText path (respond schema configuration.execution)

/-- Reads the configuration and goes on to the request. -/
def configure (schema : Schema Store) (options : Options) : Session :=
  match options.configuration with
  | none => execute schema options {}
  | some path => .withText path fun text => match Configuration.ofText text with
    | .ok configuration => execute schema options configuration
    | .error error => .fail error.message

/-- Does what the options ask for. -/
def obey (schema : Except SchemaError (Schema Store)) (options : Options) : Session :=
  if options.version then .print versionText
  else if options.configSchema then .print (Settings.jsonSchema.toIndentedJson ++ "\n")
  else match schema with
    | .error _ => .fail "could not build the demonstration schema"
    | .ok schema =>
      if options.printSchema then .print schema.text
      else match LogFilter.check (options.logFilter.getD "info") with
        | .ok _ => configure schema options
        | .error .malformed => .fail "could not parse log configuration"
        | .error .brokenCharacter => .abort

/-- The environment variable with the number of threads. -/
def threadsVariable : String := "APOLLO_EXECUTOR_NUM_CORES"

/-- The program that runs requests on a schema. It cannot run on
no threads at all. -/
def session (schema : Except SchemaError (Schema Store)) (arguments : List String)
    (environment : String → Option String) : Session :=
  if (environment threadsVariable).bind (fun text => Text.word64? text.toList) = some 0 then
    .abort
  else match Options.read arguments environment with
    | .ok options => obey schema options
    | .error .help => .print (help environment)
    | .error .misuse => .finish { exitCode := 2, notice := misuse }

end CommandLine

end SelectionEngine
