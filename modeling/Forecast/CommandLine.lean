import Forecast.Calendar.Written
import Forecast.Evaluation.Json
import Forecast.Report

namespace Forecast.CommandLine

inductive Argument where
  | help
  | version
  | json
  | color (on : Bool)
  | today (value : String)
  | start (value : String)
  | days (value : String)
  | noValue (flag : String)
  | other (text : String)
  deriving DecidableEq

def splitFlag (arg : String) : String × Option String :=
  let flag := arg.toList.takeWhile (· ≠ '=')
  match flag, arg.toList.drop flag.length with
  | '-' :: '-' :: _, '=' :: value => (String.ofList flag, some (String.ofList value))
  | _, _ => (arg, none)

def valueOption? : String → Option (String → Argument)
  | "--reference" => some .today
  | "--start" => some .start
  | "--days" => some .days
  | _ => none

def plainArgument (arg flag : String) : Argument :=
  match flag with
  | "-h" | "--help" => .help
  | "-V" | "--version" => .version
  | "--color" => .color true
  | "--no-color" => .color false
  | "--json" => .json
  | _ => .other arg

/-- Tells the arguments apart. An option without a value of its own takes the next argument,
whatever that is. -/
def split : List String → List Argument
  | [] => []
  | [arg] =>
    match valueOption? (splitFlag arg).1, (splitFlag arg).2 with
    | some option, some value => [option value]
    | some _, none => [.noValue (splitFlag arg).1]
    | none, _ => [plainArgument arg (splitFlag arg).1]
  | arg :: next :: rest =>
    match valueOption? (splitFlag arg).1, (splitFlag arg).2 with
    | some option, some value => option value :: split (next :: rest)
    | some option, none => option next :: split rest
    | none, _ => plainArgument arg (splitFlag arg).1 :: split (next :: rest)

structure Config where
  path : Option String
  request : Request
  json : Bool
  color : Bool

inductive Stop where
  | help
  | version
  | noValue (flag : String)
  | badDate (flag value : String)
  | badDays (value : String)
  | unknownOption (arg : String)
  | secondInput
  deriving DecidableEq

def readDays? (value : String) : Option Nat :=
  let digits := match value.toList with
    | '+' :: rest => rest
    | text => text
  if digits ≠ [] ∧ digits.all Char.isDigit ∧ Text.digitsValue digits < Nat.pow 2 32 then
    some (Text.digitsValue digits)
  else none

def readDate (flag value : String) : Except Stop Date :=
  match Written.hyphenated.date? value.toList with
  | some d => .ok d
  | none => .error (.badDate flag value)

/-- An input, or an unknown option: only the first lone hyphen is an input. -/
def Config.addOther (c : Config) (text : String) : Except Stop Config :=
  if text = "-" ∧ c.path = none then .ok { c with path := some text }
  else if text.toList.head? = some '-' then .error (.unknownOption text)
  else if c.path ≠ none then .error .secondInput
  else .ok { c with path := some text }

def Config.apply (c : Config) : Argument → Except Stop Config
  | .help => .error .help
  | .version => .error .version
  | .json => .ok { c with json := true }
  | .color on => .ok { c with color := on }
  | .today value => do return { c with request.today := ← readDate "--reference" value }
  | .start value => do return { c with request.start := some (← readDate "--start" value) }
  | .days value =>
    match readDays? value with
    | some n => .ok { c with request.days := some n }
    | none => .error (.badDays value)
  | .noValue flag => .error (.noValue flag)
  | .other text => c.addOther text

def parse (today : Date) (terminal : Bool) (args : List String) : Except Stop Config :=
  (split args).foldlM Config.apply ⟨none, ⟨today, none, none⟩, false, terminal⟩

def versionText : String := "trendscript 0.1.0"

def helpText : String :=
  versionText ++ "

Evaluate a trend script and summarize the simulated series.

Usage:
  trendscript [OPTIONS] [FILE]

  Reads the script from FILE, or from stdin when FILE is omitted or '-'.

Options:
  --start <date>        First simulated day (YYYY-MM-DD). Overrides the
                        script's startDate option.
  --days <n>            Number of simulated days. Overrides the script's
                        duration option.
  --reference <date>    Today's date for defaults and relative startDate
                        values (YYYY-MM-DD). Default: the local date.
  --json                Print the evaluation (diagnostics and graph data)
                        as JSON.
  --color               Force ANSI color output.
  --no-color            Disable ANSI color output.
  -h, --help            Show this help message.
  -V, --version         Print version information.

Environment:
  TRENDSCRIPT_LOG       Log filter for operational logs on stderr
                        (e.g. debug). Default: warn.

Exit codes:
  0  Success.
  1  The script has diagnostics, or the simulation failed.
  2  Invalid arguments or missing input.
"

structure Outcome where
  code : Nat
  output : String
  errors : String

def failure (code : Nat) (message : String) : Outcome := ⟨code, "", "error: " ++ message ++ "\n"⟩

def Stop.outcome : Stop → Outcome
  | help => ⟨0, helpText ++ "\n", ""⟩
  | version => ⟨0, versionText ++ "\n", ""⟩
  | noValue flag => failure 2 s!"{flag} expects a value"
  | badDate flag value => failure 2 s!"invalid {flag} '{value}' (expected YYYY-MM-DD)"
  | badDays value => failure 2 s!"invalid --days '{value}' (expected a whole number)"
  | unknownOption arg => failure 2 s!"unknown option '{arg}'"
  | secondInput => failure 2 "input provided multiple times"

inductive ReadError where
  | notFound
  | isDirectory
  | notText
  | other (message : String)

def ReadError.message : ReadError → String
  | notFound => "No such file or directory (os error 2)"
  | isDirectory => "Is a directory (os error 21)"
  | notText => "stream did not contain valid UTF-8"
  | other message => message

def Config.file? (c : Config) : Option String := if c.path = some "-" then none else c.path

/-- A note that goes out for each start date whose month, counted out, is too short. -/
def isShortMonth (d : Diagnostic) : Bool :=
  match d.problem with
  | .setting (.startDate _ (.phrase .shortMonth)) => true
  | _ => false

def notes (diagnostics : List Diagnostic) : String :=
  String.join ((diagnostics.filter isShortMonth).map fun _ => "fkd date\n")

def Config.inputName (c : Config) : String := c.file?.elim "stdin" fun path => s!"'{path}'"

def Config.source (c : Config) (input : Except ReadError ByteArray) :
    Except Outcome (List Char) := do
  let unreadable (e : ReadError) : Outcome :=
    failure 2 s!"failed to read {c.inputName}: {e.message}"
  let bytes ← input.mapError unreadable
  match String.fromUTF8? bytes with
  | none => throw (unreadable .notText)
  | some source =>
    if Text.trim source.toList = [] then throw (failure 2 ("no input provided\n\n" ++ helpText))
    else return source.toList

/-- The configuration of a list of arguments and the script that it leads to, where `read` reads a
file, or the standard input. -/
def load {m : Type → Type} [Monad m] (read : Option String → m (Except ReadError ByteArray))
    (today : Date) (terminal : Bool) (args : List String) :
    m (Except Outcome (Config × List Char)) := do
  match parse today terminal args with
  | .error stop => return .error stop.outcome
  | .ok config => return (config.source (← read config.file?)).map (config, ·)

def Config.present (c : Config) (source : List Char) (timing : String) :
    Result OutOfCalendar FullEvaluation → Except Abort Outcome
  | .aborted why => .error why
  | .error e => .ok (failure 1 e.message)
  | .ok full =>
    let diagnostics := full.evaluation.diagnostics
    let output :=
      if c.json then (Json.ofEvaluation full.evaluation).pretty ++ "\n"
      else Report.text c.color source full timing
    .ok ⟨if diagnostics.isEmpty then 0 else 1, output, notes diagnostics⟩

end Forecast.CommandLine
