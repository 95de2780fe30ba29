/-!
# Arguments

The commands and their options. An option takes its value from the next argument or after an equals
sign; a value may not begin with a dash unless it is a dash alone. An option is looked at when the
next one begins or the arguments end, so an argument that nothing knows is reported before a faulty
option ahead of it.
-/
namespace CatalogQuery.CommandLine

inductive Command
  | serve (config : String)
  | query (config : String) (plan : Option String)
  | compile (config : String) (plan : Option String)
  | checkCatalog (catalog : String)
  deriving DecidableEq, Repr

/-- Why arguments are no command: a question for help or the version, or a mistake. -/
inductive UsageFault
  | help
  | version
  | helpForNothing
  | unknownCommand
  | unknownArgument
  | missingArgument
  | missingValue
  | repeatedArgument
  | surplusValue
  deriving DecidableEq, Repr

/-- The file with the configuration where none is named. -/
def defaultConfig : String := "./querypilot.json"

/-- The options read so far, and one whose value may still be missing. -/
structure OptionState where
  values : List (String × String) := []
  pending : Option (String × Option String) := none
  deriving DecidableEq, Repr

namespace OptionState

/-- Takes the value of an option, which comes once and is not empty. -/
def take (s : OptionState) (name value : String) : Except UsageFault OptionState :=
  if (s.values.lookup name).isSome then .error .repeatedArgument
  else if value = "" then .error .missingValue
  else .ok { s with values := s.values ++ [(name, value)] }

def settle (s : OptionState) : Except UsageFault OptionState :=
  match s.pending with
  | none => .ok s
  | some (_, none) => .error .missingValue
  | some (name, some value) => { s with pending := none }.take name value

end OptionState

inductive ArgumentForm
  /-- Two dashes: what follows are no options. -/
  | separator
  | long (name : String) (value : Option String)
  | short (letters : List Char)
  | plain
  deriving DecidableEq, Repr

def ArgumentForm.of (arg : String) : ArgumentForm :=
  match arg.toList with
  | ['-', '-'] => .separator
  | '-' :: '-' :: cs =>
    let name := cs.takeWhile (· != '=')
    match cs.dropWhile (· != '=') with
    | _ :: value => .long (String.ofList name) (some (String.ofList value))
    | [] => .long (String.ofList name) none
  | '-' :: c :: cs => .short (c :: cs)
  | _ => .plain

def readOptions (names : List String) : OptionState → List String → Except UsageFault OptionState
  | s, [] => s.settle
  | s, arg :: rest =>
    match ArgumentForm.of arg with
    | .separator => if rest.isEmpty then s.settle else .error .unknownArgument
    | .long name value =>
      if name = "help" then
        if value.isSome then .error .surplusValue
        else do
          let _ ← s.settle
          .error .help
      else if name ∈ names then
        match value with
        | some v => do
          let s ← s.settle
          let s ← s.take name v
          readOptions names s rest
        | none => do
          let s ← s.settle
          readOptions names { s with pending := some (name, none) } rest
      else .error .unknownArgument
    | .short letters =>
      if letters.head? = some 'h' then do
        let _ ← s.settle
        .error .help
      else .error .unknownArgument
    | .plain =>
      match s.pending with
      | some (name, none) => readOptions names { s with pending := some (name, some arg) } rest
      | _ => .error .unknownArgument

def commandNames : List String := ["serve", "query", "compile", "check-catalog", "help"]

def readCommand (name : String) (args : List String) : Except UsageFault Command :=
  if name = "serve" then do
    let s ← readOptions ["config"] {} args
    .ok (.serve ((s.values.lookup "config").getD defaultConfig))
  else if name = "query" then do
    let s ← readOptions ["config", "plan"] {} args
    .ok (.query ((s.values.lookup "config").getD defaultConfig) (s.values.lookup "plan"))
  else if name = "compile" then do
    let s ← readOptions ["config", "plan"] {} args
    .ok (.compile ((s.values.lookup "config").getD defaultConfig) (s.values.lookup "plan"))
  else if name = "check-catalog" then do
    let s ← readOptions ["catalog"] {} args
    match s.values.lookup "catalog" with
    | some catalog => .ok (.checkCatalog catalog)
    | none => .error .missingArgument
  else
    match args with
    | [] => .error .help
    | [topic] => .error (if topic ∈ commandNames then .help else .unknownCommand)
    | _ => .error .unknownCommand

def readArguments : List String → Except UsageFault Command
  | [] => .error .helpForNothing
  | arg :: rest =>
    if arg ∈ commandNames then readCommand arg rest
    else
      match ArgumentForm.of arg with
      | .separator =>
        match rest with
        | [] => .error .helpForNothing
        | next :: _ => .error (if next ∈ commandNames then .unknownArgument else .unknownCommand)
      | .long name value =>
        if name = "help" ∨ name = "version" then
          if value.isSome then .error .surplusValue
          else .error (if name = "help" then .help else .version)
        else .error .unknownArgument
      | .short letters =>
        if letters.head? = some 'h' then .error .help
        else if letters.head? = some 'V' then .error .version
        else .error .unknownArgument
      | .plain => .error .unknownCommand

example : (readArguments ["query", "--plan", "-"]).toOption =
    some (.query defaultConfig (some "-")) := by decide +kernel
example : (readArguments ["serve", "--config="]).toOption = none := by decide +kernel

end CatalogQuery.CommandLine
