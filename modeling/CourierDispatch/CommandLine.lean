import CourierDispatch.Settings

/-!
# The command line

Arguments are read from left to right. A setting is `--name value` or `--name=value`, and each may be
given once, couriers more often. A value in an argument of its own must not begin with a hyphen, unless
it is a hyphen alone. The environment gives the settings that the arguments do not. The first thing that
cannot be read ends it, and so does a question for help or for the version.
-/

namespace CourierDispatch.CommandLine

/-- What is wrong with a command line. -/
inductive Misuse
  /-- No argument of this kind is known. -/
  | unexpected (argument : String)
  /-- A value is given to something that takes none. -/
  | unneededValue (argument : String)
  | missingValue (s : Setting)
  | repeated (s : Setting)
  | badValue (s : Setting) (text : String)
deriving DecidableEq, Repr

def Misuse.message : Misuse → String
  | unexpected a => s!"unexpected argument '{a}' found"
  | unneededValue a => s!"unexpected value for '{a}' found; no more were expected"
  | missingValue s => s!"a value is required for '--{s.name}' but none was supplied"
  | repeated s => s!"the argument '--{s.name}' cannot be used multiple times"
  | badValue s text => s!"invalid value '{text}' for '--{s.name}'"

inductive Request
  | serve (s : Settings)
  | version
  | help
deriving DecidableEq, Repr

abbrev Environment := List (String × String)

/-- The settings so far, and which of them have been given. -/
structure Given where
  settings : Settings := {}
  names : List Setting := []
deriving DecidableEq, Repr

def Given.take (g : Given) (s : Setting) (text : String) : Except Misuse Given :=
  if s ∈ g.names ∧ ¬ s.isList then .error (.repeated s)
  else
    match s.assign g.settings text with
    | some settings => .ok { settings, names := s :: g.names }
    | none => .error (.badValue s text)

/-- Takes a setting from the environment, unless it has been given. -/
def Given.takeVariable (environment : Environment) (g : Given) (s : Setting) : Except Misuse Given :=
  if s ∈ g.names then .ok g
  else
    match environment.lookup s.envName with
    | some text => g.take s text
    | none => .ok g

def Given.complete (environment : Environment) (g : Given) : Except Misuse Request :=
  (Setting.all.foldlM (takeVariable environment) g).map fun g => .serve g.settings

/-- What an argument looks like. -/
inductive Shape
  /-- Two hyphens: only bare arguments come behind them. -/
  | escape
  /-- A name behind two hyphens, and what stands behind the first equals sign. -/
  | long (name : String) (value : Option String)
  /-- Letters behind one hyphen; the first of them decides. -/
  | short (first : Char)
  | bare
deriving DecidableEq, Repr

def shape (argument : String) : Shape :=
  match argument.toList with
  | ['-', '-'] => .escape
  | '-' :: '-' :: cs =>
    match Text.cut? '=' cs with
    | some (name, value) => .long (String.ofList name) (some (String.ofList value))
    | none => .long (String.ofList cs) none
  | '-' :: c :: _ => .short c
  | _ => .bare

def letterRequest? (c : Char) : Option Request :=
  if c = 'V' then some .version else if c = 'h' then some .help else none

def nameRequest? (name : String) : Option Request :=
  if name = "version" then some .version else if name = "help" then some .help else none

def read (environment : Environment) (g : Given) : List String → Except Misuse Request
  | [] => g.complete environment
  | a :: rest =>
    match shape a with
    | .bare => .error (.unexpected a)
    | .escape =>
      match rest with
      | [] => g.complete environment
      | b :: _ => .error (.unexpected b)
    | .short c =>
      match letterRequest? c with
      | some r => .ok r
      | none => .error (.unexpected a)
    | .long name value =>
      match nameRequest? name, Setting.ofName? name, value with
      | some r, _, none => .ok r
      | some _, _, some _ => .error (.unneededValue a)
      | none, none, _ => .error (.unexpected a)
      | none, some s, some text => (g.take s text).bind fun g => read environment g rest
      | none, some s, none =>
        match rest with
        | [] => .error (.missingValue s)
        | text :: rest =>
          if shape text = .bare then (g.take s text).bind fun g => read environment g rest
          else .error (.missingValue s)

def request (environment : Environment) (arguments : List String) : Except Misuse Request :=
  read environment {} arguments

def version : String := "dispatch-server 0.1.0"

def helpLine (s : Setting) : String := s!"  --{s.name} <VALUE>  {s.purpose} [env: {s.envName}]"

def help : List String :=
  ["Consume courier commands and publish correlated results", "",
    "Usage: dispatch-server [OPTIONS]", "", "Options:"] ++ Setting.all.map helpLine ++
  ["  -h, --help  Print help", "  -V, --version  Print version"]

def misuseStatus : Nat := 2

end CourierDispatch.CommandLine
