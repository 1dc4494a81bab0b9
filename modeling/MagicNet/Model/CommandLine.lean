import Mathlib.Data.List.AList

/-!
# The options of the command line

`commandLineOption::parse` takes an argument of two chars that begins with `-` for an option, and the
argument after it, if that is no option, for its value; what stands further on overrides.  The options
that are required are then looked for.  `getOption` is `m_options[name]`, which puts an empty value in
the map where there is none.  The launcher runs what the options say; `framework::doInit` asks for the
path of the configuration.  A `std::string` is the list of its chars.

SOURCE: commandLineOption.cc:5-45, framework.cc:40-45,
launcher/src/main.cc:27-79
-/

set_option autoImplicit false

namespace MagicNet.CommandLine

abbrev Map (β : Type) := AList fun _ : List Char => β

structure CommandLineOption where
  m_required : Map Bool
  m_options : Map (List Char)

def isOption (val : List Char) : Bool := val.length = 2 ∧ val.head? = some '-'

/-- The loop of `parse`, over the arguments from `args[i]` on. -/
def parseArgs (m_options : Map (List Char)) : List (List Char) → Map (List Char)
  | [] => m_options
  | arg :: args =>
    if arg.length ≠ 2 ∨ arg.head? ≠ some '-' then parseArgs m_options args
    else
      let option := ['0'].set 0 (arg.getD 1 '\x00')
      let m_options := m_options.insert option []
      match args with
      | [] => parseArgs m_options args
      | next :: _ =>
        parseArgs (if isOption next then m_options else m_options.insert option next) args

namespace CommandLineOption

variable (o : CommandLineOption)

def setOption (name : List Char) (required : Bool) : CommandLineOption :=
  { o with m_required := o.m_required.insert name required }

def isSet (name : List Char) : Bool := (o.m_options.lookup name).isSome

/-- The value, and the map with it. -/
def getOption (name : List Char) : List Char × CommandLineOption :=
  match o.m_options.lookup name with
  | some value => (value, o)
  | none => ([], { o with m_options := o.m_options.insert name [] })

/-- `false` where an option that is required has not been given. -/
def parse (args : List (List Char)) : Bool × CommandLineOption :=
  let o := { o with m_options := parseArgs o.m_options args }
  (o.m_required.entries.all fun e => !e.2 || (o.m_options.lookup e.1).isSome, o)

end CommandLineOption

/-! ## The launcher -/

/-- How `main` goes on when the command line has been read: the engine runs with the configuration at
a path, in the background or not. -/
inductive Launch where
  | parseFailed
  | help
  | version
  | run (daemon : Bool) (path : List Char)
  deriving DecidableEq, Repr

def options : CommandLineOption :=
  (((⟨∅, ∅⟩ : CommandLineOption).setOption ['d'] false).setOption "help".toList false).setOption
    "version".toList false

/-- `daemonOption::init` has been successful where it is asked for. -/
def main (argv : List (List Char)) : Launch :=
  let (parsed, option) := options.parse argv
  if !parsed then .parseFailed
  else if option.isSet ['d'] then .run true (option.getOption ['p']).1
  else if option.isSet "help".toList then .help
  else if option.isSet "version".toList then .version
  else .run false (option.getOption ['p']).1

end MagicNet.CommandLine
