import ParameterManual.Settings.Reader
import ParameterManual.Typesetting

/-!
# Arguments

Options have a value, given after an equals sign or as the next argument, and
each but the category may be given once. The program takes no arguments
besides its options.
-/

set_option autoImplicit false

namespace ParameterManual.CommandLine

structure Arguments where
  config : Option Path
  sourceRoot : Option Path
  translations : Option Path
  output : Option Path
  categories : List Text
  jobs : Option Nat
  json : Option Path
  typeset : Option Text
  deriving DecidableEq, Repr

def Arguments.none : Arguments := ⟨.none, .none, .none, .none, [], .none, .none, .none⟩

inductive Invocation where
  | help
  | misuse
  | document (arguments : Arguments)
  deriving DecidableEq, Repr

inductive OptionName where
  | config
  | sourceRoot
  | translations
  | output
  | category
  | jobs
  | json
  | typeset
  deriving DecidableEq, Repr

def OptionName.ofText? (t : Text) : Option OptionName :=
  ([("config", .config), ("source-root", .sourceRoot), ("translations", .translations),
    ("output", .output), ("category", .category), ("jobs", .jobs), ("json", .json),
    ("typeset", .typeset)] : List (String × OptionName)).findSome?
      (fun o => if o.1.toList = t then some o.2 else none)

/-- A number of 64 bits; a plus sign may stand in front. -/
def count? (t : Text) : Option Nat :=
  let digits := (Text.afterLead? ['+'] t).getD t
  let n := digits.foldl (fun n c => 10 * n + (c.toNat - '0'.toNat)) 0
  if !digits.isEmpty && digits.all Text.isDigit && n < Nat.pow 2 64 then some n else none

/-- Sets what is not set yet. -/
def once {α : Type} (old : Option α) (new : Option α) : Option (Option α) :=
  match old, new with
  | .none, some a => some (some a)
  | _, _ => .none

def path? (t : Text) : Option Path := if t.isEmpty then .none else some t

def Arguments.set? (a : Arguments) (value : Text) : OptionName → Option Arguments
  | .config => do some { a with config := ← once a.config (path? value) }
  | .sourceRoot => do some { a with sourceRoot := ← once a.sourceRoot (path? value) }
  | .translations => do some { a with translations := ← once a.translations (path? value) }
  | .output => do some { a with output := ← once a.output (path? value) }
  | .category => some { a with categories := a.categories ++ [value] }
  | .jobs => do some { a with jobs := ← once a.jobs (count? value) }
  | .json => do some { a with json := ← once a.json (path? value) }
  | .typeset => do some { a with typeset := ← once a.typeset (some value) }

/-- What a single argument asks for when no option waits for its value. -/
inductive Request where
  | help
  | misuse
  | nothing
  | noMoreOptions
  | option (name : OptionName) (value : Option Text)
  deriving DecidableEq, Repr

/-- Letters after a single dash: each asks for more messages or for help. -/
def shortRequest : Text → Request
  | [] => .nothing
  | 'v' :: t => shortRequest t
  | 'h' :: _ => .help
  | _ => .misuse

def longRequest (t : Text) : Request :=
  let name := t.takeWhile (· != '=')
  let value := match t.dropWhile (· != '=') with
    | [] => .none
    | _ :: value => some value
  if name = "help".toList then if value.isSome then .misuse else .help
  else if name = "verbose".toList then if value.isSome then .misuse else .nothing
  else
    match OptionName.ofText? name with
    | some option => .option option value
    | .none => .misuse

def request : Text → Request
  | ['-', '-'] => .noMoreOptions
  | '-' :: '-' :: t => longRequest t
  | '-' :: c :: t => shortRequest (c :: t)
  | _ => .misuse

/-- Whether an argument is an option, and so no value of the one before it. -/
def isOption (t : Text) : Bool := t.head? == some '-' && t.length != 1

/-- Reads arguments in order; an option may wait for its value. -/
def parseFrom : Arguments → (waiting : Option OptionName) → List Text → Invocation
  | a, .none, [] => .document a
  | _, some _, [] => .misuse
  | a, some name, t :: rest =>
    if isOption t then .misuse
    else
      match a.set? t name with
      | some a => parseFrom a .none rest
      | .none => .misuse
  | a, .none, t :: rest =>
    match request t with
    | .help => .help
    | .misuse => .misuse
    | .nothing => parseFrom a .none rest
    | .noMoreOptions => if rest.isEmpty then .document a else .misuse
    | .option name .none => parseFrom a (some name) rest
    | .option name (some value) =>
      match a.set? value name with
      | some a => parseFrom a .none rest
      | .none => .misuse

def parse (arguments : List Text) : Invocation := parseFrom Arguments.none .none arguments

/-- The settings of a run: those of the file or the standard ones, with the
paths that are given as options. -/
def Arguments.settings (a : Arguments) (tree : FileTree) : Except Failure Settings := do
  let settings ← match a.config with
    | some path => Settings.load tree path
    | .none => pure Settings.standard
  return { settings with
    sourceRoot := a.sourceRoot.getD settings.sourceRoot
    translations := a.translations <|> settings.translations
    outputFolder := a.output.getD settings.outputFolder }

def Arguments.options (a : Arguments) : Run.Options :=
  ⟨a.categories, Run.Mode.ofJobs a.jobs, a.json⟩

def Arguments.typesetter (shell : Run.Shell) (a : Arguments) : Run.Typesetter :=
  match a.typeset with
  | some command => Run.shellTypesetter shell command
  | .none => Run.noTypesetter

/-- What an invocation leaves behind: its exit code, the files after it, and
what is said to the user, if anything. -/
structure Outcome where
  code : Nat
  tree : FileTree
  said : Option Text

def usage : Text :=
  ("Usage: [--config FILE] [--source-root FOLDER] [--translations FILE] [--output FOLDER] " ++
    "[--category NAME]... [--jobs NUMBER] [--json FILE] [--typeset COMMAND] [-v]...").toList

/-- Runs the program with a shell for the command that typesets. -/
def executeWith (shell : Run.Shell) (arguments : List Text) (tree : FileTree) : Outcome :=
  match parse arguments with
  | .help => ⟨0, tree, some usage⟩
  | .misuse => ⟨2, tree, some usage⟩
  | .document a =>
    match a.settings tree with
    | .error f => ⟨1, tree, some (Text.joined ": ".toList f.chain)⟩
    | .ok settings =>
      match run settings a.options (a.typesetter shell) tree with
      | .ok _ after => ⟨0, after, none⟩
      | .error problem after => ⟨1, after, some problem.message⟩

end ParameterManual.CommandLine
