import PluginHost.NameMap

/-!
# Command line arguments

A command takes options and, in one case, an operand. An option has a long name and perhaps a
letter; it is a switch or takes a value, which follows it or is attached to it. Nothing may be
given twice, and values and operands are not empty. Arguments are read from left to right, so
a request for help ends the reading where it stands, whatever comes behind.

* `Invocation.ofArguments`: what the arguments ask for.
-/
namespace PluginHost.CommandLine

/-- What an option does. -/
inductive OptionKind where
  | switch
  | value
  | help
  | version
  deriving DecidableEq, Repr

/-- An option that a command takes. -/
structure OptionForm where
  long : String
  letter : Option Char
  kind : OptionKind
  deriving DecidableEq, Repr

/-- Why arguments are no invocation: they ask for a text, or they are wrong. -/
inductive Halt where
  | help
  | version
  | misuse
  deriving DecidableEq, Repr

/-- What the arguments have given so far. -/
structure Given where
  switches : List String
  values : NameMap String
  operands : List String
  deriving DecidableEq, Repr

/-- Nothing has been given. -/
def Given.none : Given := ⟨[], ∅, []⟩

/-- One argument by its outward form. -/
inductive Argument where
  /-- Nothing behind it is an option. -/
  | terminator
  | long (name : String) (attached : Option String)
  | letters (letters : List Char)
  | plain (text : String)
  deriving DecidableEq, Repr

/-- A long option with the value attached to it. -/
def Argument.ofLong (cs : List Char) : Argument :=
  let name := String.ofList (cs.takeWhile (· ≠ '='))
  match cs.dropWhile (· ≠ '=') with
  | [] => .long name none
  | _ :: value => .long name (some (String.ofList value))

/-- The outward form of an argument. A single dash is plain. -/
def Argument.ofText (s : String) : Argument :=
  match s.toList with
  | ['-', '-'] => .terminator
  | '-' :: '-' :: cs => .ofLong cs
  | '-' :: c :: cs => .letters (c :: cs)
  | _ => .plain s

namespace Given

/-- Gives a switch. -/
def addSwitch (g : Given) (name : String) : Except Halt Given :=
  if g.switches.contains name then .error .misuse
  else .ok { g with switches := g.switches ++ [name] }

/-- Gives the value of an option. -/
def addValue (g : Given) (name value : String) : Except Halt Given :=
  if value = "" ∨ g.values.contains name then .error .misuse
  else .ok { g with values := g.values.insert name value }

/-- Gives an operand, of which there are at most `limit`. -/
def addOperand (limit : Nat) (g : Given) (operand : String) : Except Halt Given :=
  if operand = "" ∨ limit ≤ g.operands.length then .error .misuse
  else .ok { g with operands := g.operands ++ [operand] }

/-- Gives an option that takes no value. -/
def addBare (g : Given) (form : OptionForm) : Except Halt Given :=
  match form.kind with
  | .help => .error .help
  | .version => .error .version
  | _ => g.addSwitch form.long

end Given

/-- What has been given, and the option that waits for its value. -/
abbrev Progress := Given × Option OptionForm

/-- Reads a long option. -/
def readLong (forms : List OptionForm) (g : Given) (name : String) (attached : Option String) :
    Except Halt Progress :=
  match forms.find? (·.long == name) with
  | none => .error .misuse
  | some form =>
    match form.kind, attached with
    | .value, some value => (g.addValue name value).map (·, none)
    | .value, none => .ok (g, some form)
    | _, some _ => .error .misuse
    | _, none => (g.addBare form).map (·, none)

/-- The value that is attached to a letter. -/
def attachedValue (cs : List Char) : String :=
  match cs with
  | '=' :: value => String.ofList value
  | value => String.ofList value

/-- Reads letters behind one dash. What stands behind the letter of an option with a value is
the value. -/
def readLetters (forms : List OptionForm) (g : Given) : List Char → Except Halt Progress
  | [] => .ok (g, none)
  | c :: cs =>
    match forms.find? (·.letter == some c) with
    | none => .error .misuse
    | some form =>
      if form.kind = .value then
        if cs = [] then .ok (g, some form)
        else (g.addValue form.long (attachedValue cs)).map (·, none)
      else
        match g.addBare form with
        | .error h => .error h
        | .ok g => readLetters forms g cs

/-- Reads operands. -/
def readOperands (limit : Nat) (g : Given) : List String → Except Halt Given
  | [] => .ok g
  | a :: as =>
    match g.addOperand limit a with
    | .error h => .error h
    | .ok g => readOperands limit g as

/-- Reads the arguments of a command. -/
def readAll (forms : List OptionForm) (limit : Nat) :
    Progress → List String → Except Halt Given
  | (g, none), [] => .ok g
  | (_, some _), [] => .error .misuse
  | (g, some form), a :: as =>
    match Argument.ofText a with
    | .plain value =>
      match g.addValue form.long value with
      | .error h => .error h
      | .ok g => readAll forms limit (g, none) as
    | _ => .error .misuse
  | (g, none), a :: as =>
    match Argument.ofText a with
    | .terminator => readOperands limit g as
    | .long name attached =>
      match readLong forms g name attached with
      | .error h => .error h
      | .ok p => readAll forms limit p as
    | .letters cs =>
      match readLetters forms g cs with
      | .error h => .error h
      | .ok p => readAll forms limit p as
    | .plain operand =>
      match g.addOperand limit operand with
      | .error h => .error h
      | .ok g => readAll forms limit (g, none) as

/-! ## Commands -/

/-- The options that every command takes. -/
def commonForms : List OptionForm :=
  [⟨"verbose", some 'v', .switch⟩, ⟨"help", some 'h', .help⟩, ⟨"version", some 'V', .version⟩]

/-- The option for the directory of plugins. -/
def dirForm : OptionForm := ⟨"dir", some 'd', .value⟩

/-- The commands. -/
inductive CommandName where
  | check
  | graph
  | list
  | manifest
  | serve
  deriving DecidableEq, Repr

namespace CommandName

/-- All commands. -/
def all : List CommandName := [.check, .graph, .list, .manifest, .serve]

/-- The word for a command. -/
def name : CommandName → String
  | .check => "check"
  | .graph => "graph"
  | .list => "list"
  | .manifest => "manifest"
  | .serve => "serve"

/-- The command of a word. -/
def ofName? (s : String) : Option CommandName :=
  all.find? (·.name == s)

/-- The options that a command takes. -/
def forms : CommandName → List OptionForm
  | .check => dirForm :: commonForms
  | .graph => dirForm :: ⟨"json", none, .switch⟩ :: commonForms
  | .list => dirForm :: ⟨"json", none, .switch⟩ :: ⟨"routes", none, .switch⟩ :: commonForms
  | .manifest => commonForms
  | .serve =>
    ⟨"config", some 'c', .value⟩ :: dirForm :: ⟨"no-hot-reload", none, .switch⟩ ::
      ⟨"no-watch", none, .switch⟩ :: commonForms

/-- How many operands a command takes. -/
def operandLimit : CommandName → Nat
  | .manifest => 1
  | _ => 0

end CommandName

/-- What a command line asks for. -/
inductive Invocation where
  | check (dir : Option String)
  | graph (dir : Option String) (json : Bool)
  | list (dir : Option String) (json routes : Bool)
  | manifest (path : String)
  | serve (config dir : Option String) (hotReload watch : Bool)
  deriving DecidableEq, Repr

/-- An invocation, or the text that is asked for in place of one; a command names the version that
is asked for. -/
inductive Answer where
  | invocation (invocation : Invocation)
  | help
  | version (command : Option CommandName)
  | misuse
  deriving DecidableEq, Repr

/-- The invocation of a command with what was given to it. -/
def Invocation.ofGiven (c : CommandName) (g : Given) : Answer :=
  let dir := g.values.get? "dir"
  let isOn := fun name => g.switches.contains name
  match c with
  | .check => .invocation (.check dir)
  | .graph => .invocation (.graph dir (isOn "json"))
  | .list => .invocation (.list dir (isOn "json") (isOn "routes"))
  | .manifest =>
    match g.operands with
    | [path] => .invocation (.manifest path)
    | _ => .misuse
  | .serve =>
    .invocation (.serve (g.values.get? "config") dir (!isOn "no-hot-reload") (!isOn "no-watch"))

/-- What the arguments behind a command ask for. -/
def Invocation.ofCommand (c : CommandName) (arguments : List String) : Answer :=
  match readAll c.forms c.operandLimit (Given.none, none) arguments with
  | .ok g => Invocation.ofGiven c g
  | .error .help => .help
  | .error .version => .version (some c)
  | .error .misuse => .misuse

/-- What the arguments behind the word `help` ask for: at most the name of a command, the word
itself included. -/
def helpAnswer : List String → Answer
  | [] => .help
  | [name] => if name = "help" ∨ (CommandName.ofName? name).isSome then .help else .misuse
  | _ => .misuse

/-- An answer in place of an invocation. -/
def Halt.answer : Halt → Answer
  | .help => .help
  | .version => .version none
  | .misuse => .misuse

/-- What the arguments ask for, once the options before the command have given something. -/
def Invocation.ofArgumentsFrom (g : Given) : List String → Answer
  | [] => .misuse
  | a :: as =>
    match Argument.ofText a with
    | .terminator => .misuse
    | .long name attached =>
      match readLong commonForms g name attached with
      | .error h => h.answer
      | .ok (g, _) => ofArgumentsFrom g as
    | .letters cs =>
      match readLetters commonForms g cs with
      | .error h => h.answer
      | .ok (g, _) => ofArgumentsFrom g as
    | .plain name =>
      if name = "help" then helpAnswer as
      else
        match CommandName.ofName? name with
        | none => .misuse
        | some c => Invocation.ofCommand c as

/-- What the arguments ask for. -/
def Invocation.ofArguments (arguments : List String) : Answer :=
  Invocation.ofArgumentsFrom Given.none arguments

end PluginHost.CommandLine
