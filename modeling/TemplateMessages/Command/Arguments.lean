import TemplateMessages.Project.Config

set_option autoImplicit false

/-!
# Command-line arguments

The first argument names a command, and what follows it is for the command. An option takes its
value from the same argument, behind an equals sign, or from the next one. A value is checked when
the next known option or a path turns up, or at the end.
-/

namespace TemplateMessages.Command

open TemplateMessages.Project (MessageFormat)

/-- What `transform` is asked to do. -/
structure TransformArguments where
  paths : List String
  write : Bool
  outDirectory : Option String
  format : Option MessageFormat
  locale : Option String
  fallback : Option String
  messagesRoot : Option String
  strict : Bool
  verbose : Bool
  deriving DecidableEq, Repr, Inhabited

def TransformArguments.empty : TransformArguments :=
  ⟨[], false, none, none, none, none, none, false, false⟩

inductive Request where
  | overview
  | transform (arguments : TransformArguments)
  | init
  deriving DecidableEq, Repr, Inhabited

inductive Usage where
  | help
  | version
  | unknownCommand
  | unknownArgument
  | conflict
  | invalidValue
  | unexpectedValue
  deriving DecidableEq, Repr, Inhabited

def Usage.message : Usage → String
  | help => "help is shown instead"
  | version => "the version is shown instead"
  | unknownCommand => "unrecognized subcommand"
  | unknownArgument => "unexpected argument"
  | conflict => "arguments that cannot be used together"
  | invalidValue => "invalid value"
  | unexpectedValue => "unexpected value"

inductive Flag where
  | write
  | strict
  | verbose
  deriving DecidableEq, Repr, Inhabited

/-- An option with a value. -/
inductive Setting where
  | outDirectory
  | format
  | locale
  | fallback
  | messagesRoot
  deriving DecidableEq, Repr, Inhabited

def flagNames : Table Flag :=
  [("write", .write), ("strict", .strict), ("verbose", .verbose)]

def settingNames : Table Setting :=
  [("out-dir", .outDirectory), ("translator", .format), ("locale", .locale),
    ("fallback", .fallback), ("messages-root", .messagesRoot)]

inductive Form where
  | separator
  | long (name : String) (value : Option String)
  | short (letters : List Char)
  | plain
  deriving DecidableEq, Repr, Inhabited

def Form.ofArgument (argument : String) : Form :=
  match argument.toList with
  | ['-', '-'] => .separator
  | '-' :: '-' :: cs =>
    let name := String.ofList (cs.takeWhile (· ≠ '='))
    match cs.dropWhile (· ≠ '=') with
    | [] => .long name none
    | _ :: value => .long name (some (String.ofList value))
  | '-' :: c :: cs => .short (c :: cs)
  | _ => .plain

inductive Pending where
  | nothing
  | setting (setting : Setting) (value : Option String)
  | paths (paths : List String)
  deriving DecidableEq, Repr, Inhabited

namespace TransformArguments

def setFlag (arguments : TransformArguments) : Flag → Except Usage TransformArguments
  | .write => if arguments.write then .error .conflict else .ok { arguments with write := true }
  | .strict => if arguments.strict then .error .conflict else .ok { arguments with strict := true }
  | .verbose =>
    if arguments.verbose then .error .conflict else .ok { arguments with verbose := true }

def once {α : Type} (old : Option α) (arguments : TransformArguments) :
    Except Usage TransformArguments :=
  if old.isSome then .error .conflict else .ok arguments

def setValue (arguments : TransformArguments) (setting : Setting) (value : String) :
    Except Usage TransformArguments :=
  match setting with
  | .locale => once arguments.locale { arguments with locale := some value }
  | .fallback => once arguments.fallback { arguments with fallback := some value }
  | .outDirectory => do
    let arguments ← once arguments.outDirectory { arguments with outDirectory := some value }
    if value.isEmpty then .error .invalidValue else .ok arguments
  | .messagesRoot => do
    let arguments ← once arguments.messagesRoot { arguments with messagesRoot := some value }
    if value.isEmpty then .error .invalidValue else .ok arguments
  | .format => do
    let format := Project.Config.formatChoices.get? value
    let arguments ← once arguments.format { arguments with format := format }
    if format.isNone then .error .invalidValue else .ok arguments

def settle (arguments : TransformArguments) : Pending → Except Usage TransformArguments
  | .nothing => .ok arguments
  | .setting _ none => .error .invalidValue
  | .setting setting (some value) => arguments.setValue setting value
  | .paths paths =>
    if paths.any String.isEmpty then .error .invalidValue
    else .ok { arguments with paths := arguments.paths ++ paths }

def setLetters (arguments : TransformArguments) (pending : Pending) :
    List Char → Except Usage (TransformArguments × Pending)
  | [] => .ok (arguments, pending)
  | c :: cs =>
    if c = 'v' then do
      let arguments ← arguments.settle pending
      setLetters (← arguments.setFlag .verbose) .nothing cs
    else if c = 'h' then do
      let _ ← arguments.settle pending
      .error .help
    else .error .unknownArgument

def setLong (arguments : TransformArguments) (pending : Pending) (name : String)
    (value : Option String) : Except Usage (TransformArguments × Pending) :=
  match settingNames.get? name, flagNames.get? name with
  | some setting, _ => do
    let arguments ← arguments.settle pending
    match value with
    | none => .ok (arguments, .setting setting none)
    | some value => return (← arguments.setValue setting value, .nothing)
  | none, some flag =>
    match value with
    | some _ => .error .unexpectedValue
    | none => do
      let arguments ← arguments.settle pending
      return (← arguments.setFlag flag, .nothing)
  | none, none =>
    if name = "help" then
      match value with
      | some _ => .error .unexpectedValue
      | none => do
        let _ ← arguments.settle pending
        .error .help
    else .error .unknownArgument

def addPath (arguments : TransformArguments) (pending : Pending) (path : String) :
    Except Usage (TransformArguments × Pending) :=
  match pending with
  | .paths paths => .ok (arguments, .paths (paths ++ [path]))
  | pending => return (← arguments.settle pending, .paths [path])

def take (arguments : TransformArguments) (pending : Pending) (argument : String) :
    Except Usage (TransformArguments × Pending) :=
  match Form.ofArgument argument with
  | .long name value => arguments.setLong pending name value
  | .short letters => arguments.setLetters pending letters
  | _ =>
    match pending with
    | .setting setting none => .ok (arguments, .setting setting (some argument))
    | pending => arguments.addPath pending argument

def takeAll (arguments : TransformArguments) (pending : Pending) (onlyPaths : Bool) :
    List String → Except Usage TransformArguments
  | [] => arguments.settle pending
  | argument :: rest =>
    if onlyPaths then do
      let (arguments, pending) ← arguments.addPath pending argument
      takeAll arguments pending true rest
    else if Form.ofArgument argument = .separator then takeAll arguments pending true rest
    else do
      let (arguments, pending) ← arguments.take pending argument
      takeAll arguments pending false rest

/-- The arguments behind `transform`. Files are written either in place or to a directory. -/
def parse (arguments : List String) : Except Usage TransformArguments := do
  let arguments ← takeAll empty .nothing false arguments
  if arguments.write && arguments.outDirectory.isSome then .error .conflict else .ok arguments

end TransformArguments

/-- Letters that ask for help, and for the version where there is one. -/
def parseLetters (hasVersion : Bool) : List Char → Usage
  | 'h' :: _ => .help
  | 'V' :: _ => if hasVersion then .version else .unknownArgument
  | _ => .unknownArgument

/-- A long option that asks for help, or for the version where there is one. -/
def parseLong (hasVersion : Bool) (name : String) (value : Option String) : Usage :=
  let known (usage : Usage) : Usage := if value.isSome then .unexpectedValue else usage
  if name = "help" then known .help
  else if name = "version" && hasVersion then known .version
  else .unknownArgument

def commandNames : List String := ["transform", "init", "help"]

def parseInit : List String → Except Usage Request
  | [] => .ok .init
  | argument :: rest =>
    match Form.ofArgument argument with
    | .separator => if rest.isEmpty then .ok .init else .error .unknownArgument
    | .long name value => .error (parseLong false name value)
    | .short letters => .error (parseLetters false letters)
    | .plain => .error .unknownArgument

def parseHelp : List String → Usage
  | [] => .help
  | [command] => if commandNames.contains command then .help else .unknownCommand
  | _ => .unknownCommand

def parseSeparated : List String → Except Usage Request
  | [] => .ok .overview
  | argument :: _ =>
    .error (if commandNames.contains argument then .unknownArgument else .unknownCommand)

/-- All arguments. -/
def Request.parse : List String → Except Usage Request
  | [] => .ok .overview
  | argument :: rest =>
    if argument = "transform" then (TransformArguments.parse rest).map .transform
    else if argument = "init" then parseInit rest
    else if argument = "help" then .error (parseHelp rest)
    else
      match Form.ofArgument argument with
      | .separator => parseSeparated rest
      | .long name value => .error (parseLong true name value)
      | .short letters => .error (parseLetters true letters)
      | .plain => .error .unknownCommand

end TemplateMessages.Command
