import RelocExpr.Command.Arguments
import RelocExpr.Command.Value
import RelocExpr.Settings.Reader

/-!
# The command line

A command sets up a session as its options say and then does one thing with one
expression.  What it prints and how it ends depends only on its arguments, on the
file with the settings and on the environment.
-/

namespace RelocExpr.Command

/-- What a command sees of the world around it. -/
structure Environment where
  /-- The text of a file, if it can be read. -/
  file? : String → Option String := fun _ => none
  setting? : String → Option String := fun _ => none
  /-- Errors are shown on a terminal. -/
  terminal : Bool := false

/-- Reports are in color, unless a variable says otherwise. -/
def Environment.colored (environment : Environment) : Bool :=
  if (environment.setting? "NO_COLOR").isSome then false
  else
    match environment.setting? "CLICOLOR_FORCE" with
    | some choice => choice ≠ "0"
    | none =>
        environment.setting? "CLICOLOR" ≠ some "0" && environment.terminal

/-- How a command ends. -/
inductive Outcome where
  /-- It prints its result. -/
  | success (output : String)
  /-- It says why there is no result. -/
  | failure (message : String)
  /-- Its arguments can not be understood. -/
  | misuse
  | defect (defect : Defect)
  deriving DecidableEq, Repr

namespace Outcome

/-- The exit code. -/
def code : Outcome → UInt8
  | .success _ => 0
  | .failure _ => 1
  | .misuse => 2
  | .defect _ => 101

/-- What is printed as the result. -/
def output : Outcome → String
  | .success text => text
  | _ => ""

/-- What is printed as an error. -/
def errors : Outcome → String
  | .success _ => ""
  | .failure text => text ++ "\n"
  | .misuse => "usage: zexpr [COMMAND]\n"
  | .defect cause => cause.message ++ "\n"

/-- The failure of a command as its end. -/
def ofFailure : Failure → Outcome
  | .message text => .failure text
  | .defect cause => .defect cause

end Outcome

/-! ## Setting up a session -/

/-- The settings of the file, if there is one, with the options over them. -/
def readSettings (environment : Environment) (options : Options) :
    Except SettingsError Settings := do
  let settings ←
    match options.configPath? with
    | none => pure {}
    | some path =>
        match environment.file? path with
        | none => throw (.unreadable path)
        | some text => Settings.ofText text
  let radix ←
    match options.radix? with
    | none => pure settings.radix
    | some base => Radix.ofNat base
  return {
    radix
    charset := options.charset?.getD settings.charset
    escapes := settings.escapes || options.escapes }

/-- Define a symbol as an option says, with an equals sign between its name and
its value. -/
def define (colored : Bool) (session : Session) (definition : String) :
    Except Failure Session :=
  let text := definition.toList
  match text.dropWhile (· ≠ '=') with
  | [] =>
      .error (.message
        ("invalid definition '" ++ definition ++ "': expected NAME=VALUE"))
  | _ :: value =>
      let name := text.takeWhile (· ≠ '=')
      match readAddress colored session (.ofList value) with
      | (.error failure, _) =>
          .error (failure.inContext
            ("invalid value for symbol '" ++ String.ofList name ++ "'"))
      | (.ok address, session) =>
          let name := String.ofList (Text.trim Text.isWhite name)
          .ok { session with table := session.table.define name address }

/-- Set the location as an option says. -/
def setLocation (colored : Bool) (session : Session) (text : String) :
    Except Failure Session :=
  match readAddress colored session text with
  | (.error failure, _) =>
      .error (failure.inContext ("invalid location '" ++ text ++ "'"))
  | (.ok address, session) =>
      .ok { session with table := session.table.setLocation address }

/-- The session that the options describe. -/
def openSession (environment : Environment) (options : Options) :
    Except Failure Session := do
  let colored := environment.colored
  let settings ←
    (readSettings environment options).mapError fun error =>
      Failure.message error.message
  let table := SymbolTable.setModule {} options.moduleName?
  let table := options.externals.foldl SymbolTable.declareExternal table
  let session : Session := { run := { settings }, table }
  let session ←
    match options.location? with
    | none => pure session
    | some text => setLocation colored session text
  options.definitions.foldlM (define colored) session

/-! ## Actions -/

/-- The lines of an output. -/
private def unlines (lines : List String) : String :=
  .join (lines.map (· ++ "\n"))

/-- Do something with the expression of the options. -/
def perform (environment : Environment) (action : Action) (options : Options) :
    Except Failure String := do
  let colored := environment.colored
  let session ← openSession environment options
  let text := options.expression?.getD ""
  let expression ←
    (session.run.parse session.table.location text options.data
      options.isByte).1.mapError (Failure.ofError colored text)
  match action, expression.bytes? with
  | .order, _ => return unlines [expression.text]
  | .evaluate, some bytes =>
      let shown := bytes.map fun byte => Text.hexByte byte ++ "h"
      return unlines ["BYTES " ++ " ".intercalate shown]
  | .evaluate, none =>
      let mode := options.mode?.getD .strict
      let evaluation ←
        (expression.evaluate mode session.table).1.mapError
          (Failure.ofFault colored text)
      return unlines [describeEvaluation evaluation]
  | .link, some _ =>
      throw (.message
        ("'" ++ text ++ "' is a string of more than two bytes and has no link items"))
  | .link, none =>
      let items ←
        (expression.linkItems session.table).1.mapError
          (Failure.ofFault colored text)
      return unlines (items.map LinkItem.text)

/-! ## Pages -/

/-- The version of the program. -/
def versionPage : String := "zexpr 0.3.0\n"

/-- What the program is. -/
def banner : List String :=
  ["ZEXPR, version 0.3.0.",
   "Expression evaluator of the Z80/Z280 relocating macro assembler.",
   "License: 0BSD - free to use, copy, modify, and distribute.",
   "Provided AS IS, without warranty or liability."]

/-- How the program is used. -/
def helpLines : List String :=
  ["Expression evaluator of the Z80/Z280 relocating assembler",
   "",
   "Usage: zexpr [COMMAND]",
   "",
   "Commands:",
   "  eval     Evaluate an expression and print the outcome",
   "  postfix  Print the postfix form of an expression",
   "  link     Print the extended link items of an expression",
   "  help     Print this message or the help of the given subcommand(s)",
   "",
   "Options:",
   "  -h, --help     Print help",
   "  -V, --version  Print version",
   "",
   "Examples:",
   "  zexpr eval \"3 + 4 * 5\"",
   "  zexpr eval -D START=100h:code \"HIGH (START + 2)\"",
   "  zexpr postfix \"-(-3-4 MOD 5)\"",
   "  zexpr link -x PRINT --byte \"LOW PRINT\"",
   "  zexpr --help"]

/-- Run the command of some arguments. -/
def run (environment : Environment) (arguments : List String) : Outcome :=
  match Request.ofArguments? arguments with
  | none => .misuse
  | some .welcome => .success (unlines (banner ++ [""] ++ helpLines ++ [""]))
  | some .help => .success (unlines helpLines)
  | some .version => .success versionPage
  | some (.run action options) =>
      match perform environment action options with
      | .ok output => .success output
      | .error failure => .ofFailure failure

end RelocExpr.Command
