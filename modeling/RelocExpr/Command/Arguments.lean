import RelocExpr.Charset
import RelocExpr.Evaluation
import RelocExpr.Text

/-!
# Arguments of the command line

The first argument names a command, and the others are its options and one
expression.  An option has a long name, a short name or both; its value follows
it or is attached to it.

An expression may begin with a minus sign.  So while there is no expression yet,
an argument that begins like an option but has no option's name is not refused:
it is the value of the option before it, or else the expression.
-/

namespace RelocExpr.Command

/-- What is to be done with an expression. -/
inductive Action where
  | evaluate
  | order
  | link
  deriving DecidableEq, Repr

/-- The action of a command name. -/
def Action.ofName? : String → Option Action
  | "eval" => some .evaluate
  | "postfix" => some .order
  | "link" => some .link
  | _ => none

/-- Options that have a value. -/
inductive ValuedOption where
  | config
  | radix
  | charset
  | define
  | external
  | location
  | moduleName
  | mode
  deriving DecidableEq, Repr

/-- Options without a value. -/
inductive Flag where
  | escapes
  | data
  | byte
  | help
  deriving DecidableEq, Repr

namespace ValuedOption

def all : List ValuedOption :=
  [.config, .radix, .charset, .define, .external, .location, .moduleName, .mode]

def longName : ValuedOption → String
  | .config => "config"
  | .radix => "radix"
  | .charset => "encoding"
  | .define => "define"
  | .external => "external"
  | .location => "location"
  | .moduleName => "module"
  | .mode => "mode"

def shortName? : ValuedOption → Option Char
  | .config => some 'c'
  | .radix => some 'r'
  | .charset => some 'e'
  | .define => some 'D'
  | .external => some 'x'
  | .location => some 'l'
  | .moduleName => none
  | .mode => some 'm'

/-- Only an evaluation has a mode. -/
def isOf (option : ValuedOption) (action : Action) : Bool :=
  option ≠ .mode || action = .evaluate

/-- The option of a long name. -/
def ofLong? (action : Action) (name : String) : Option ValuedOption :=
  all.find? fun option => option.isOf action && option.longName = name

/-- The option of a short name. -/
def ofShort? (action : Action) (name : Char) : Option ValuedOption :=
  all.find? fun option => option.isOf action && option.shortName? = some name

end ValuedOption

/-- The flag of a long name. -/
def Flag.ofLong? : String → Option Flag
  | "escapes" => some .escapes
  | "defb" => some .data
  | "byte" => some .byte
  | "help" => some .help
  | _ => none

/-- What an argument is by itself. -/
inductive Argument where
  /-- The expression, or the value of an option. -/
  | value (text : String)
  | option (option : ValuedOption) (attached? : Option String)
  | flag (flag : Flag)
  /-- Only expressions follow. -/
  | separator
  | unknown
  deriving DecidableEq, Repr

/-- The short name is known to the action; `h` asks for help. -/
def isShortName (action : Action) (name : Char) : Bool :=
  name = 'h' || (ValuedOption.ofShort? action name).isSome

/-- An argument after two minus signs. -/
def Argument.ofLong (action : Action) (textMissing : Bool) (body : List Char) :
    Argument :=
  let name := String.ofList (body.takeWhile (· ≠ '='))
  let attached? :=
    match body.dropWhile (· ≠ '=') with
    | [] => none
    | _ :: text => some (String.ofList text)
  match ValuedOption.ofLong? action name, Flag.ofLong? name with
  | some found, _ => .option found attached?
  | none, some found => if attached?.isNone then .flag found else .unknown
  | none, none =>
      if textMissing then .value (.ofList ('-' :: '-' :: body)) else .unknown

/-- An argument after one minus sign. -/
def Argument.ofShort (action : Action) (textMissing : Bool) (name : Char)
    (rest : List Char) : Argument :=
  if textMissing && !(name :: rest).all (isShortName action) then
    .value (.ofList ('-' :: name :: rest))
  else if name = 'h' then .flag .help
  else
    match ValuedOption.ofShort? action name with
    | none => .unknown
    | some found =>
        .option found <|
          match rest with
          | [] => none
          | '=' :: text => some (.ofList text)
          | text => some (.ofList text)

/-- What an argument is, while there is no expression yet or after that. -/
def Argument.classify (action : Action) (textMissing : Bool) (text : String) :
    Argument :=
  match text.toList with
  | ['-', '-'] => .separator
  | '-' :: '-' :: body => .ofLong action textMissing body
  | '-' :: name :: rest => .ofShort action textMissing name rest
  | _ => .value text

/-- The options that are given, and the expression. -/
structure Options where
  expression? : Option String := none
  configPath? : Option String := none
  radix? : Option Nat := none
  charset? : Option Charset := none
  escapes : Bool := false
  definitions : List String := []
  externals : List String := []
  location? : Option String := none
  moduleName? : Option String := none
  mode? : Option EvaluationMode := none
  data : Bool := false
  isByte : Bool := false
  deriving DecidableEq, Repr, Inhabited

/-- A number of thirty-two bits in decimal digits, which a plus sign may
precede. -/
def decimal? (text : String) : Option Nat :=
  let digits :=
    match text.toList with
    | '+' :: digits => digits
    | digits => digits
  if digits.isEmpty || !digits.all Char.isDigit then none
  else
    let value :=
      digits.foldl (fun value digit => value * 10 + (digit.toNat - '0'.toNat)) 0
    if value < 0x100000000 then some value else none

/-- The mode of a name. -/
def modeOfName? : String → Option EvaluationMode
  | "strict" => some .strict
  | "try" => some .bestEffort
  | "lookahead" => some .lookahead
  | _ => none

namespace Options

/-- Give an option its value.  Only definitions and external symbols may be
given more than once. -/
def setValue (options : Options) (option : ValuedOption) (value : String) :
    Option Options :=
  match option with
  | .config =>
      if options.configPath?.isSome || value.isEmpty then none
      else some { options with configPath? := some value }
  | .radix =>
      match options.radix?, decimal? value with
      | none, some radix => some { options with radix? := some radix }
      | _, _ => none
  | .charset =>
      match options.charset?, Charset.ofName? value with
      | none, some charset => some { options with charset? := some charset }
      | _, _ => none
  | .define =>
      some { options with definitions := options.definitions ++ [value] }
  | .external => some { options with externals := options.externals ++ [value] }
  | .location =>
      if options.location?.isSome then none
      else some { options with location? := some value }
  | .moduleName =>
      if options.moduleName?.isSome then none
      else some { options with moduleName? := some value }
  | .mode =>
      match options.mode?, modeOfName? value with
      | none, some mode => some { options with mode? := some mode }
      | _, _ => none

/-- Raise a flag, which may be done once. -/
def setFlag (options : Options) : Flag → Option Options
  | .escapes =>
      if options.escapes then none else some { options with escapes := true }
  | .data => if options.data then none else some { options with data := true }
  | .byte =>
      if options.isByte then none else some { options with isByte := true }
  | .help => none

/-- There is one expression. -/
def setExpression (options : Options) (text : String) : Option Options :=
  if options.expression?.isSome then none
  else some { options with expression? := some text }

end Options

/-- What a command line asks for. -/
inductive Request where
  /-- Nothing, which is answered with a short introduction. -/
  | welcome
  | help
  | version
  | run (action : Action) (options : Options)
  deriving DecidableEq, Repr

/-- Read the arguments of an action, with the option that still has no value.
Nothing is asked for when the arguments can not be understood. -/
def readOptions (action : Action) :
    Options → (awaiting : Option ValuedOption) → List String → Option Request
  | options, none, [] =>
      if options.expression?.isSome then some (.run action options) else none
  | _, some _, [] => none
  | options, some option, text :: rest =>
      match Argument.classify action options.expression?.isNone text with
      | .value value =>
          match options.setValue option value with
          | some options => readOptions action options none rest
          | none => none
      | _ => none
  | options, none, text :: rest =>
      match Argument.classify action options.expression?.isNone text with
      | .value value =>
          match options.setExpression value with
          | some options => readOptions action options none rest
          | none => none
      | .option option none => readOptions action options (some option) rest
      | .option option (some value) =>
          match options.setValue option value with
          | some options => readOptions action options none rest
          | none => none
      | .flag .help => some .help
      | .flag flag =>
          match options.setFlag flag with
          | some options => readOptions action options none rest
          | none => none
      | .separator =>
          match rest.foldlM Options.setExpression options with
          | some options =>
              if options.expression?.isSome then some (.run action options)
              else none
          | none => none
      | .unknown => none

/-- What a command line asks for, or nothing when it can not be understood. -/
def Request.ofArguments? : List String → Option Request
  | [] => some .welcome
  | first :: rest =>
      match Action.ofName? first with
      | some action => readOptions action {} none rest
      | none =>
          match first.toList with
          | '-' :: 'V' :: _ => some .version
          | '-' :: 'h' :: _ => some .help
          | _ =>
              if first = "--version" then some .version
              else if first = "--help" then some .help
              else if first = "help" then
                match rest with
                | [] => some .help
                | [name] =>
                    if name = "help" || (Action.ofName? name).isSome then some .help
                    else none
                | _ => none
              else none

end RelocExpr.Command
