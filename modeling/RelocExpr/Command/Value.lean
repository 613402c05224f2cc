import RelocExpr.Report
import RelocExpr.Session

/-!
# Values on the command line

The value of a definition or of the location is an expression, which a segment
may follow after a colon.  The segment replaces the one that the expression
itself lies in.
-/

namespace RelocExpr.Command

/-- Why a command has no result. -/
inductive Failure where
  /-- What the user is told. -/
  | message (text : String)
  | defect (defect : Defect)
  deriving DecidableEq, Repr

/-- Say what was being done instead of what went wrong. -/
def Failure.inContext (message : String) : Failure → Failure
  | .message _ => .message message
  | .defect cause => .defect cause

/-- The report of an error in an expression. -/
def Failure.ofError (colored : Bool) (text : String) (error : ExpressionError) :
    Failure :=
  match Report.render text error colored with
  | .ok report => .message report
  | .error cause => .defect cause

/-- The report of an error in an expression, unless there is a defect. -/
def Failure.ofFault (colored : Bool) (text : String) : Fault → Failure
  | .error cause => .ofError colored text cause
  | .defect cause => .defect cause

/-- What an evaluation comes to, in words. -/
def describeEvaluation : Evaluation → String
  | .resolved address =>
      address.text ++ " (" ++ toString address.value.toNat ++ ")"
  | .undecided => "not yet resolvable"
  | .deferred => "deferred: relocatable byte expression"
  | .external => "contains external references"

/-- Split a text at the last colon. -/
def splitLastColon? (text : List Char) : Option (List Char × List Char) :=
  let reversed := text.reverse
  match reversed.dropWhile (· ≠ ':') with
  | [] => none
  | _ :: before =>
      some (before.reverse, (reversed.takeWhile (· ≠ ':')).reverse)

/-- The segment that is written as a tag, in letters of either case. -/
def segmentOfTag? (tag : List Char) : Option Segment :=
  let name := (Text.trim Text.isWhite tag).map Char.toLower
  if name = "absolute".toList || name = "abs".toList then some .absolute
  else if name = "code".toList then some .code
  else if name = "data".toList then some .data
  else
    let mark := "common=".toList
    let block := name.drop mark.length
    if mark.isPrefixOf name && !block.isEmpty then
      some (.common (Text.upper (.ofList block)))
    else none

/-- The expression of a value and its segment.  A colon with nothing before it
marks a root symbol, and not a segment. -/
def splitSegment (text : String) : Except Failure (String × Option Segment) :=
  match splitLastColon? text.toList with
  | none => .ok (text, none)
  | some (value, tag) =>
      if value.all Text.isWhite then .ok (text, none)
      else
        match segmentOfTag? tag with
        | some segment => .ok (.ofList value, some segment)
        | none =>
            .error (.message
              ("unknown segment '" ++ String.ofList tag ++
                "': expected code, data, absolute or common=BLOCK"))

/-- The address that a value stands for. -/
def readAddress (colored : Bool) (session : Session) (text : String) :
    Except Failure Address × Session :=
  match splitSegment text with
  | .error failure => (.error failure, session)
  | .ok (text, segment?) =>
      match session.run.parse session.table.location text false false with
      | (.error error, run) =>
          (.error (.ofError colored text error), { session with run })
      | (.ok expression, run) =>
          let (outcome, table) := expression.evaluate .strict session.table
          let session := { session with run, table }
          match outcome with
          | .error fault => (.error (.ofFault colored text fault), session)
          | .ok (.resolved address) =>
              (.ok { address with segment := segment?.getD address.segment },
                session)
          | .ok outcome =>
              (.error (.message
                ("'" ++ text ++ "' has no value: " ++ describeEvaluation outcome)),
                session)

end RelocExpr.Command
