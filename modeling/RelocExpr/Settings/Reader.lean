import RelocExpr.Settings
import RelocExpr.Text.Numeral

/-!
# Settings texts

A settings text is one record: fields with their values between parentheses,
which the name of the record may precede.  Blanks, line ends and comments may
stand between all tokens; comments between `/*` and `*/` nest.  Every field is
optional and may be given once.  Whether the radix can be used is decided only
when the whole text has been read.
-/

namespace RelocExpr.Settings.Reader

/-! ## Tokens -/

/-- Where skipped text stands. -/
inductive Gap where
  | between
  /-- In a comment that ends with the line. -/
  | lineComment
  /-- In nested comments, one more than the number. -/
  | blockComment (outer : Nat)
  deriving DecidableEq, Repr

/-- Skip blanks, line ends and comments.  A comment between `/*` and `*/` has to
end. -/
def skipGap : Gap → List Char → Option (List Char)
  | .between, '/' :: '/' :: rest => skipGap .lineComment rest
  | .between, '/' :: '*' :: rest => skipGap (.blockComment 0) rest
  | .between, character :: rest =>
      if character ∈ [' ', '\t', '\n', '\r'] then skipGap .between rest
      else some (character :: rest)
  | .between, [] => some []
  | .lineComment, character :: rest =>
      skipGap (if character = '\n' then .between else .lineComment) rest
  | .lineComment, [] => some []
  | .blockComment outer, '/' :: '*' :: rest =>
      skipGap (.blockComment (outer + 1)) rest
  | .blockComment outer, '*' :: '/' :: rest =>
      skipGap (match outer with
        | 0 => .between
        | outer + 1 => .blockComment outer) rest
  | .blockComment outer, _ :: rest => skipGap (.blockComment outer) rest
  | .blockComment _, [] => none

/-- Skip a gap and then one character. -/
def expect (character : Char) (text : List Char) : Option (List Char) :=
  match skipGap .between text with
  | some (first :: rest) => if first = character then some rest else none
  | _ => none

/-- A name may have the character. -/
def isNameCharacter (character : Char) : Bool :=
  character.isAlphanum || character = '_'

/-- Skip a gap and read a name, which may be empty. -/
def readName (text : List Char) : Option (String × List Char) :=
  (skipGap .between text).map fun rest =>
    (.ofList (rest.takeWhile isNameCharacter), rest.dropWhile isNameCharacter)

/-- The base that the mark in front of a number names, and its digits. -/
def splitBase : List Char → Nat × List Char
  | '0' :: 'x' :: digits => (16, digits)
  | '0' :: 'o' :: digits => (8, digits)
  | '0' :: 'b' :: digits => (2, digits)
  | digits => (10, digits)

/-- A digit of any base, or a mark between digits. -/
def isNumberCharacter (character : Char) : Bool :=
  (Text.digitValue? 16 character).isSome || character = '_'

/-- The number that digits of a base spell, without the marks between them. -/
def numberOfDigits? (base : Nat) (digits : List Char) : Option Nat :=
  let append (value : Nat) (digit : Char) : Option Nat :=
    (Text.digitValue? base digit).map (value * base + ·)
  (digits.filter (· ≠ '_')).foldlM append 0

/-- Skip a gap and read a number of thirty-two bits. -/
def readNumber (text : List Char) : Option (Nat × List Char) :=
  match skipGap .between text with
  | none => none
  | some rest =>
      let (base, digits) := splitBase rest
      let spelled := digits.takeWhile isNumberCharacter
      if spelled.isEmpty || spelled.head? = some '_' then none
      else
        match numberOfDigits? base spelled with
        | some value =>
            if value < 0x100000000 then
              some (value, digits.dropWhile isNumberCharacter)
            else none
        | none => none

/-! ## The record -/

/-- The fields that have been given so far. -/
structure Fields where
  radix? : Option Nat := none
  charset? : Option Charset := none
  escapes? : Option Bool := none
  deriving DecidableEq, Repr

/-- Read the value of a field that has not been given yet. -/
def readValue (fields : Fields) (name : String) (text : List Char) :
    Option (Fields × List Char) :=
  match name with
  | "default_radix" =>
      match fields.radix?, readNumber text with
      | none, some (base, rest) => some ({ fields with radix? := some base }, rest)
      | _, _ => none
  | "encoding" =>
      match fields.charset?, readName text with
      | none, some ("Ascii", rest) =>
          some ({ fields with charset? := some .ascii }, rest)
      | none, some ("Latin1", rest) =>
          some ({ fields with charset? := some .latin1 }, rest)
      | none, some ("Utf8", rest) =>
          some ({ fields with charset? := some .utf8 }, rest)
      | _, _ => none
  | "escapes_enabled" =>
      match fields.escapes?, readName text with
      | none, some ("true", rest) =>
          some ({ fields with escapes? := some true }, rest)
      | none, some ("false", rest) =>
          some ({ fields with escapes? := some false }, rest)
      | _, _ => none
  | _ => none

/-- Read one field with its value. -/
def readField (fields : Fields) (text : List Char) :
    Option (Fields × List Char) :=
  match readName text with
  | none => none
  | some (name, rest) => (expect ':' rest).bind (readValue fields name)

/-- Read fields with commas between them up to the closing parenthesis; a comma
may precede that too.  Since no field may be given twice, three of them and the
parenthesis are the most there is. -/
def readFields : (limit : Nat) → Fields → List Char → Option (Fields × List Char)
  | 0, _, _ => none
  | limit + 1, fields, text =>
      match expect ')' text with
      | some rest => some (fields, rest)
      | none =>
          match readField fields text with
          | none => none
          | some (fields, rest) =>
              match expect ',' rest with
              | some rest => readFields limit fields rest
              | none => (expect ')' rest).map (fields, ·)

/-- The fields of a whole settings text. -/
def readRecord (text : List Char) : Option Fields :=
  match readName text with
  | none => none
  | some (name, rest) =>
      if name = "" || name = "ExprConfig" then
        match (expect '(' rest).bind (readFields 4 {}) with
        | none => none
        | some (fields, rest) =>
            if skipGap .between rest = some [] then some fields else none
      else none

end Reader

/-- The settings that a text describes. -/
def ofText (text : String) : Except SettingsError Settings :=
  match Reader.readRecord text.toList with
  | none => .error .malformed
  | some fields =>
      match Radix.ofNat (fields.radix?.getD 10) with
      | .error error => .error error
      | .ok radix =>
          .ok { radix
                charset := fields.charset?.getD .ascii
                escapes := fields.escapes?.getD false }

end RelocExpr.Settings
