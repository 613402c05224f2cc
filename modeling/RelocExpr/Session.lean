import RelocExpr.AssemblyRun
import RelocExpr.LinkItem

/-!
# Sessions

A session is an assembly run, a symbol table and some expressions under names.
It goes on in steps, each of which has a reply.  An expression that was never
put under a name is the empty one.
-/

namespace RelocExpr

/-- A run, its symbols and its expressions. -/
structure Session where
  run : AssemblyRun := {}
  table : SymbolTable := {}
  slots : List (String × Expression) := []
  deriving DecidableEq, Repr, Inhabited

/-- Something that can be done in a session. -/
inductive Step where
  | define (name : String) (address : Address)
  | declareExternal (name : String)
  | setModule (name : Option String)
  | setLocation (address : Address)
  /-- Which name does a reference have in the table? -/
  | qualify (ref : SymbolRef)
  /-- What is known of a qualified name? -/
  | get (name : String)
  /-- Mention a symbol. -/
  | resolve (ref : SymbolRef)
  | listSymbols
  /-- Read a text and put it into postfix order, with the help of the cache. -/
  | parse (slot text : String) (data isByte : Bool)
  /-- Read a text and leave its parts in their order. -/
  | read (slot text : String) (data isByte : Bool)
  | empty (slot : String)
  | cacheStatistics
  | restart
  | setRadix (base : Nat)
  | recall (slot : String)
  /-- Put an expression into postfix order. -/
  | order (slot : String)
  | setSize (slot : String) (isByte : Bool)
  | symbolRefs (slot : String)
  | hasOperator (slot : String) (operator : Operator)
  | evaluate (slot : String) (mode : EvaluationMode)
  | link (slot : String)
  deriving DecidableEq, Repr

/-- What a step comes to. -/
inductive Reply where
  /-- Number of symbols of the table. -/
  | tableSize (count : Nat)
  | location (address : Address)
  | name (qualified : String)
  | lookup (value? : Option SymbolValue)
  | symbol (qualified : String) (value : SymbolValue)
  | symbols (entries : List (String × SymbolValue))
  | expression (expression : Expression)
  | unreadable (error : ExpressionError)
  | cacheStatistics (cache : ExpressionCache)
  | restarted (cache : ExpressionCache)
  | radix (radix : Radix)
  | badSettings (error : SettingsError)
  | ordered (outcome : Except ExpressionError Unit) (expression : Expression)
  | size (isByte : Bool)
  | symbolRefs (refs : List SymbolRef)
  | answer (holds : Bool)
  | evaluation (outcome : Except Fault Evaluation)
  | linkItems (outcome : Except Fault (List LinkItem))

namespace Session

/-- The expression under a name. -/
def slot (session : Session) (name : String) : Expression :=
  (session.slots.lookup name).getD .empty

/-- Put an expression under a name. -/
def setSlot (session : Session) (name : String) (expression : Expression) :
    Session :=
  { session with
    slots :=
      (name, expression) :: session.slots.filter fun entry => entry.1 ≠ name }

/-- The session with another table, and how many symbols that has. -/
private def withTable (session : Session) (table : SymbolTable) :
    Reply × Session :=
  (.tableSize table.entries.length, { session with table })

/-- The session with another expression under a name. -/
private def withSlot (session : Session) (name : String)
    (expression : Expression) : Reply × Session :=
  (.expression expression, session.setSlot name expression)

/-- Do one step. -/
def step (session : Session) : Step → Reply × Session
  | .define name address => session.withTable (session.table.define name address)
  | .declareExternal name => session.withTable (session.table.declareExternal name)
  | .setModule name => session.withTable (session.table.setModule name)
  | .setLocation address =>
      (.location address,
        { session with table := session.table.setLocation address })
  | .qualify ref => (.name (session.table.qualifiedName ref), session)
  | .get name => (.lookup (session.table.get? name), session)
  | .resolve ref =>
      let table := session.table.mention ref
      (.symbol (table.qualifiedName ref) (table.valueOf ref),
        { session with table })
  | .listSymbols => (.symbols session.table.entries, session)
  | .parse slot text data isByte =>
      match session.run.parse session.table.location text data isByte with
      | (.error error, run) => (.unreadable error, { session with run })
      | (.ok expression, run) => { session with run }.withSlot slot expression
  | .read slot text data isByte =>
      let reading := session.run.reading session.table.location data
      match Expression.read reading isByte text with
      | .error error => (.unreadable error, session)
      | .ok expression => session.withSlot slot expression
  | .empty slot => session.withSlot slot .empty
  | .cacheStatistics => (.cacheStatistics session.run.cache, session)
  | .restart =>
      let run := session.run.restart
      (.restarted run.cache, { session with run })
  | .setRadix base =>
      match session.run.setRadix base with
      | .error error => (.badSettings error, session)
      | .ok run => (.radix run.settings.radix, { session with run })
  | .recall slot => (.expression (session.slot slot), session)
  | .order slot =>
      let (outcome, expression) := (session.slot slot).toPostfix
      (.ordered outcome expression, session.setSlot slot expression)
  | .setSize slot isByte =>
      (.size isByte, session.setSlot slot ((session.slot slot).withSize isByte))
  | .symbolRefs slot => (.symbolRefs (session.slot slot).symbolRefs, session)
  | .hasOperator slot operator =>
      (.answer ((session.slot slot).hasOperator operator), session)
  | .evaluate slot mode =>
      let (outcome, table) := (session.slot slot).evaluate mode session.table
      (.evaluation outcome, { session with table })
  | .link slot =>
      let (outcome, table) := (session.slot slot).linkItems session.table
      (.linkItems outcome, { session with table })

/-- Do steps one after the other. -/
def steps (session : Session) : List Step → List Reply × Session
  | [] => ([], session)
  | first :: rest =>
      let (reply, session) := session.step first
      let (replies, session) := session.steps rest
      (reply :: replies, session)

end Session

end RelocExpr
