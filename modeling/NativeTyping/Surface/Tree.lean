import NativeTyping.Program.Expr
/-!
The syntax tree of a source program, as a parser delivers it. It has every form
of expression and statement that a program can be written in; the analyses work on
the smaller tree that it is lowered to.
-/

namespace NativeTyping

namespace Surface

inductive Constant where
  | none
  | ellipsis
  | bool (value : Bool)
  | str (text : String)
  | bytes (content : List UInt8)
  | int (value : Int)
  | float (bits : UInt64)
  | complex (real imag : UInt64)
  | tuple (items : List Constant)

/-! ## Expressions -/

mutual

inductive Expr where
  | connective (op : Connective) (values : List Expr)
  | named (target value : Expr)
  | binary (left : Expr) (op : BinaryOp) (right : Expr)
  | unary (op : UnaryOp) (operand : Expr)
  | lambda (args : Arguments) (body : Expr)
  | conditional (test body orelse : Expr)
  | dict (keys : List (Option Expr)) (values : List Expr)
  | set (items : List Expr)
  | comprehension (kind : ComprehensionKind) (element : Expr) (generators : List Generator)
  | dictComprehension (key value : Expr) (generators : List Generator)
  | await (value : Expr)
  | yield (value : Option Expr)
  | yieldFrom (value : Expr)
  | compare (left : Expr) (ops : List Comparison) (comparators : List Expr)
  | call (function : Expr) (args : List Expr) (keywords : List Keyword)
  | formattedValue (value : Expr) (format : Option Expr)
  | joined (values : List Expr)
  | constant (value : Constant)
  | attribute (value : Expr) (attr : String)
  | subscript (value slice : Expr)
  | starred (value : Expr)
  | name (id : String)
  | list (items : List Expr)
  | tuple (items : List Expr)
  | slice (lower upper step : Option Expr)

structure Generator where
  target : Expr
  iter : Expr
  conditions : List Expr

/-- A keyword argument; without a name it unpacks a mapping. -/
structure Keyword where
  name : Option String
  value : Expr

structure Parameter where
  name : String
  hint : Option Expr
  default : Option Expr

structure Arguments where
  positionalOnly : List Parameter
  positional : List Parameter
  variadic : Option Parameter
  keywordOnly : List Parameter
  keywordVariadic : Option Parameter

end

/-! ## Statements -/

structure ImportedName where
  name : String
  asName : Option String

structure ContextItem where
  context : Expr
  target : Option Expr

mutual

inductive Stmt where
  | functionDef (isAsync : Bool) (name : String) (args : Arguments) (body : List Stmt)
      (decorators : List Expr) (returns : Option Expr)
  | classDef (name : String) (bases : List Expr) (keywords : List Keyword) (body : List Stmt)
      (decorators : List Expr)
  | ret (value : Option Expr)
  | delete (targets : List Expr)
  | assign (targets : List Expr) (value : Expr)
  | augAssign (target : Expr) (op : BinaryOp) (value : Expr)
  | annAssign (target hint : Expr) (value : Option Expr)
  | forLoop (target iter : Expr) (body orelse : List Stmt)
  | whileLoop (test : Expr) (body orelse : List Stmt)
  | ifElse (test : Expr) (body orelse : List Stmt)
  | withBlock (items : List ContextItem) (body : List Stmt)
  | matchSubject (subject : Expr)
  | raise (exception cause : Option Expr)
  | tryExcept (body : List Stmt) (handlers : List Handler) (orelse finalbody : List Stmt)
  | assert (test : Expr) (message : Option Expr)
  | importModules (names : List ImportedName)
  | importFrom (source : Option String) (names : List ImportedName)
  | globals (names : List String)
  | nonlocals (names : List String)
  | expr (value : Expr)
  | typeAlias (name value : Expr)
  | pass
  | breakLoop
  | continueLoop

structure Handler where
  type : Option Expr
  name : Option String
  body : List Stmt

end

end Surface

end NativeTyping
