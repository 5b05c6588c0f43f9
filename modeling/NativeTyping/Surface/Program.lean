import NativeTyping.Surface.Lowering
/-!
Lowering statements, definitions and whole programs.
-/

namespace NativeTyping

namespace Surface

/-! ## Parameters

The parameter that takes the remaining positional arguments is a tuple, and the one that
takes the remaining keyword arguments a dict.
-/

namespace Parameter

def lower (param : Parameter) : Param where
  name := param.name
  hint := param.hint.map Expr.hintText
  default := param.default.map Expr.lower

def lowerVariadic (param : Parameter) : Param where
  name := param.name
  hint := some <| match param.hint with
    | some hint => "tuple[" ++ hint.hintText ++ ", ...]"
    | none => "tuple"
  default := none

def lowerKeywordVariadic (param : Parameter) : Param where
  name := param.name
  hint := some <| match param.hint with
    | some hint => "dict[str, " ++ hint.hintText ++ "]"
    | none => "dict"
  default := none

end Parameter

def Arguments.lower (args : Arguments) : List Param :=
  args.positionalOnly.map Parameter.lower ++ args.positional.map Parameter.lower ++
    args.variadic.toList.map Parameter.lowerVariadic ++
    args.keywordOnly.map Parameter.lower ++
    args.keywordVariadic.toList.map Parameter.lowerKeywordVariadic

/-! ## Parts of statements -/

def ImportedName.lower (imported : ImportedName) : ImportName where
  name := imported.name
  asName := imported.asName

def ContextItem.lower (item : ContextItem) : WithItem where
  context := item.context.lower
  target := item.target.bind Expr.lowerTarget?

/-- The exception that a handler is for; of several ones, the first. -/
def exceptionName? : Expr → Option String
  | .tuple items => items.head?.bind Expr.dottedName?
  | other => other.dottedName?

/-- An assignment, of which only the value is left if nothing can be stored to. -/
def lowerAssign (targets : List Expr) (value : Expr) : NativeTyping.Stmt :=
  match targets.filterMap Expr.lowerTarget? with
  | [] => .expr value.lower
  | lowered => .assign lowered value.lower

/-! ## Statements -/

mutual

def Stmt.lower : Stmt → NativeTyping.Stmt
  | .functionDef isAsync name args body decorators returns =>
      .functionDef {
        name := name
        params := args.lower
        returnHint := returns.map Expr.hintText
        body := Stmt.lowerEach body
        decorators := decorators.filterMap Expr.decoratorName?
        isAsync := isAsync }
  | .classDef name bases _ body decorators =>
      .classDef {
        name := name
        bases := bases.filterMap Expr.dottedName?
        decorators := decorators.filterMap Expr.decoratorName?
        body := Stmt.lowerEach body }
  | .ret value => .ret (value.map Expr.lower)
  | .delete targets => .delete (targets.map Expr.lower)
  | .assign targets value => lowerAssign targets value
  | .augAssign target op value =>
      match target.lowerTarget? with
      | some lowered => .augAssign lowered op value.lower
      | none => .expr value.lower
  | .annAssign target hint value =>
      match target.lowerTarget? with
      | some lowered => .annAssign lowered hint.hintText (value.map Expr.lower)
      | none => .pass
  | .forLoop target iter body orelse =>
      .forLoop (target.lowerTarget?.getD (.tuple [])) iter.lower (Stmt.lowerEach body)
        (Stmt.lowerEach orelse)
  | .whileLoop test body orelse =>
      .whileLoop test.lower (Stmt.lowerEach body) (Stmt.lowerEach orelse)
  | .ifElse test body orelse =>
      .ifElse test.lower (Stmt.lowerEach body) (Stmt.lowerEach orelse)
  | .withBlock items body => .withBlock (items.map ContextItem.lower) (Stmt.lowerEach body)
  | .raise exception _ => .raise (exception.map Expr.lower)
  | .tryExcept body handlers orelse finalbody =>
      .tryExcept (Stmt.lowerEach body) (lowerHandlers handlers) (Stmt.lowerEach orelse)
        (Stmt.lowerEach finalbody)
  | .assert test message => .assert test.lower (message.map Expr.lower)
  | .importModules names => .importModules (names.map ImportedName.lower)
  | .importFrom source names => .importFrom (source.getD "") (names.map ImportedName.lower)
  | .globals names => .globals names
  | .nonlocals names => .nonlocals names
  | .expr value => .expr value.lower
  | .breakLoop => .breakLoop
  | .continueLoop => .continueLoop
  | .matchSubject _ | .typeAlias _ _ | .pass => .pass
termination_by structural stmt => stmt

def Stmt.lowerEach : List Stmt → List NativeTyping.Stmt
  | [] => []
  | stmt :: rest => stmt.lower :: Stmt.lowerEach rest
termination_by structural stmts => stmts

def lowerHandlers : List Handler → List NativeTyping.Handler
  | [] => []
  | ⟨type, name, body⟩ :: rest =>
      ⟨type.bind exceptionName?, name, Stmt.lowerEach body⟩ :: lowerHandlers rest
termination_by structural handlers => handlers

end

def lower (suite : List Stmt) : Program where
  body := Stmt.lowerEach suite

end Surface

end NativeTyping
