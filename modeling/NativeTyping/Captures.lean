import NativeTyping.Program.Stmt
import NativeTyping.Table
import NativeTyping.Text.Dotted
/-!
Captures: the variables of enclosing functions that a nested function reads.

A name that no enclosing function binds is global or unresolved, and not a
capture. What a function nested deeper reads counts as read by the functions
around it, so that a function in the middle passes captures through.
-/

namespace NativeTyping

/-! ## Local names

A function binds its parameters and every name that a statement of its body binds,
outside other definitions.
-/

def ImportName.boundName (imported : ImportName) : String :=
  imported.asName.getD (Dotted.head imported.name)

def Stmt.boundNames : Stmt → List String
  | .assign targets _ => targets.flatMap Target.boundNames
  | .annAssign target _ _ | .augAssign target _ _ | .forLoop target _ _ _ => target.boundNames
  | .withBlock items _ =>
      items.flatMap fun item => item.target.toList.flatMap Target.boundNames
  | .tryExcept _ handlers _ _ => handlers.filterMap Handler.name
  | .functionDef definition => [definition.name]
  | .classDef definition => [definition.name]
  | .importModules names | .importFrom _ names => names.map ImportName.boundName
  | _ => []

def Stmt.nonlocalNames : Stmt → List String
  | .nonlocals names => names
  | _ => []

def localNamesOf (params : List Param) (body : Block) : NameSet :=
  NameSet.ofList (params.map Param.name ++ (Block.statements body).flatMap Stmt.boundNames)

def FunctionDef.localNames (definition : FunctionDef) : NameSet :=
  localNamesOf definition.params definition.body

/-! ## Names that are read -/

/-- The names that a statement reads by itself, outside its blocks and bodies.
Augmented assignment reads the name that it assigns. -/
def Stmt.ownReads (stmt : Stmt) : List String :=
  let updated := match stmt with
    | .augAssign (.place (.name id)) _ _ => [id]
    | _ => []
  stmt.expressions.flatMap Expr.reads ++ updated

/-- Of the names that a body reads, those that the function around it does not
bind itself, or declares to be of an enclosing function. -/
def freeAmong (params : List Param) (body : Block) (names : List String) : List String :=
  let bound := localNamesOf params body
  let declared := (Block.statements body).flatMap Stmt.nonlocalNames
  names.filter fun name => !bound.contains name || declared.contains name

mutual

def Stmt.reads : Stmt → List String
  | .ifElse condition body orelse =>
      Stmt.ownReads (.ifElse condition body orelse) ++ (Block.reads body ++ Block.reads orelse)
  | .whileLoop condition body orelse =>
      Stmt.ownReads (.whileLoop condition body orelse) ++
        (Block.reads body ++ Block.reads orelse)
  | .forLoop target iter body orelse =>
      Stmt.ownReads (.forLoop target iter body orelse) ++
        (Block.reads body ++ Block.reads orelse)
  | .tryExcept body handlers orelse finalbody =>
      Block.reads body ++ (handlerReads handlers ++ (Block.reads orelse ++ Block.reads finalbody))
  | .withBlock items body => Stmt.ownReads (.withBlock items body) ++ Block.reads body
  | .functionDef definition =>
      Stmt.ownReads (.functionDef definition) ++ definition.freeReads
  | .classDef ⟨_, bases, _, body⟩ => bases ++ methodReads body
  | plain => plain.ownReads
termination_by structural stmt => stmt

def Block.reads : List Stmt → List String
  | [] => []
  | stmt :: rest => stmt.reads ++ Block.reads rest
termination_by structural body => body

def handlerReads : List Handler → List String
  | [] => []
  | ⟨_, _, body⟩ :: rest => Block.reads body ++ handlerReads rest
termination_by structural handlers => handlers

def methodReads : List Stmt → List String
  | [] => []
  | .functionDef definition :: rest => definition.freeReads ++ methodReads rest
  | _ :: rest => methodReads rest
termination_by structural body => body

def FunctionDef.freeReads : FunctionDef → List String
  | ⟨_, params, _, body, _, _⟩ => freeAmong params body (Block.reads body)
termination_by structural definition => definition

end

def Block.usedNames (body : Block) : NameSet :=
  NameSet.ofList (Block.reads body)

def FunctionDef.freeNames (definition : FunctionDef) : NameSet :=
  NameSet.ofList definition.freeReads

/-! ## Capture sets -/

abbrev Captures := Table NameSet

/-- The captures of a function and of those nested in it, added to the ones found
so far. `enclosing` are the names that the functions around it bind; a function
that no binding function encloses has no entry. -/
def FunctionDef.captures (definition : FunctionDef) :
    String → NameSet → Captures → Captures :=
  definition.fold fun definition nested qualified enclosing found =>
    let own :=
      if enclosing.isEmpty then found
      else
        found.insert qualified
          (NameSet.ofList (definition.freeNames.names.filter enclosing.contains))
    let visible := enclosing.insertMany definition.localNames.names
    nested.foldl
      (fun found inner => inner.2 (Dotted.join qualified inner.1.name) visible found) own

def Program.rootFunctions (program : Program) : List (String × FunctionDef) :=
  program.body.flatMap fun
    | .functionDef definition => [(definition.name, definition)]
    | .classDef definition =>
        definition.methods.map fun method =>
          (Dotted.join definition.name method.name, method)
    | _ => []

def Program.captures (program : Program) : Captures :=
  program.rootFunctions.foldl
    (fun found root => root.2.captures root.1 ∅ found) ∅

end NativeTyping
