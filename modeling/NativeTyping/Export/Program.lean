import NativeTyping.Export.Document
import NativeTyping.Program.Stmt
/-!
The documents that hand programs to other tools. An operator is its name, and any
other part of a program an object with the name of its form for key.
-/

namespace NativeTyping

/-! ## Operators and constants -/

namespace BinaryOp

def all : List BinaryOp :=
  [.add, .sub, .mul, .div, .floorDiv, .mod, .pow, .matMul, .leftShift, .rightShift, .bitAnd,
   .bitOr, .bitXor]

def title : BinaryOp → String
  | .add => "Add"
  | .sub => "Sub"
  | .mul => "Mul"
  | .div => "Div"
  | .floorDiv => "FloorDiv"
  | .mod => "Mod"
  | .pow => "Pow"
  | .matMul => "MatMul"
  | .leftShift => "LShift"
  | .rightShift => "RShift"
  | .bitAnd => "BitAnd"
  | .bitOr => "BitOr"
  | .bitXor => "BitXor"

end BinaryOp

namespace UnaryOp

def all : List UnaryOp :=
  [.not, .neg, .pos, .bitNot]

def title : UnaryOp → String
  | .not => "Not"
  | .neg => "Neg"
  | .pos => "Pos"
  | .bitNot => "BitNot"

end UnaryOp

namespace Comparison

def all : List Comparison :=
  [.eq, .notEq, .less, .lessEq, .greater, .greaterEq, .is, .isNot, .mem, .notMem]

def title : Comparison → String
  | .eq => "Eq"
  | .notEq => "NotEq"
  | .less => "Lt"
  | .lessEq => "LtEq"
  | .greater => "Gt"
  | .greaterEq => "GtEq"
  | .is => "Is"
  | .isNot => "IsNot"
  | .mem => "In"
  | .notMem => "NotIn"

end Comparison

namespace Connective

def all : List Connective :=
  [.and, .or]

def title : Connective → String
  | .and => "And"
  | .or => "Or"

end Connective

def ComprehensionKind.title : ComprehensionKind → String
  | .list => "ListComp"
  | .set => "SetComp"
  | .generator => "GeneratorExp"

namespace Literal

def bitDigits (bits : UInt64) : String :=
  String.ofList ((List.range 16).map fun position =>
    Document.hexDigit (bits.toNat / Nat.pow 16 (15 - position) % 16))

def isFinite (bits : UInt64) : Bool :=
  bits.toNat / Nat.pow 2 52 % Nat.pow 2 11 ≠ Nat.pow 2 11 - 1

/-- A float is written as its bits; one that is not finite is left out. -/
def document : Literal → Document
  | .int value => .tagged "Int" (.number value)
  | .bigInt digits => .tagged "BigInt" (.text digits)
  | .float bits => .tagged "Float" (if isFinite bits then .text (bitDigits bits) else .null)
  | .str content => .tagged "String" (.text content)
  | .bytes content => .tagged "Bytes" (.list (content.map fun byte => .number byte.toNat))
  | .bool value => .tagged "Bool" (.bool value)
  | .none => .text "None"

end Literal

/-! ## Expressions and targets -/

mutual

def Expr.document : Expr → Document
  | .literal value => .tagged "Literal" value.document
  | .name id => .tagged "Var" (.text id)
  | .binary op left right =>
      .tagged "Binary" (.object
        [("op", .text op.title), ("left", left.document), ("right", right.document)])
  | .unary op operand =>
      .tagged "Unary" (.object [("op", .text op.title), ("operand", operand.document)])
  | .compare left ops comparators =>
      .tagged "Compare" (.object
        [("left", left.document), ("ops", .ofNames (ops.map Comparison.title)),
         ("comparators", .list (Expr.documents comparators))])
  | .connective op values =>
      .tagged "BoolOp" (.object
        [("op", .text op.title), ("values", .list (Expr.documents values))])
  | .call function args keywords =>
      .tagged "Call" (.object
        [("func", .text function), ("args", .list (Expr.documents args)),
         ("kwargs", .list (keywordDocuments keywords))])
  | .methodCall receiver method args keywords =>
      .tagged "MethodCall" (.object
        [("object", receiver.document), ("method", .text method),
         ("args", .list (Expr.documents args)), ("kwargs", .list (keywordDocuments keywords))])
  | .dynamicCall callee args =>
      .tagged "DynamicCall" (.object
        [("callee", callee.document), ("args", .list (Expr.documents args))])
  | .attribute value attr =>
      .tagged "Attribute" (.object [("value", value.document), ("attr", .text attr)])
  | .subscript base index =>
      .tagged "Index" (.object [("base", base.document), ("index", index.document)])
  | .slice base start stop step =>
      .tagged "Slice" (.object
        [("base", base.document), ("start", Expr.documentOrNull start),
         ("stop", Expr.documentOrNull stop), ("step", Expr.documentOrNull step)])
  | .list items => .tagged "List" (.list (Expr.documents items))
  | .tuple items => .tagged "Tuple" (.list (Expr.documents items))
  | .set items => .tagged "Set" (.list (Expr.documents items))
  | .dict items => .tagged "Dict" (.list (itemDocuments items))
  | .comprehension kind element generators =>
      .tagged kind.title (.object
        [("element", element.document), ("generators", .list (generatorDocuments generators))])
  | .dictComprehension key value generators =>
      .tagged "DictComp" (.object
        [("key", key.document), ("value", value.document),
         ("generators", .list (generatorDocuments generators))])
  | .lambda params body =>
      .tagged "Lambda" (.object [("params", .ofNames params), ("body", body.document)])
  | .conditional test body orelse =>
      .tagged "IfExpr" (.object
        [("test", test.document), ("body", body.document), ("orelse", orelse.document)])
  | .formatted parts => .tagged "FString" (.list (partDocuments parts))
  | .await value => .tagged "Await" value.document
  | .yield value => .tagged "Yield" (Expr.documentOrNull value)
  | .starred value => .tagged "Starred" value.document
termination_by structural expr => expr

def Expr.documents : List Expr → List Document
  | [] => []
  | expr :: rest => expr.document :: Expr.documents rest
termination_by structural exprs => exprs

def Expr.documentOrNull : Option Expr → Document
  | some expr => expr.document
  | none => .null
termination_by structural expr => expr

def keywordDocuments : List (String × Expr) → List Document
  | [] => []
  | (name, value) :: rest => .list [.text name, value.document] :: keywordDocuments rest
termination_by structural keywords => keywords

def itemDocuments : List (Expr × Expr) → List Document
  | [] => []
  | (key, value) :: rest => .list [key.document, value.document] :: itemDocuments rest
termination_by structural items => items

def generatorDocuments : List Generator → List Document
  | [] => []
  | ⟨target, iter, conditions⟩ :: rest =>
      .object
        [("target", target.document), ("iter", iter.document),
         ("conditions", .list (Expr.documents conditions))] :: generatorDocuments rest
termination_by structural generators => generators

def partDocuments : List FormatPart → List Document
  | [] => []
  | .text content :: rest => .tagged "Literal" (.text content) :: partDocuments rest
  | .value expr :: rest => .tagged "Expr" expr.document :: partDocuments rest
termination_by structural parts => parts

def Place.document : Place → Document
  | .name id => .tagged "Symbol" (.text id)
  | .attribute value attr =>
      .tagged "Attribute" (.object [("value", value.document), ("attr", .text attr)])
  | .subscript base index =>
      .tagged "Index" (.object [("base", base.document), ("index", index.document)])
termination_by structural place => place

def Target.document : Target → Document
  | .place single => single.document
  | .tuple items => .tagged "Tuple" (.list (Target.documents items))
  | .starred inner => .tagged "Starred" inner.document
termination_by structural target => target

def Target.documents : List Target → List Document
  | [] => []
  | item :: rest => item.document :: Target.documents rest
termination_by structural items => items

end

/-! ## Statements -/

def Param.document (param : Param) : Document :=
  .object
    [("name", .text param.name), ("annotation", .orNull (param.hint.map .text)),
     ("default", Expr.documentOrNull param.default)]

def ImportName.document (imported : ImportName) : Document :=
  .object [("name", .text imported.name), ("alias", .orNull (imported.asName.map .text))]

def WithItem.document (item : WithItem) : Document :=
  .object
    [("context", item.context.document), ("target", .orNull (item.target.map Target.document))]

mutual

def Stmt.document : Stmt → Document
  | .assign targets value =>
      .tagged "Assign" (.object
        [("targets", .list (targets.map Target.document)), ("value", value.document)])
  | .annAssign target hint value =>
      .tagged "AnnAssign" (.object
        [("target", target.document), ("annotation", .text hint),
         ("value", Expr.documentOrNull value)])
  | .augAssign target op value =>
      .tagged "AugAssign" (.object
        [("target", target.document), ("op", .text op.title), ("value", value.document)])
  | .expr value => .tagged "Expr" value.document
  | .ret value => .tagged "Return" (Expr.documentOrNull value)
  | .ifElse condition body orelse =>
      .tagged "If" (.object
        [("condition", condition.document), ("then_body", .list (Stmt.documents body)),
         ("else_body", .list (Stmt.documents orelse))])
  | .whileLoop condition body orelse =>
      .tagged "While" (.object
        [("condition", condition.document), ("body", .list (Stmt.documents body)),
         ("orelse", .list (Stmt.documents orelse))])
  | .forLoop target iter body orelse =>
      .tagged "For" (.object
        [("target", target.document), ("iter", iter.document),
         ("body", .list (Stmt.documents body)), ("orelse", .list (Stmt.documents orelse))])
  | .functionDef definition => .tagged "FunctionDef" definition.document
  | .classDef definition => .tagged "ClassDef" definition.document
  | .tryExcept body handlers orelse finalbody =>
      .tagged "Try" (.object
        [("body", .list (Stmt.documents body)), ("handlers", .list (handlerDocuments handlers)),
         ("orelse", .list (Stmt.documents orelse)),
         ("finalbody", .list (Stmt.documents finalbody))])
  | .withBlock items body =>
      .tagged "With" (.object
        [("items", .list (items.map WithItem.document)), ("body", .list (Stmt.documents body))])
  | .raise value => .tagged "Raise" (Expr.documentOrNull value)
  | .assert test message =>
      .tagged "Assert" (.object
        [("test", test.document), ("msg", Expr.documentOrNull message)])
  | .importModules names => .tagged "Import" (.list (names.map ImportName.document))
  | .importFrom source names =>
      .tagged "ImportFrom" (.object
        [("module", .text source), ("names", .list (names.map ImportName.document))])
  | .globals names => .tagged "Global" (.ofNames names)
  | .nonlocals names => .tagged "Nonlocal" (.ofNames names)
  | .delete exprs => .tagged "Delete" (.list (Expr.documents exprs))
  | .pass => .text "Pass"
  | .breakLoop => .text "Break"
  | .continueLoop => .text "Continue"
termination_by structural stmt => stmt

def Stmt.documents : List Stmt → List Document
  | [] => []
  | stmt :: rest => stmt.document :: Stmt.documents rest
termination_by structural body => body

def FunctionDef.document : FunctionDef → Document
  | ⟨name, params, returnHint, body, decorators, isAsync⟩ =>
      .object
        [("name", .text name), ("params", .list (params.map Param.document)),
         ("return_annotation", .orNull (returnHint.map .text)),
         ("body", .list (Stmt.documents body)), ("decorators", .ofNames decorators),
         ("is_async", .bool isAsync)]
termination_by structural definition => definition

def ClassDef.document : ClassDef → Document
  | ⟨name, bases, decorators, body⟩ =>
      .object
        [("name", .text name), ("bases", .ofNames bases), ("decorators", .ofNames decorators),
         ("body", .list (Stmt.documents body))]
termination_by structural definition => definition

def handlerDocuments : List Handler → List Document
  | [] => []
  | ⟨exception, name, body⟩ :: rest =>
      .object
        [("exception", .orNull (exception.map .text)), ("name", .orNull (name.map .text)),
         ("body", .list (Stmt.documents body))] :: handlerDocuments rest
termination_by structural handlers => handlers

end

def Program.document (program : Program) : Document :=
  .object [("body", .list (Stmt.documents program.body))]

end NativeTyping
