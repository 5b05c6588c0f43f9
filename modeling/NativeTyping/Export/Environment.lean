import NativeTyping.Environment.Basic
import NativeTyping.Export.Document
/-!
The documents that describe types and environments to a code generator.
-/

namespace NativeTyping

namespace StringKind

def document : StringKind → Document
  | .literal => .text "Literal"
  | .runtime => .text "Runtime"
  | .slice => .text "Slice"

end StringKind

namespace Facility

def document : Facility → Document
  | .file => .text "File"
  | .hashObject => .text "HashObject"
  | .path => .text "Path"
  | .socket => .text "Socket"
  | .dbConnection => .text "DbConnection"
  | .dbCursor => .text "DbCursor"
  | .dbRow => .text "DbRow"
  | .exception name => .tagged "Exception" (.text name)

end Facility

namespace Ty

mutual

/-- A type without parts is its name, any other an object with its name for key. -/
def document : Ty → Document
  | .int => .text "Int"
  | .bigInt => .text "BigInt"
  | .index => .text "Usize"
  | .float => .text "Float"
  | .bool => .text "Bool"
  | .str kind => .tagged "Str" kind.document
  | .array element length =>
      .tagged "Array" (.object [("elem", element.document), ("len", .number length)])
  | .list element => .tagged "List" element.document
  | .dict key value =>
      .tagged "Dict" (.object [("key", key.document), ("value", value.document)])
  | .set element => .tagged "Set" element.document
  | .tuple elements => .tagged "Tuple" (.list (documents elements))
  | .function params result =>
      .tagged "Function"
        (.object [("params", .list (documents params)), ("ret", result.document)])
  | .closure name => .tagged "Closure" (.text name)
  | .callable => .text "Callable"
  | .object className => .tagged "Instance" (.text className)
  | .optional inner => .tagged "Optional" inner.document
  | .none => .text "None"
  | .library facility => .tagged "Library" facility.document
  | .unknown => .text "Unknown"
termination_by structural type => type

def documents : List Ty → List Document
  | [] => []
  | type :: rest => type.document :: documents rest
termination_by structural types => types

end

end Ty

def Table.document {α : Type} (table : Table α) (value : α → Document) : Document :=
  .object (table.entries.map fun entry => (entry.1, value entry.2))

def NameSet.document (set : NameSet) : Document :=
  .ofNames set.names

def ClassInfo.document (info : ClassInfo) : Document :=
  .object
    [("name", .text info.name),
     ("bases", .ofNames info.bases),
     ("fields", info.fields.document Ty.document),
     ("methods", info.methods.document Ty.document),
     ("properties", info.properties.document)]

namespace Environment

def document (env : Environment) : Document :=
  .object
    [("module", env.globals.document Ty.document),
     ("scopes", env.scopes.document fun bindings => bindings.document Ty.document),
     ("classes", env.classes.document ClassInfo.document),
     ("function_returns", env.returns.document Ty.document),
     ("function_params", env.params.document fun types => .list (types.map Ty.document)),
     ("constructor_args",
       env.constructorArgs.document fun types => .list (types.map Ty.document)),
     ("captures", env.captures.document NameSet.document),
     ("imports", env.imports.document Document.text)]

def rendered (env : Environment) : String :=
  env.document.render

end Environment

end NativeTyping
