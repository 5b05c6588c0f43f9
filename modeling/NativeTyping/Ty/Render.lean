import NativeTyping.Ty.Basic
/-!
The two spellings of a type: the name that generated code uses for it, and a
description in words for messages.
-/

namespace NativeTyping

def Facility.nativeName : Facility → String
  | .file => "runtime.File"
  | .hashObject => "runtime.HashObject"
  | .path => "runtime.Path"
  | .socket => "runtime.Socket"
  | .dbConnection => "runtime.sqlite.Connection"
  | .dbCursor => "runtime.sqlite.Cursor"
  | .dbRow => "runtime.sqlite.Row"
  | .exception _ => "runtime.Exception"

def Facility.description : Facility → String
  | .file => "file"
  | .hashObject => "hash object"
  | .path => "path"
  | .socket => "socket"
  | .dbConnection => "database connection"
  | .dbCursor => "database cursor"
  | .dbRow => "database row"
  | .exception name => "exception " ++ name

def StringKind.description : StringKind → String
  | .literal => "literal string"
  | .runtime => "string"
  | .slice => "string slice"

namespace Ty

def closureIdentifier (name : String) : String :=
  "Closure_" ++ name.map fun char => if char = '.' then '_' else char

mutual

def nativeName : Ty → String
  | .int => "i64"
  | .bigInt => "runtime.BigInt"
  | .index => "usize"
  | .float => "f64"
  | .bool => "bool"
  | .str _ => "[]const u8"
  | .array element length => "[" ++ toString length ++ "]" ++ element.nativeName
  | .list element => "std.ArrayList(" ++ element.nativeName ++ ")"
  | .dict key value =>
      if key.isString then "std.StringHashMap(" ++ value.nativeName ++ ")"
      else "std.AutoHashMap(" ++ key.nativeName ++ ", " ++ value.nativeName ++ ")"
  | .set element =>
      if element.isString then "std.StringHashMap(void)"
      else "std.AutoHashMap(" ++ element.nativeName ++ ", void)"
  | .tuple elements => "struct \x7b " ++ String.intercalate ", " (nativeNames elements) ++ " \x7d"
  | .function params result =>
      "*const fn (" ++ String.intercalate ", " (nativeNames params) ++ ") " ++ result.nativeName
  | .closure name => closureIdentifier name
  | .callable => "runtime.Callable"
  | .object className => "*" ++ className
  | .optional inner => "?" ++ inner.nativeName
  | .none => "void"
  | .library facility => facility.nativeName
  | .unknown => "*runtime.PyObject"
termination_by structural type => type

def nativeNames : List Ty → List String
  | [] => []
  | type :: rest => type.nativeName :: nativeNames rest
termination_by structural types => types

end

mutual

def description : Ty → String
  | .int => "int"
  | .bigInt => "big int"
  | .index => "index"
  | .float => "float"
  | .bool => "bool"
  | .str kind => kind.description
  | .array element length => "array of " ++ toString length ++ " " ++ element.description
  | .list element => "list of " ++ element.description
  | .dict key value => "dict of " ++ key.description ++ " to " ++ value.description
  | .set element => "set of " ++ element.description
  | .tuple elements => "tuple (" ++ String.intercalate ", " (descriptions elements) ++ ")"
  | .function params result =>
      "function (" ++ String.intercalate ", " (descriptions params) ++ ") -> " ++
        result.description
  | .closure name => "closure " ++ name
  | .callable => "callable"
  | .object className => className ++ " instance"
  | .optional inner => "optional " ++ inner.description
  | .none => "none"
  | .library facility => facility.description
  | .unknown => "unknown"
termination_by structural type => type

def descriptions : List Ty → List String
  | [] => []
  | type :: rest => type.description :: descriptions rest
termination_by structural types => types

end

@[simp] theorem nativeNames_eq_map (types : List Ty) :
    nativeNames types = types.map nativeName := by
  induction types with
  | nil => rfl
  | cons type rest induction => simp [nativeNames, induction]

@[simp] theorem descriptions_eq_map (types : List Ty) :
    descriptions types = types.map description := by
  induction types with
  | nil => rfl
  | cons type rest induction => simp [descriptions, induction]

end Ty

end NativeTyping
