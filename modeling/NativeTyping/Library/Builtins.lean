import NativeTyping.Library.ReturnRule
/-!
Functions, exceptions and methods that are there without an import.
-/

namespace NativeTyping

namespace Library

def builtinFunctions : NameGroups ReturnRule :=
  [(["len", "ord", "hash", "id", "int"], .fixed .int),
   (["str", "repr", "chr", "hex", "bin", "oct", "format", "input", "ascii", "bytes"],
     .fixed Ty.text),
   (["bool", "isinstance", "issubclass", "callable", "hasattr", "all", "any"], .fixed .bool),
   (["float"], .fixed .float),
   (["print"], .fixed .none),
   (["open"], .fixed (.library .file)),
   (["abs"], .sameAsArg),
   (["min", "max"], .extremum),
   (["sum"], .sum),
   (["round"], .round),
   (["pow"], .numeric),
   (["divmod"], .divMod),
   (["next"], .elementOfArg),
   (["list", "sorted", "reversed", "tuple", "iter"], .listOfElements),
   (["set", "frozenset"], .setOfElements),
   (["dict"], .dictFrom),
   (["enumerate"], .enumerate),
   (["zip"], .zip),
   (["range"], .fixed (.list .int))]

def builtinFunction? (name : String) : Option ReturnRule :=
  builtinFunctions.find? name

/-! ## Exceptions -/

def exceptionNames : List String :=
  ["Exception", "BaseException", "ValueError", "TypeError", "KeyError", "IndexError",
   "RuntimeError", "ZeroDivisionError", "AttributeError", "NotImplementedError",
   "StopIteration", "AssertionError", "IOError", "OSError", "FileNotFoundError",
   "PermissionError", "OverflowError", "ArithmeticError", "LookupError", "NameError",
   "ImportError", "TimeoutError", "ConnectionError", "UnicodeDecodeError",
   "UnicodeEncodeError", "MemoryError", "RecursionError"]

/-- Whether calling a name makes an exception: it is a known one, or is named like
an error. -/
def isExceptionName (name : String) : Bool :=
  exceptionNames.contains name || "Error".toList.isSuffixOf name.toList

/-! ## Methods of builtin values -/

def stringMethods : NameGroups Ty :=
  [(["upper", "lower", "strip", "lstrip", "rstrip", "replace", "join", "title", "capitalize",
     "casefold", "swapcase", "center", "ljust", "rjust", "zfill", "format", "expandtabs",
     "translate", "encode", "decode", "removeprefix", "removesuffix"], Ty.text),
   (["startswith", "endswith", "isdigit", "isalpha", "isalnum", "isspace", "isupper", "islower",
     "istitle", "isnumeric", "isdecimal", "isidentifier", "isprintable", "isascii"], .bool),
   (["find", "rfind", "index", "rindex", "count"], .int),
   (["split", "rsplit", "splitlines"], .list Ty.text),
   (["partition", "rpartition"], .tuple [Ty.text, Ty.text, Ty.text])]

def dictMethods (key value : Ty) (args : List Ty) : NameGroups Ty :=
  [(["keys"], .list key),
   (["values"], .list value),
   (["items"], .list (.tuple [key, value])),
   (["get"], match args[1]? with
     | some default => Ty.widen value default
     | none => value),
   (["pop", "setdefault"], value),
   (["popitem"], .tuple [key, value]),
   (["copy"], .dict key value),
   (["update", "clear"], .none)]

def listMethods (element : Ty) : NameGroups Ty :=
  [(["pop"], element),
   (["index", "count"], .int),
   (["copy"], .list element),
   (["append", "extend", "insert", "remove", "clear", "sort", "reverse"], .none)]

def setMethods (element : Ty) : NameGroups Ty :=
  [(["union", "intersection", "difference", "symmetric_difference", "copy"], .set element),
   (["pop"], element),
   (["issubset", "issuperset", "isdisjoint"], .bool),
   (["add", "discard", "remove", "update", "clear"], .none)]

def integerMethods : NameGroups Ty :=
  [(["bit_length", "bit_count"], .int),
   (["to_bytes"], Ty.text)]

def floatMethods : NameGroups Ty :=
  [(["is_integer"], .bool),
   (["hex"], Ty.text),
   (["as_integer_ratio"], .tuple [.int, .int])]

def methodsOf (receiver : Ty) (args : List Ty) : NameGroups Ty :=
  match receiver with
  | .str _ => stringMethods
  | .dict key value => dictMethods key value args
  | .list element | .array element _ => listMethods element
  | .set element => setMethods element
  | .int | .index | .bigInt => integerMethods
  | .float => floatMethods
  | _ => []

def builtinMethod? (receiver : Ty) (method : String) (args : List Ty) : Option Ty :=
  (methodsOf receiver args).find? method

end Library

end NativeTyping
