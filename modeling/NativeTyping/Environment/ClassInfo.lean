import NativeTyping.Table
import NativeTyping.Ty.Widen
/-!
What is known about one class of the program.
-/

namespace NativeTyping

/-- `bases` are the direct bases in order of declaration, `methods` gives the
result of each method, and `properties` are the methods that are read as
attributes. -/
structure ClassInfo where
  name : String
  bases : List String
  fields : Table Ty
  methods : Table Ty
  properties : NameSet
  deriving DecidableEq

def Ty.mergeInto (type : Ty) : Option Ty → Ty
  | Option.none => type
  | some present => Ty.widen present type

namespace ClassInfo

def ofName (name : String) (bases : List String) : ClassInfo where
  name := name
  bases := bases
  fields := ∅
  methods := ∅
  properties := ∅

def widenField (info : ClassInfo) (field : String) (type : Ty) : ClassInfo :=
  { info with fields := info.fields.upsert field type.mergeInto }

def setField (info : ClassInfo) (field : String) (type : Ty) : ClassInfo :=
  { info with fields := info.fields.insert field type }

def setMethod (info : ClassInfo) (method : String) (result : Ty) : ClassInfo :=
  { info with methods := info.methods.insert method result }

def markProperty (info : ClassInfo) (method : String) : ClassInfo :=
  { info with properties := info.properties.insert method }

end ClassInfo

end NativeTyping
