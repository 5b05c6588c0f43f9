import NativeTyping.Program.Stmt
import NativeTyping.Surface.Tree
import NativeTyping.Text.Dotted
/-!
Lowering a syntax tree to the program that is analysed.

What a program has no form for degrades instead of failing: such statements do
nothing, and such expressions become a name that is never bound.
-/

namespace NativeTyping

namespace Surface

/-! ## Constants -/

/-- A name that no program can bind, for expressions without a form of their own. -/
def unresolvedName : String := "<expr>"

def unresolved : NativeTyping.Expr := .name unresolvedName

def integerLiteral (value : Int) : Literal :=
  if Int64.minValue.toInt ≤ value && value ≤ Int64.maxValue.toInt then .int value
  else .bigInt (toString value)

mutual

def Constant.lower : Constant → NativeTyping.Expr
  | .none => .literal .none
  | .bool value => .literal (.bool value)
  | .str text => .literal (.str text)
  | .bytes content => .literal (.bytes content)
  | .int value => .literal (integerLiteral value)
  | .float bits => .literal (.float bits)
  | .tuple items => .tuple (Constant.lowerEach items)
  | .ellipsis | .complex _ _ => unresolved
termination_by structural constant => constant

def Constant.lowerEach : List Constant → List NativeTyping.Expr
  | [] => []
  | constant :: rest => constant.lower :: Constant.lowerEach rest
termination_by structural constants => constants

end

/-! ## Names and hints -/

namespace Expr

def dottedName? : Expr → Option String
  | .name id => some id
  | .attribute value attr => value.dottedName?.map fun base => Dotted.join base attr
  | _ => none

def decoratorName? : Expr → Option String
  | .call function _ _ => function.dottedName?
  | other => other.dottedName?

mutual

def hintText : Expr → String
  | .name id => id
  | .attribute value attr => value.hintText ++ "." ++ attr
  | .subscript value (.tuple items) =>
      value.hintText ++ "[" ++ String.intercalate ", " (hintTexts items) ++ "]"
  | .subscript value index => value.hintText ++ "[" ++ index.hintText ++ "]"
  | .list items => "[" ++ String.intercalate ", " (hintTexts items) ++ "]"
  | .tuple items => String.intercalate ", " (hintTexts items)
  | .binary left .bitOr right => left.hintText ++ " | " ++ right.hintText
  | .constant (.str text) => text
  | .constant .none => "None"
  | .constant .ellipsis => "..."
  | _ => "Any"
termination_by structural expr => expr

def hintTexts : List Expr → List String
  | [] => []
  | expr :: rest => expr.hintText :: hintTexts rest
termination_by structural exprs => exprs

end

end Expr

/-! ## Parameters -/

namespace Arguments

def names (args : Arguments) : List String :=
  args.positionalOnly.map Parameter.name ++ args.positional.map Parameter.name ++
    args.variadic.toList.map Parameter.name ++ args.keywordOnly.map Parameter.name ++
    args.keywordVariadic.toList.map Parameter.name

end Arguments

/-! ## Expressions

Keyword arguments without a name unpack a mapping and are dropped.
-/

/-- The entries of a dict, as far as keys and values go. An entry without a key
unpacks another mapping and is dropped. -/
def pairEntries : List (Option NativeTyping.Expr) → List NativeTyping.Expr →
    List (NativeTyping.Expr × NativeTyping.Expr)
  | some key :: keys, value :: values => (key, value) :: pairEntries keys values
  | none :: keys, _ :: values => pairEntries keys values
  | _, _ => []

mutual

def Expr.lower : Expr → NativeTyping.Expr
  | .constant value => value.lower
  | .name id => .name id
  | .binary left op right => .binary op left.lower right.lower
  | .unary op operand => .unary op operand.lower
  | .connective op values => .connective op (Expr.lowerEach values)
  | .compare left ops comparators => .compare left.lower ops (Expr.lowerEach comparators)
  | .call (.name id) args keywords =>
      .call id (Expr.lowerEach args) (lowerKeywords keywords)
  | .call (.attribute value attr) args keywords =>
      .methodCall value.lower attr (Expr.lowerEach args) (lowerKeywords keywords)
  | .call callee args _ => .dynamicCall callee.lower (Expr.lowerEach args)
  | .attribute value attr => .attribute value.lower attr
  | .subscript value (.slice start stop step) =>
      .slice value.lower (Expr.lowerOption start) (Expr.lowerOption stop)
        (Expr.lowerOption step)
  | .subscript value index => .subscript value.lower index.lower
  | .list items => .list (Expr.lowerEach items)
  | .tuple items => .tuple (Expr.lowerEach items)
  | .set items => .set (Expr.lowerEach items)
  | .dict keys values => .dict (pairEntries (lowerKeys keys) (Expr.lowerEach values))
  | .comprehension kind element generators =>
      .comprehension kind element.lower (lowerGenerators generators)
  | .dictComprehension key value generators =>
      .dictComprehension key.lower value.lower (lowerGenerators generators)
  | .lambda args body => .lambda args.names body.lower
  | .conditional test body orelse => .conditional test.lower body.lower orelse.lower
  | .joined values => .formatted (lowerParts values)
  | .formattedValue value _ => .formatted [.value value.lower]
  | .await value => .await value.lower
  | .yield value => .yield (Expr.lowerOption value)
  | .yieldFrom value => .yield (some value.lower)
  | .starred value => .starred value.lower
  | .named _ value => value.lower
  | .slice _ _ _ => unresolved
termination_by structural expr => expr

def Expr.lowerEach : List Expr → List NativeTyping.Expr
  | [] => []
  | expr :: rest => expr.lower :: Expr.lowerEach rest
termination_by structural exprs => exprs

def Expr.lowerOption : Option Expr → Option NativeTyping.Expr
  | none => none
  | some expr => some expr.lower
termination_by structural expr => expr

def lowerKeys : List (Option Expr) → List (Option NativeTyping.Expr)
  | [] => []
  | key :: rest => Expr.lowerOption key :: lowerKeys rest
termination_by structural keys => keys

def lowerKeywords : List Keyword → List (String × NativeTyping.Expr)
  | [] => []
  | ⟨some name, value⟩ :: rest => (name, value.lower) :: lowerKeywords rest
  | ⟨none, _⟩ :: rest => lowerKeywords rest
termination_by structural keywords => keywords

/-- A generator whose target cannot be stored to binds nothing. -/
def lowerGenerators : List Generator → List NativeTyping.Generator
  | [] => []
  | ⟨target, iter, conditions⟩ :: rest =>
      ⟨target.lowerTarget?.getD (.tuple []), iter.lower, Expr.lowerEach conditions⟩ ::
        lowerGenerators rest
termination_by structural generators => generators

def lowerParts : List Expr → List FormatPart
  | [] => []
  | .constant (.str text) :: rest => .text text :: lowerParts rest
  | .formattedValue value _ :: rest => .value value.lower :: lowerParts rest
  | other :: rest => .value other.lower :: lowerParts rest
termination_by structural values => values

/-- What can be stored to: names, attributes and subscripts, and tuples, lists and
starred parts of those. -/
def Expr.lowerTarget? : Expr → Option Target
  | .name id => some (.place (.name id))
  | .attribute value attr => some (.place (.attribute value.lower attr))
  | .subscript value index => some (.place (.subscript value.lower index.lower))
  | .tuple items => some (.tuple (Expr.lowerTargets items))
  | .list items => some (.tuple (Expr.lowerTargets items))
  | .starred value => value.lowerTarget?.map Target.starred
  | _ => none
termination_by structural expr => expr

def Expr.lowerTargets : List Expr → List Target
  | [] => []
  | expr :: rest => expr.lowerTarget?.toList ++ Expr.lowerTargets rest
termination_by structural exprs => exprs

end

end Surface

end NativeTyping
