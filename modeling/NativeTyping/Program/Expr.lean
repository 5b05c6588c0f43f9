/-!
Expressions of a program, as the analyses read them.

Calls are told apart by their callee: a bare name, an attribute of a receiver, or
any other expression.
-/

namespace NativeTyping

/-! ## Constants and operators -/

/-- A float is given by its bits. An integer beyond 64 bits is kept as decimal
text. -/
inductive Literal where
  | int (value : Int)
  | bigInt (digits : String)
  | float (bits : UInt64)
  | str (text : String)
  | bytes (content : List UInt8)
  | bool (value : Bool)
  | none
  deriving DecidableEq, Repr

inductive BinaryOp where
  | add
  | sub
  | mul
  | div
  | floorDiv
  | mod
  | pow
  | matMul
  | leftShift
  | rightShift
  | bitAnd
  | bitOr
  | bitXor
  deriving DecidableEq, Repr

inductive UnaryOp where
  | not
  | neg
  | pos
  | bitNot
  deriving DecidableEq, Repr

inductive Comparison where
  | eq
  | notEq
  | less
  | lessEq
  | greater
  | greaterEq
  | is
  | isNot
  | mem
  | notMem
  deriving DecidableEq, Repr

inductive Connective where
  | and
  | or
  deriving DecidableEq, Repr

inductive ComprehensionKind where
  | list
  | set
  | generator
  deriving DecidableEq, Repr

/-! ## Expressions and assignment targets

A `Place` is what a single value can be stored in. A `Target` arranges places, so
that one value can be unpacked over several of them.
-/

mutual

inductive Expr where
  | literal (value : Literal)
  | name (id : String)
  | binary (op : BinaryOp) (left right : Expr)
  | unary (op : UnaryOp) (operand : Expr)
  | compare (left : Expr) (ops : List Comparison) (comparators : List Expr)
  | connective (op : Connective) (values : List Expr)
  | call (function : String) (args : List Expr) (keywords : List (String × Expr))
  | methodCall (receiver : Expr) (method : String) (args : List Expr)
      (keywords : List (String × Expr))
  | dynamicCall (callee : Expr) (args : List Expr)
  | attribute (value : Expr) (attr : String)
  | subscript (base index : Expr)
  | slice (base : Expr) (start stop step : Option Expr)
  | list (items : List Expr)
  | tuple (items : List Expr)
  | set (items : List Expr)
  | dict (items : List (Expr × Expr))
  | comprehension (kind : ComprehensionKind) (element : Expr) (generators : List Generator)
  | dictComprehension (key value : Expr) (generators : List Generator)
  | lambda (params : List String) (body : Expr)
  | conditional (test body orelse : Expr)
  | formatted (parts : List FormatPart)
  | await (value : Expr)
  | yield (value : Option Expr)
  | starred (value : Expr)

inductive Place where
  | name (id : String)
  | attribute (value : Expr) (attr : String)
  | subscript (base index : Expr)

inductive Target where
  | place (single : Place)
  | tuple (items : List Target)
  | starred (inner : Target)

structure Generator where
  target : Target
  iter : Expr
  conditions : List Expr

inductive FormatPart where
  | text (content : String)
  | value (expr : Expr)

end

instance : Inhabited Expr := ⟨.literal .none⟩

/-! ## Targets -/

namespace Place

def boundNames : Place → List String
  | .name id => [id]
  | .attribute _ _ | .subscript _ _ => []

def expressions : Place → List Expr
  | .name _ => []
  | .attribute value _ => [value]
  | .subscript base index => [base, index]

end Place

namespace Target

mutual

def places : Target → List Place
  | .place single => [single]
  | .tuple items => placesEach items
  | .starred inner => inner.places
termination_by structural target => target

def placesEach : List Target → List Place
  | [] => []
  | item :: rest => item.places ++ placesEach rest
termination_by structural items => items

end

@[simp] theorem placesEach_eq_flatMap (items : List Target) :
    placesEach items = items.flatMap places := by
  induction items with
  | nil => rfl
  | cons item rest induction => simp [placesEach, induction]

def boundNames (target : Target) : List String :=
  target.places.flatMap Place.boundNames

def expressions (target : Target) : List Expr :=
  target.places.flatMap Place.expressions

def isStarred : Target → Bool
  | .starred _ => true
  | _ => false

end Target

/-! ## Queries -/

namespace Generator

def expressions (generator : Generator) : List Expr :=
  generator.iter :: generator.conditions

end Generator

namespace FormatPart

def expressions : FormatPart → List Expr
  | .text _ => []
  | .value expr => [expr]

end FormatPart

namespace Expr

def children : Expr → List Expr
  | .literal _ | .name _ => []
  | .binary _ left right => [left, right]
  | .unary _ operand => [operand]
  | .compare left _ comparators => left :: comparators
  | .connective _ values => values
  | .call _ args keywords => args ++ keywords.map Prod.snd
  | .methodCall receiver _ args keywords => receiver :: (args ++ keywords.map Prod.snd)
  | .dynamicCall callee args => callee :: args
  | .attribute value _ => [value]
  | .subscript base index => [base, index]
  | .slice base start stop step => base :: (start.toList ++ stop.toList ++ step.toList)
  | .list items | .tuple items | .set items => items
  | .dict items => items.flatMap fun item => [item.1, item.2]
  | .comprehension _ element generators => generators.flatMap Generator.expressions ++ [element]
  | .dictComprehension key value generators =>
      generators.flatMap Generator.expressions ++ [key, value]
  | .lambda _ body => [body]
  | .conditional test body orelse => [test, body, orelse]
  | .formatted parts => parts.flatMap FormatPart.expressions
  | .await value | .starred value => [value]
  | .yield value => value.toList

/-- The names bound inside an expression and private to it: the targets of a
comprehension, the parameters of a lambda. -/
def innerBindings : Expr → List String
  | .comprehension _ _ generators | .dictComprehension _ _ generators =>
      generators.flatMap fun generator => generator.target.boundNames
  | .lambda params _ => params
  | _ => []

def dottedName? : Expr → Option String
  | .name id => some id
  | .attribute value attr => value.dottedName?.map fun base => base ++ "." ++ attr
  | _ => none

/-- Negation among the integers of 64 bits, where the least one has none. -/
def negate64? (value : Int) : Option Int :=
  if value = Int64.minValue.toInt then none else some (-value)

def intLiteral? : Expr → Option Int
  | .literal (.int value) => some value
  | .unary .neg operand => operand.intLiteral?.bind negate64?
  | .unary .pos operand => operand.intLiteral?
  | _ => none

/-- The literal of a constant expression: itself, or a number under one sign. -/
def literal? : Expr → Option Literal
  | .literal value => some value
  | .unary .neg (.literal value) | .unary .pos (.literal value) =>
      match value with
      | .int _ | .bigInt _ | .float _ => some value
      | _ => none
  | _ => none

/-! ## Recursion over sub-expressions

`fold` combines at each expression the results for its immediate
sub-expressions. It is the recursion that every walk over a whole expression
uses.
-/

section Fold

variable {α : Type} (combine : Expr → List α → α)

mutual

def fold : Expr → α
  | .literal value => combine (.literal value) []
  | .name id => combine (.name id) []
  | .binary op left right => combine (.binary op left right) [fold left, fold right]
  | .unary op operand => combine (.unary op operand) [fold operand]
  | .compare left ops comparators =>
      combine (.compare left ops comparators) (fold left :: foldEach comparators)
  | .connective op values => combine (.connective op values) (foldEach values)
  | .call function args keywords =>
      combine (.call function args keywords) (foldEach args ++ foldKeywords keywords)
  | .methodCall receiver method args keywords =>
      combine (.methodCall receiver method args keywords)
        (fold receiver :: (foldEach args ++ foldKeywords keywords))
  | .dynamicCall callee args =>
      combine (.dynamicCall callee args) (fold callee :: foldEach args)
  | .attribute value attr => combine (.attribute value attr) [fold value]
  | .subscript base index => combine (.subscript base index) [fold base, fold index]
  | .slice base start stop step =>
      combine (.slice base start stop step)
        (fold base :: (foldOption start ++ foldOption stop ++ foldOption step))
  | .list items => combine (.list items) (foldEach items)
  | .tuple items => combine (.tuple items) (foldEach items)
  | .set items => combine (.set items) (foldEach items)
  | .dict items => combine (.dict items) (foldItems items)
  | .comprehension kind element generators =>
      combine (.comprehension kind element generators)
        (foldGenerators generators ++ [fold element])
  | .dictComprehension key value generators =>
      combine (.dictComprehension key value generators)
        (foldGenerators generators ++ [fold key, fold value])
  | .lambda params body => combine (.lambda params body) [fold body]
  | .conditional test body orelse =>
      combine (.conditional test body orelse) [fold test, fold body, fold orelse]
  | .formatted parts => combine (.formatted parts) (foldParts parts)
  | .await value => combine (.await value) [fold value]
  | .yield value => combine (.yield value) (foldOption value)
  | .starred value => combine (.starred value) [fold value]
termination_by structural expr => expr

def foldEach : List Expr → List α
  | [] => []
  | expr :: rest => fold expr :: foldEach rest
termination_by structural exprs => exprs

def foldOption : Option Expr → List α
  | none => []
  | some expr => [fold expr]
termination_by structural expr => expr

def foldKeywords : List (String × Expr) → List α
  | [] => []
  | (_, value) :: rest => fold value :: foldKeywords rest
termination_by structural keywords => keywords

def foldItems : List (Expr × Expr) → List α
  | [] => []
  | (key, value) :: rest => fold key :: fold value :: foldItems rest
termination_by structural items => items

def foldGenerators : List Generator → List α
  | [] => []
  | ⟨_, iter, conditions⟩ :: rest => fold iter :: (foldEach conditions ++ foldGenerators rest)
termination_by structural generators => generators

def foldParts : List FormatPart → List α
  | [] => []
  | .text _ :: rest => foldParts rest
  | .value expr :: rest => fold expr :: foldParts rest
termination_by structural parts => parts

end

theorem foldEach_eq_map (exprs : List Expr) :
    foldEach combine exprs = exprs.map (fold combine) := by
  induction exprs with
  | nil => rfl
  | cons expr rest induction => simp [foldEach, induction]

theorem foldOption_eq_map (expr : Option Expr) :
    foldOption combine expr = expr.toList.map (fold combine) := by
  cases expr <;> rfl

theorem foldKeywords_eq_map (keywords : List (String × Expr)) :
    foldKeywords combine keywords = (keywords.map Prod.snd).map (fold combine) := by
  induction keywords with
  | nil => rfl
  | cons keyword rest induction => simp [foldKeywords, induction]

theorem foldItems_eq_map (items : List (Expr × Expr)) :
    foldItems combine items =
      (items.flatMap fun item => [item.1, item.2]).map (fold combine) := by
  induction items with
  | nil => rfl
  | cons item rest induction => simp [foldItems, induction]

theorem foldGenerators_eq_map (generators : List Generator) :
    foldGenerators combine generators =
      (generators.flatMap Generator.expressions).map (fold combine) := by
  induction generators with
  | nil => rfl
  | cons generator rest induction =>
      obtain ⟨target, iter, conditions⟩ := generator
      simp [foldGenerators, induction, Generator.expressions, foldEach_eq_map]

theorem foldParts_eq_map (parts : List FormatPart) :
    foldParts combine parts =
      (parts.flatMap FormatPart.expressions).map (fold combine) := by
  induction parts with
  | nil => rfl
  | cons part rest induction =>
      cases part <;> simp [foldParts, induction, FormatPart.expressions]

theorem fold_eq (expr : Expr) :
    fold combine expr = combine expr (expr.children.map (fold combine)) := by
  cases expr <;>
    simp [fold, children, foldEach_eq_map, foldOption_eq_map, foldKeywords_eq_map,
      foldItems_eq_map, foldGenerators_eq_map, foldParts_eq_map]

end Fold

def subexpressions (expr : Expr) : List Expr :=
  expr.fold fun whole parts => whole :: parts.flatten

/-- The names that an expression reads and does not bind itself, once for each
place where they are read. -/
def reads (expr : Expr) : List String :=
  expr.fold fun whole parts =>
    let own := match whole with
      | .name id => [id]
      | .call function _ _ => [function]
      | _ => []
    let hidden := whole.innerBindings
    own ++ parts.flatten.filter fun name => !hidden.contains name

end Expr

end NativeTyping
