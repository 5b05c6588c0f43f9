import NativeTyping.Inference.Call
import NativeTyping.Inference.Operator
import NativeTyping.Inference.Unpack
/-!
Types of expressions.

An expression is read in two ways: for the type of its value, and for the type of
what a loop over it gives. For most expressions the second follows from the first,
but loops understand calls that only rearrange what they are given, such as
`enumerate` and `zip`, and the views of a dict.
-/

namespace NativeTyping

structure Reading where
  value : Ty
  item : Ty

namespace Reading

def ofValue (value : Ty) : Reading where
  value := value
  item := value.iterElement

end Reading

namespace Context

def callItem (context : Context) (name : String) (args : List Reading) (value : Ty) : Ty :=
  let items := args.map Reading.item
  if context.isTaken name then value.iterElement
  else
    match name, items with
    | "range", _ => if args.length = 1 then .index else .int
    | "enumerate", _ => .tuple [.index, Ty.orUnknown items.head?]
    | "zip", _ => .tuple items
    | "reversed", first :: _ => first
    | "sorted", first :: _ => first
    | "iter", first :: _ => first
    | _, _ => value.iterElement

def methodItem (receiver : Ty) (method : String) (args : List Reading) (value : Ty) : Ty :=
  match receiver, method, args with
  | .dict key content, "items", [] => .tuple [key, content]
  | .dict key _, "keys", [] => key
  | .dict _ content, "values", [] => content
  | _, _, _ => value.iterElement

end Context

mutual

def Expr.read : Expr → Context → Reading
  | .literal value, _ => .ofValue value.type
  | .name id, context => .ofValue (context.lookupName id)
  | .binary op left right, context =>
      .ofValue (context.env.binaryType op (left.read context).value (right.read context).value)
  | .unary op operand, context => .ofValue (Ty.unaryType op (operand.read context).value)
  | .compare _ _ _, _ => .ofValue .bool
  | .connective _ values, context =>
      .ofValue (Ty.widenAll ((Expr.readEach values context).map Reading.value))
  | .call function args keywords, context =>
      let readings := Expr.readEach args context
      let value := context.callType function (readings.map Reading.value) args
        (Expr.readKeywords keywords context)
      { value := value, item := context.callItem function readings value }
  | .methodCall receiver method args _, context =>
      let readings := Expr.readEach args context
      let receiverType := (receiver.read context).value
      let value := context.methodCallType receiver receiverType method
        (readings.map Reading.value) args
      { value := value, item := Context.methodItem receiverType method readings value }
  | .dynamicCall callee _, context =>
      .ofValue (Ty.orUnknown (context.calledValue? (callee.read context).value))
  | .attribute value attr, context =>
      .ofValue (context.attributeType value (value.read context).value attr)
  | .subscript base index, context =>
      .ofValue (context.env.subscriptType index (base.read context).value)
  | .slice base start stop step, context =>
      .ofValue (Ty.sliceType (base.read context).value start stop step)
  | .list items, context =>
      .ofValue (Ty.listDisplay context.config items
        ((Expr.readEach items context).map Reading.value))
  | .tuple items, context =>
      .ofValue (.tuple ((Expr.readEach items context).map Reading.value))
  | .set items, context =>
      .ofValue (.set (Ty.widenAll ((Expr.readEach items context).map Reading.value)).owned)
  | .dict items, context => .ofValue (Ty.dictDisplay (Expr.readValues items context))
  | .comprehension kind element generators, context =>
      let elementType := (element.read (Expr.bindGenerators generators context)).value.owned
      match kind with
      | .list | .generator => .ofValue (.list elementType)
      | .set => .ofValue (.set elementType)
  | .dictComprehension key value generators, context =>
      let inner := Expr.bindGenerators generators context
      .ofValue (.dict (key.read inner).value.owned (value.read inner).value.owned)
  | .lambda params _, _ => .ofValue (.function (List.replicate params.length .int) .int)
  | .conditional _ body orelse, context =>
      .ofValue (Ty.widen (body.read context).value (orelse.read context).value)
  | .formatted _, _ => .ofValue Ty.text
  | .await value, context => .ofValue (value.read context).value
  | .starred value, context => .ofValue (value.read context).value
  | .yield _, _ => .ofValue .unknown
termination_by structural expr => expr

def Expr.readEach : List Expr → Context → List Reading
  | [], _ => []
  | expr :: rest, context => expr.read context :: Expr.readEach rest context
termination_by structural exprs => exprs

def Expr.readKeywords : List (String × Expr) → Context → List Ty
  | [], _ => []
  | (_, value) :: rest, context =>
      (value.read context).value :: Expr.readKeywords rest context
termination_by structural keywords => keywords

def Expr.readValues : List (Expr × Expr) → Context → List Ty
  | [], _ => []
  | (_, value) :: rest, context => (value.read context).value :: Expr.readValues rest context
termination_by structural items => items

/-- Binds the targets of generators to what their iterables give. Later generators
see the targets of earlier ones. -/
def Expr.bindGenerators : List Generator → Context → Context
  | [], context => context
  | ⟨target, iter, _⟩ :: rest, context =>
      Expr.bindGenerators rest
        (context.bindPrivates (target.unpackNames (iter.read context).item))
termination_by structural generators => generators

end

theorem Expr.readEach_eq_map (exprs : List Expr) (context : Context) :
    Expr.readEach exprs context = exprs.map fun expr => expr.read context := by
  induction exprs with
  | nil => rfl
  | cons expr rest induction => simp [Expr.readEach, induction]

namespace Context

def infer (context : Context) (expr : Expr) : Ty :=
  (expr.read context).value

def iterationItem (context : Context) (expr : Expr) : Ty :=
  (expr.read context).item

@[simp] theorem map_value_readEach (context : Context) (exprs : List Expr) :
    (Expr.readEach exprs context).map Reading.value = exprs.map context.infer := by
  rw [Expr.readEach_eq_map, List.map_map]
  rfl

@[simp] theorem map_item_readEach (context : Context) (exprs : List Expr) :
    (Expr.readEach exprs context).map Reading.item = exprs.map context.iterationItem := by
  rw [Expr.readEach_eq_map, List.map_map]
  rfl

end Context

end NativeTyping
