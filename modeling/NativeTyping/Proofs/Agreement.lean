import NativeTyping.Visit.Assignment
/-!
What an expression sees of an environment.

The type of an expression depends on the environment through the bindings that a
lookup finds, the present scope and the registries, and on nothing else. Two
environments that agree on these give every expression the same reading, however
they differ in bindings that no lookup from the present position reaches.
-/

namespace NativeTyping

structure Environment.SameView (left right : Environment) : Prop where
  lookup : ∀ name, left.lookup? name = right.lookup? name
  scope : left.currentScope? = right.currentScope?
  classes : left.classes = right.classes
  returns : left.returns = right.returns
  params : left.params = right.params
  captures : left.captures = right.captures
  imports : left.imports = right.imports

namespace Environment.SameView

variable {left right : Environment}

theorem refl (env : Environment) : SameView env env :=
  ⟨fun _ => rfl, rfl, rfl, rfl, rfl, rfl, rfl⟩

/-! ## Registries -/

private theorem resolutionOrder (view : SameView left right) (className : String) :
    left.resolutionOrder className = right.resolutionOrder className := by
  unfold Environment.resolutionOrder
  rw [view.classes]

private theorem classField? (view : SameView left right) (className field : String) :
    left.classField? className field = right.classField? className field := by
  unfold Environment.classField?
  rw [view.resolutionOrder]

private theorem methodReturn? (view : SameView left right) (className method : String) :
    left.methodReturn? className method = right.methodReturn? className method := by
  unfold Environment.methodReturn?
  rw [view.resolutionOrder]

private theorem isProperty (view : SameView left right) (className method : String) :
    left.isProperty className method = right.isProperty className method := by
  unfold Environment.isProperty
  rw [view.resolutionOrder]

theorem fieldOwner (view : SameView left right) (className field : String) :
    left.fieldOwner className field = right.fieldOwner className field := by
  unfold Environment.fieldOwner
  rw [view.resolutionOrder]

private theorem isClass (view : SameView left right) (name : String) :
    left.isClass name = right.isClass name := by
  unfold Environment.isClass
  rw [view.classes]

private theorem resolveFunction? (view : SameView left right) (name : String) :
    left.resolveFunction? name = right.resolveFunction? name := by
  unfold Environment.resolveFunction? Environment.functionCandidates
  rw [view.scope, view.returns]

private theorem functionType (view : SameView left right) (function : String) :
    left.functionType function = right.functionType function := by
  unfold Environment.functionType
  rw [view.returns, view.captures, view.params]

/-! ## Operators -/

theorem binaryType (view : SameView left right) (op : BinaryOp) (first second : Ty) :
    left.binaryType op first second = right.binaryType op first second := by
  have own : left.methodReturn? = right.methodReturn? := by
    funext className method
    exact view.methodReturn? className method
  unfold Environment.binaryType
  rw [own]

private theorem subscriptType (view : SameView left right) (index : Expr) (base : Ty) :
    left.subscriptType index base = right.subscriptType index base := by
  induction base using Environment.subscriptType.induct with
  | _ => simp_all [Environment.subscriptType, view.methodReturn?]

end Environment.SameView

/-! ## Contexts -/

/-- Two contexts that no expression tells apart. Of the configuration, expressions see
only whether there are literal arrays. -/
structure Context.Agrees (left right : Context) : Prop where
  literalArrays : left.config.literalArrays = right.config.literalArrays
  currentClass : left.currentClass = right.currentClass
  privates : left.privates = right.privates
  view : left.env.SameView right.env

private theorem Setting.context_agrees (setting : Setting) {left right : Environment}
    (view : left.SameView right) : (setting.context left).Agrees (setting.context right) :=
  ⟨rfl, rfl, rfl, view⟩

namespace Context.Agrees

variable {left right : Context}

private theorem bindPrivates (agrees : left.Agrees right) (bindings : List (String × Ty)) :
    (left.bindPrivates bindings).Agrees (right.bindPrivates bindings) := by
  refine ⟨agrees.literalArrays, agrees.currentClass, ?_, agrees.view⟩
  unfold Context.bindPrivates
  rw [agrees.privates]

private theorem isBound (agrees : left.Agrees right) (name : String) :
    left.isBound name = right.isBound name := by
  unfold Context.isBound
  rw [agrees.privates, agrees.view.lookup]

private theorem functionValue? (agrees : left.Agrees right) (name : String) :
    left.functionValue? name = right.functionValue? name := by
  unfold Context.functionValue?
  rw [agrees.view.resolveFunction?]
  simp only [agrees.view.functionType]

private theorem lookupName (agrees : left.Agrees right) (name : String) :
    left.lookupName name = right.lookupName name := by
  unfold Context.lookupName
  rw [agrees.privates, agrees.view.lookup, agrees.functionValue?]

private theorem isTaken (agrees : left.Agrees right) (name : String) :
    left.isTaken name = right.isTaken name := by
  unfold Context.isTaken
  rw [agrees.isBound, agrees.view.resolveFunction?, agrees.view.isClass]

private theorem modulePath? (agrees : left.Agrees right) (dotted : String) :
    left.modulePath? dotted = right.modulePath? dotted := by
  unfold Context.modulePath?
  simp only [agrees.isBound, agrees.view.imports]

/-! ### Calls -/

private theorem calledValue? (agrees : left.Agrees right) (callee : Ty) :
    left.calledValue? callee = right.calledValue? callee := by
  cases callee <;>
    simp only [Context.calledValue?, agrees.view.returns, agrees.view.methodReturn?]

private theorem currentClassInfo? (agrees : left.Agrees right) :
    left.currentClassInfo? = right.currentClassInfo? := by
  unfold Context.currentClassInfo?
  rw [agrees.currentClass, agrees.view.classes]

private theorem calledDefinition? (agrees : left.Agrees right) (name : String) :
    left.calledDefinition? name = right.calledDefinition? name := by
  unfold Context.calledDefinition?
  rw [agrees.isBound, agrees.view.isClass, agrees.view.resolveFunction?, agrees.view.returns]

private theorem calledSuper? (agrees : left.Agrees right) (name : String) :
    left.calledSuper? name = right.calledSuper? name := by
  unfold Context.calledSuper?
  rw [agrees.currentClassInfo?]

private theorem importedFunction? (agrees : left.Agrees right) (name : String) :
    left.importedFunction? name = right.importedFunction? name := by
  unfold Context.importedFunction?
  rw [agrees.view.imports]

private theorem callType (agrees : left.Agrees right) (name : String) (args : List Ty)
    (exprs : List Expr) (keywords : List Ty) :
    left.callType name args exprs keywords = right.callType name args exprs keywords := by
  unfold Context.callType
  rw [agrees.calledDefinition?, agrees.lookupName, agrees.calledValue?, agrees.calledSuper?,
    agrees.importedFunction?]

private theorem callItem (agrees : left.Agrees right) (name : String) (args : List Reading)
    (value : Ty) : left.callItem name args value = right.callItem name args value := by
  unfold Context.callItem
  rw [agrees.isTaken]

private theorem superMethod? (agrees : left.Agrees right) (method : String) :
    left.superMethod? method = right.superMethod? method := by
  unfold Context.superMethod?
  simp only [agrees.currentClassInfo?, agrees.view.methodReturn?]

private theorem instanceMethod? (agrees : left.Agrees right) (className method : String) :
    left.instanceMethod? className method = right.instanceMethod? className method := by
  unfold Context.instanceMethod?
  rw [agrees.view.methodReturn?, agrees.view.classField?, agrees.view.returns]

private theorem isSuperCall (agrees : left.Agrees right) (receiver : Expr) :
    left.isSuperCall receiver = right.isSuperCall receiver := by
  cases receiver <;> simp only [Context.isSuperCall, agrees.isBound]

private theorem dottedCall? (agrees : left.Agrees right) (dotted method : String) (args : List Ty)
    (exprs : List Expr) :
    left.dottedCall? dotted method args exprs = right.dottedCall? dotted method args exprs := by
  unfold Context.dottedCall?
  rw [agrees.modulePath?, agrees.isBound, agrees.view.returns]

private theorem receiverCall (agrees : left.Agrees right) (receiver : Ty) (method : String)
    (args : List Ty) :
    left.receiverCall receiver method args = right.receiverCall receiver method args := by
  unfold Context.receiverCall
  simp only [agrees.instanceMethod?]

private theorem methodCallType (agrees : left.Agrees right) (receiver : Expr) (receiverType : Ty)
    (method : String) (args : List Ty) (exprs : List Expr) :
    left.methodCallType receiver receiverType method args exprs =
      right.methodCallType receiver receiverType method args exprs := by
  unfold Context.methodCallType
  simp only [agrees.isSuperCall, agrees.superMethod?, agrees.dottedCall?, agrees.receiverCall]

/-! ### Attributes -/

private theorem instanceAttribute (agrees : left.Agrees right) (className attr : String) :
    left.instanceAttribute className attr = right.instanceAttribute className attr := by
  unfold Context.instanceAttribute
  rw [agrees.view.classField?, agrees.view.isProperty, agrees.view.methodReturn?]

private theorem valueAttribute (agrees : left.Agrees right) (value : Ty) (attr : String) :
    left.valueAttribute value attr = right.valueAttribute value attr := by
  cases value <;> simp only [Context.valueAttribute, agrees.instanceAttribute]

private theorem namedClass? (agrees : left.Agrees right) (value : Expr) :
    left.namedClass? value = right.namedClass? value := by
  cases value <;> simp only [Context.namedClass?, agrees.view.isClass, agrees.isBound]

private theorem attributeType (agrees : left.Agrees right) (value : Expr) (valueType : Ty)
    (attr : String) :
    left.attributeType value valueType attr = right.attributeType value valueType attr := by
  have path : left.modulePath? = right.modulePath? := by
    funext dotted
    exact agrees.modulePath? dotted
  unfold Context.attributeType
  rw [path, agrees.namedClass?]
  simp only [agrees.view.classField?, agrees.valueAttribute]

end Context.Agrees

/-! ## Expressions

The induction is over the expression and its lists of parts, for all pairs of
contexts that agree: the generators of a comprehension extend both in the same way.
-/

mutual

theorem Expr.read_eq (expr : Expr) {left right : Context} (agrees : left.Agrees right) :
    expr.read left = expr.read right := by
  match expr with
  | .literal value => rfl
  | .name id => simp only [Expr.read, agrees.lookupName]
  | .binary op first second =>
      simp only [Expr.read, first.read_eq agrees, second.read_eq agrees,
        agrees.view.binaryType]
  | .unary op operand => simp only [Expr.read, operand.read_eq agrees]
  | .compare first ops comparators => rfl
  | .connective op values => simp only [Expr.read, Expr.readEach_eq values agrees]
  | .call function args keywords =>
      simp only [Expr.read, Expr.readEach_eq args agrees, Expr.readKeywords_eq keywords agrees,
        agrees.callType, agrees.callItem]
  | .methodCall receiver method args keywords =>
      simp only [Expr.read, receiver.read_eq agrees, Expr.readEach_eq args agrees,
        agrees.methodCallType]
  | .dynamicCall callee args =>
      simp only [Expr.read, callee.read_eq agrees, agrees.calledValue?]
  | .attribute value attr =>
      simp only [Expr.read, value.read_eq agrees, agrees.attributeType]
  | .subscript base index =>
      simp only [Expr.read, base.read_eq agrees, agrees.view.subscriptType]
  | .slice base start stop step => simp only [Expr.read, base.read_eq agrees]
  | .list items =>
      simp only [Expr.read, Expr.readEach_eq items agrees, Ty.listDisplay, agrees.literalArrays]
  | .tuple items => simp only [Expr.read, Expr.readEach_eq items agrees]
  | .set items => simp only [Expr.read, Expr.readEach_eq items agrees]
  | .dict items => simp only [Expr.read, Expr.readValues_eq items agrees]
  | .comprehension kind element generators =>
      simp only [Expr.read, element.read_eq (Expr.bindGenerators_agrees generators agrees)]
  | .dictComprehension key value generators =>
      simp only [Expr.read, key.read_eq (Expr.bindGenerators_agrees generators agrees),
        value.read_eq (Expr.bindGenerators_agrees generators agrees)]
  | .lambda params body => rfl
  | .conditional test body orelse =>
      simp only [Expr.read, body.read_eq agrees, orelse.read_eq agrees]
  | .formatted parts => rfl
  | .await value => simp only [Expr.read, value.read_eq agrees]
  | .yield value => rfl
  | .starred value => simp only [Expr.read, value.read_eq agrees]

theorem Expr.readEach_eq (exprs : List Expr) {left right : Context}
    (agrees : left.Agrees right) : Expr.readEach exprs left = Expr.readEach exprs right := by
  cases exprs with
  | nil => rfl
  | cons expr rest =>
      simp only [Expr.readEach, expr.read_eq agrees, Expr.readEach_eq rest agrees]

theorem Expr.readKeywords_eq (keywords : List (String × Expr)) {left right : Context}
    (agrees : left.Agrees right) :
    Expr.readKeywords keywords left = Expr.readKeywords keywords right := by
  cases keywords with
  | nil => rfl
  | cons keyword rest =>
      rcases keyword with ⟨name, value⟩
      simp only [Expr.readKeywords, value.read_eq agrees, Expr.readKeywords_eq rest agrees]

theorem Expr.readValues_eq (items : List (Expr × Expr)) {left right : Context}
    (agrees : left.Agrees right) : Expr.readValues items left = Expr.readValues items right := by
  cases items with
  | nil => rfl
  | cons item rest =>
      rcases item with ⟨key, value⟩
      simp only [Expr.readValues, value.read_eq agrees, Expr.readValues_eq rest agrees]

theorem Expr.bindGenerators_agrees (generators : List Generator) {left right : Context}
    (agrees : left.Agrees right) :
    (Expr.bindGenerators generators left).Agrees (Expr.bindGenerators generators right) := by
  cases generators with
  | nil => exact agrees
  | cons generator rest =>
      rcases generator with ⟨target, iter, conditions⟩
      simp only [Expr.bindGenerators, iter.read_eq agrees]
      exact Expr.bindGenerators_agrees rest (agrees.bindPrivates _)

end

/-! ## Statements -/

namespace Environment.SameView

variable {left right : Environment}

theorem infer (view : left.SameView right) (setting : Setting) (expr : Expr) :
    setting.infer left expr = setting.infer right expr :=
  congrArg Reading.value (expr.read_eq (setting.context_agrees view))

theorem iterationItem (view : left.SameView right) (setting : Setting) (expr : Expr) :
    (setting.context left).iterationItem expr = (setting.context right).iterationItem expr :=
  congrArg Reading.item (expr.read_eq (setting.context_agrees view))

theorem targetType (view : left.SameView right) (setting : Setting) (target : Target) :
    setting.targetType left target = setting.targetType right target := by
  match target with
  | .place (.name id) => exact (setting.context_agrees view).lookupName id
  | .place (.attribute value attr) => exact view.infer setting (.attribute value attr)
  | .place (.subscript base index) =>
      simp only [Setting.targetType, view.infer setting, view.subscriptType]
  | .tuple items => rfl
  | .starred inner => rfl

theorem enteredType (view : left.SameView right) (manager : Ty) :
    Setting.enteredType left manager = Setting.enteredType right manager := by
  unfold Setting.enteredType
  simp only [view.methodReturn?]

end Environment.SameView

end NativeTyping
