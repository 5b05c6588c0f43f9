import NativeTyping.Inference.Expr
import NativeTyping.Proofs.Fitness.Rule
import NativeTyping.Proofs.Table
/-!
Reading an expression against an environment that fits gives types that fit.

Variables and the arguments of constructors may be held for a while. Fields, results and
parameters last, so what is found through a class or a function lasts as well. New
closures come up in one place only: where a bare name stands for a registered function
that captures variables.
-/

namespace NativeTyping

/-! ## Environments that fit -/

structure ClassInfo.Fits (material : Material) (info : ClassInfo) : Prop where
  fields : info.fields.All fun type => type.Fits material .lasting
  methods : info.methods.All fun result => result.Fits material .lasting

/-- A function with a registered result that captures at least one variable. -/
def Environment.IsClosure (env : Environment) (function : String) : Prop :=
  function ∈ env.returns.keys ∧
    ∃ captured, env.captures.get? function = some captured ∧ captured.names ≠ []

structure Environment.Fits (material : Material) (env : Environment) : Prop where
  globals : env.globals.All fun type => type.Fits material .passing
  scopes : env.scopes.All fun bindings => bindings.All fun type => type.Fits material .passing
  classes : env.classes.All fun info => info.Fits material
  returns : env.returns.All fun result => result.Fits material .lasting
  params : env.params.All fun types => ∀ type ∈ types, type.Fits material .lasting
  constructorArgs : env.constructorArgs.All fun types => ∀ type ∈ types, type.Fits material .passing
  closures : ∀ function, env.IsClosure function ↔ material.closures function

variable {material : Material}

namespace Environment

private theorem forall_resolvePending {holds : ClassInfo → Prop} (steps : Nat)
    {classes : Table ClassInfo} (all : classes.All holds) (pending : List String) :
    ∀ info ∈ resolvePending steps classes pending, holds info := by
  induction steps, classes, pending using resolvePending.induct with
  | case1 | case2 => simp [resolvePending]
  | case3 steps classes name pending missing induction =>
      simpa only [resolvePending, missing] using induction all
  | case4 steps classes name pending info found induction =>
      simp only [resolvePending, found, List.forall_mem_cons]
      exact ⟨all.get? name info found, induction (all.erase name)⟩

namespace Fits

variable {env : Environment}

private theorem resolutionOrder (fits : env.Fits material) (className : String) :
    ∀ info ∈ env.resolutionOrder className, info.Fits material :=
  forall_resolvePending _ fits.classes _

private theorem classField? (fits : env.Fits material) (className field : String) :
    ∀ type ∈ env.classField? className field, type.Fits material .lasting := by
  intro type found
  rcases List.exists_of_findSome?_eq_some found with ⟨info, member, inClass⟩
  exact (fits.resolutionOrder className info member).fields.get? field type inClass

theorem methodReturn? (fits : env.Fits material) (className method : String) :
    ∀ result ∈ env.methodReturn? className method, result.Fits material .lasting := by
  intro result found
  rcases List.exists_of_findSome?_eq_some found with ⟨info, member, inClass⟩
  exact (fits.resolutionOrder className info member).methods.get? method result inClass

/-- A function as a value is a closure of the material, or has a type that lasts. -/
theorem functionType (fits : env.Fits material) (function : String) :
    ∀ type ∈ (env.functionType function).toOption, type.Fits material .lasting := by
  intro type found
  unfold Environment.functionType at found
  split at found
  · cases found
  · rename_i result registered
    have registeredKey : function ∈ env.returns.keys := by
      rw [← Table.contains_iff_mem_keys, Table.contains, registered]
      rfl
    split at found
    · rename_i first rest distinct isCaptured
      cases found
      exact (fits.closures function).mp ⟨registeredKey, _, isCaptured, List.cons_ne_nil first rest⟩
    · cases found
      apply Ty.function_fits_iff.mpr
      constructor
      · intro param member
        cases known : env.params.get? function with
        | none => simp [known] at member
        | some types =>
            rw [known] at member
            exact fits.params.get? function types known param member
      · exact fits.returns.get? function result registered

private theorem bindings (fits : env.Fits material) (owner : Owner) :
    (env.bindings owner).All fun type => type.Fits material .passing := by
  cases owner with
  | program => exact fits.globals
  | scope name => exact Table.All.getD_empty (fits.scopes.get? name)

private theorem lookup? (fits : env.Fits material) (name : String) :
    ∀ type ∈ env.lookup? name, type.Fits material .passing := by
  intro type found
  rcases Option.bind_eq_some_iff.mp found with ⟨owner, _, isBound⟩
  exact (fits.bindings owner).get? name type isBound

/-! ## Operators -/

variable {left right : Ty}

theorem binaryType (fits : env.Fits material) (op : BinaryOp)
    (leftFits : left.Fits material .passing) (rightFits : right.Fits material .passing) :
    (env.binaryType op left right).Fits material .passing := by
  have builtin := Ty.operatorType_fits op leftFits rightFits
  unfold Environment.binaryType
  dsimp only
  split
  · rename_i className
    cases own : op.method?.bind (env.methodReturn? className) with
    | none => exact builtin
    | some result =>
        rcases Option.bind_eq_some_iff.mp own with ⟨method, _, found⟩
        exact (fits.methodReturn? className method result found).passing
  · exact builtin

theorem subscriptType (fits : env.Fits material) (index : Expr) {base : Ty}
    (baseFits : base.Fits material .passing) :
    (env.subscriptType index base).Fits material .passing := by
  induction base using Environment.subscriptType.induct with
  | case1 kind => exact Ty.str_fits .slice
  | case2 element length => exact baseFits.2
  | case3 element => exact baseFits
  | case4 key value => exact baseFits.2
  | case5 elements =>
      apply Ty.fits_orUnknown
      intro element found
      rcases Option.bind_eq_some_iff.mp found with ⟨position, _, isElement⟩
      exact Ty.tupleElement?_fits (Ty.tuple_fits_iff.mp baseFits) position element isElement
  | case6 inner induction => exact induction baseFits
  | case7 className =>
      exact (Ty.fits_orUnknown (fits.methodReturn? className "__getitem__")).passing
  | case8 => simp_all [Environment.subscriptType, Ty.unknown_fits]

end Fits

end Environment

/-! ## Contexts that fit -/

structure Context.Fits (material : Material) (context : Context) : Prop where
  arrays : context.config.literalArrays = true → material.arrays
  env : context.env.Fits material
  privates : ∀ binding ∈ context.privates, binding.2.Fits material .passing

namespace Context.Fits

variable {context : Context}

private theorem bindPrivates (fits : context.Fits material) {bindings : List (String × Ty)}
    (fit : ∀ binding ∈ bindings, binding.2.Fits material .passing) :
    (context.bindPrivates bindings).Fits material := by
  refine ⟨fits.arrays, fits.env, ?_⟩
  intro binding member
  rcases List.mem_append.mp member with added | present
  · exact fit binding (List.mem_reverse.mp added)
  · exact fits.privates binding present

theorem lookupName (fits : context.Fits material) (name : String) :
    (context.lookupName name).Fits material .passing := by
  have hidden : ∀ type ∈ context.privates.lookup name, type.Fits material .passing := by
    intro type found
    rcases List.lookup_eq_some_iff.mp found with ⟨before, after, split, _⟩
    exact fits.privates (name, type) (by simp [split])
  have function : ∀ type ∈ context.functionValue? name, type.Fits material .passing := by
    intro type found
    rcases Option.bind_eq_some_iff.mp found with ⟨qualified, _, isFunction⟩
    exact (fits.env.functionType qualified type isFunction).passing
  apply Ty.fits_orUnknown
  exact forall_mem_or hidden (forall_mem_or (fits.env.lookup? name) function)

/-! ### Calls -/

private theorem calledValue? (fits : context.Fits material) {callee : Ty} {lifetime : Lifetime}
    (calleeFits : callee.Fits material lifetime) :
    ∀ result ∈ context.calledValue? callee, result.Fits material .lasting := by
  intro result found
  cases callee with
  | function params result =>
      cases found
      exact calleeFits.2
  | closure name =>
      cases found
      exact Ty.fits_orUnknown (fits.env.returns.get? name)
  | object className =>
      cases found
      exact Ty.fits_orUnknown (fits.env.methodReturn? className "__call__")
  | _ => cases found

private theorem calledDefinition? (fits : context.Fits material) (name : String) :
    ∀ result ∈ context.calledDefinition? name, result.Fits material .lasting := by
  intro result found
  unfold Context.calledDefinition? at found
  split at found
  · cases found
  split at found
  · cases found
    trivial
  · rcases Option.map_eq_some_iff.mp found with ⟨function, _, rfl⟩
    exact Ty.fits_orUnknown (fits.env.returns.get? function)

private theorem calledSuper?_fits (context : Context) (name : String) {lifetime : Lifetime} :
    ∀ base ∈ context.calledSuper? name, base.Fits material lifetime := by
  intro base found
  unfold Context.calledSuper? at found
  split at found
  · cases found
    apply Ty.fits_orUnknown
    intro object isBase
    rcases Option.map_eq_some_iff.mp isBase with ⟨className, _, rfl⟩
    trivial
  · cases found

private theorem importedFunction?_fits (context : Context) (name : String) :
    ∀ rule ∈ context.importedFunction? name, rule.Fits material := by
  intro rule found
  simp only [Context.importedFunction?, Option.bind_eq_bind, Option.mem_def,
    Option.bind_eq_some_iff] at found
  rcases found with ⟨target, _, ⟨source, function⟩, _, inModule⟩
  exact Library.moduleFunction?_fits source function rule inModule

private theorem keywordDict?_fits (name : String) (args : List Ty) {keywords : List Ty}
    (fit : ∀ type ∈ keywords, type.Fits material .passing) :
    ∀ dict ∈ keywordDict? name args keywords, dict.Fits material .passing := by
  intro dict found
  unfold keywordDict? at found
  split at found
  · cases found
    exact ⟨Ty.text_fits, (Ty.fits_widenAll fit).owned.passing⟩
  · cases found

private theorem calledException?_fits (name : String) {lifetime : Lifetime} :
    ∀ exception ∈ calledException? name, exception.Fits material lifetime := by
  intro exception found
  unfold calledException? at found
  split at found
  · cases found
    trivial
  · cases found

private theorem forall_mem_applied {rule? : Option ReturnRule}
    (ruleFits : ∀ rule ∈ rule?, rule.Fits material) {args : List Ty}
    (fit : ∀ type ∈ args, type.Fits material .passing) (exprs : List Expr) :
    ∀ result ∈ rule?.map fun rule => rule.apply args exprs, result.Fits material .passing := by
  intro result found
  rcases Option.map_eq_some_iff.mp found with ⟨rule, isRule, rfl⟩
  exact ReturnRule.apply_fits (ruleFits rule isRule) fit exprs

variable {args : List Ty}

private theorem callType (fits : context.Fits material) (name : String)
    (fit : ∀ type ∈ args, type.Fits material .passing) (exprs : List Expr) {keywords : List Ty}
    (keywordsFit : ∀ type ∈ keywords, type.Fits material .passing) :
    (context.callType name args exprs keywords).Fits material .passing := by
  have definition : ∀ result ∈ context.calledDefinition? name, result.Fits material .passing :=
    fun result found => (fits.calledDefinition? name result found).passing
  have value : ∀ result ∈ context.calledValue? (context.lookupName name),
      result.Fits material .passing :=
    fun result found => (fits.calledValue? (fits.lookupName name) result found).passing
  have imported := forall_mem_applied (importedFunction?_fits context name) fit exprs
  have builtin := forall_mem_applied (Library.builtinFunction?_fits name) fit exprs
  apply Ty.fits_orUnknown
  apply forall_mem_or definition
  apply forall_mem_or value
  apply forall_mem_or (calledSuper?_fits context name)
  apply forall_mem_or imported
  apply forall_mem_or (keywordDict?_fits name args keywordsFit)
  exact forall_mem_or builtin (calledException?_fits name)

private theorem superMethod? (fits : context.Fits material) (method : String) :
    ∀ result ∈ context.superMethod? method, result.Fits material .lasting := by
  intro result found
  rcases Option.bind_eq_some_iff.mp found with ⟨info, _, inBases⟩
  rcases List.exists_of_findSome?_eq_some inBases with ⟨base, _, isMethod⟩
  exact fits.env.methodReturn? base method result isMethod

private theorem instanceMethod? (fits : context.Fits material) (className method : String) :
    ∀ result ∈ context.instanceMethod? className method, result.Fits material .lasting := by
  apply forall_mem_or (fits.env.methodReturn? className method)
  intro result found
  split at found
  · rename_i params kept isField
    cases found
    exact (fits.env.classField? className method _ isField).2
  · rename_i name _
    exact fits.env.returns.get? name result found
  · cases found

private theorem dottedCall? (fits : context.Fits material) (dotted method : String)
    (fit : ∀ type ∈ args, type.Fits material .passing) (exprs : List Expr) :
    ∀ result ∈ context.dottedCall? dotted method args exprs, result.Fits material .passing := by
  have registered : ∀ function, ∀ result ∈ context.env.returns.get? function,
      result.Fits material .passing :=
    fun function result found => (fits.env.returns.get? function result found).passing
  intro result found
  unfold Context.dottedCall? at found
  split at found
  · rename_i path _
    cases found
    have inModule := forall_mem_applied (Library.moduleFunction?_fits path method) fit exprs
    exact Ty.fits_orUnknown (forall_mem_or (registered _) inModule)
  split at found
  · cases found
  · exact registered _ result found

private theorem receiverCall (fits : context.Fits material) {receiver : Ty}
    (receiverFits : receiver.Fits material .passing) (method : String)
    (fit : ∀ type ∈ args, type.Fits material .passing) :
    (context.receiverCall receiver method args).Fits material .passing := by
  -- An optional receiver is called through; all that matters is that its type fits.
  have presentFits : receiver.present.Fits material .passing := by
    cases receiver <;> exact receiverFits
  unfold Context.receiverCall
  apply Ty.fits_orUnknown
  apply forall_mem_or (Library.builtinMethod?_fits presentFits method fit)
  intro result found
  split at found
  · rename_i facility _
    exact (facility.method?_fits method result found).passing
  · rename_i className _
    exact (fits.instanceMethod? className method result found).passing
  · cases found

private theorem methodCallType (fits : context.Fits material) (receiver : Expr) {receiverType : Ty}
    (receiverFits : receiverType.Fits material .passing) (method : String)
    (fit : ∀ type ∈ args, type.Fits material .passing) (exprs : List Expr) :
    (context.methodCallType receiver receiverType method args exprs).Fits material .passing := by
  unfold Context.methodCallType
  split
  · exact (Ty.fits_orUnknown (fits.superMethod? method)).passing
  cases called : receiver.dottedName?.bind fun dotted =>
      context.dottedCall? dotted method args exprs with
  | none => exact fits.receiverCall receiverFits method fit
  | some result =>
      rcases Option.bind_eq_some_iff.mp called with ⟨dotted, _, isCall⟩
      exact fits.dottedCall? dotted method fit exprs result isCall

/-! ### Attributes -/

private theorem instanceAttribute (fits : context.Fits material) (className attr : String) :
    (context.instanceAttribute className attr).Fits material .lasting := by
  unfold Context.instanceAttribute
  split
  · rename_i type isField
    exact fits.env.classField? className attr type isField
  split
  · exact Ty.fits_orUnknown (fits.env.methodReturn? className attr)
  · trivial

private theorem valueAttribute (fits : context.Fits material) (value : Ty) (attr : String) :
    (context.valueAttribute value attr).Fits material .lasting := by
  unfold Context.valueAttribute
  split
  · exact fits.instanceAttribute _ attr
  · exact Ty.fits_orUnknown (Facility.attribute?_fits _ attr)
  · split <;> trivial
  · split <;> trivial
  · trivial

/-- An attribute lasts, or is a string: some constants of modules are literals. -/
theorem attributeType (fits : context.Fits material) (value : Expr) (valueType : Ty)
    (attr : String) :
    (context.attributeType value valueType attr).Fits material .lasting ∨
      (context.attributeType value valueType attr).isString = true := by
  unfold Context.attributeType
  split
  · rename_i path _
    cases constant : Library.moduleConstant? (Dotted.join path attr) with
    | none => exact .inl Ty.unknown_fits
    | some type => exact Library.moduleConstant?_fits _ type constant
  split
  · exact .inl (Ty.fits_orUnknown (fits.env.classField? _ attr))
  · exact .inl (fits.valueAttribute valueType attr)

end Context.Fits

/-! ## Expressions -/

structure Reading.Fits (material : Material) (reading : Reading) : Prop where
  value : reading.value.Fits material .passing
  item : reading.item.Fits material .passing

private theorem Reading.ofValue_fits {value : Ty} (fits : value.Fits material .passing) :
    (Reading.ofValue value).Fits material :=
  ⟨fits, fits.iterElement⟩

private theorem Literal.type_fits (literal : Literal) : literal.type.Fits material .passing := by
  cases literal <;> simp [Literal.type, Ty.Fits]

namespace Context

variable {context : Context} {readings : List Reading}

private theorem callItem_fits (name : String) (fit : ∀ reading ∈ readings, reading.Fits material)
    {value : Ty} (valueFits : value.Fits material .passing) :
    (context.callItem name readings value).Fits material .passing := by
  have items : ∀ item ∈ readings.map Reading.item, item.Fits material .passing := by
    intro item member
    rcases List.mem_map.mp member with ⟨reading, isReading, rfl⟩
    exact (fit reading isReading).item
  unfold callItem
  dsimp only
  split
  · exact valueFits.iterElement
  generalize readings.map Reading.item = types at items
  have first : (Ty.orUnknown types.head?).Fits material .passing :=
    Ty.fits_orUnknown fun item isFirst => items item (List.mem_of_mem_head? isFirst)
  split
  · split <;> trivial
  · exact Ty.tuple_fits_iff.mpr (by simpa [Ty.Fits] using first)
  · exact Ty.tuple_fits_iff.mpr items
  · exact first
  · exact first
  · exact first
  · exact valueFits.iterElement

private theorem methodItem_fits {receiver : Ty} (receiverFits : receiver.Fits material .passing)
    (method : String) (readings : List Reading) {value : Ty}
    (valueFits : value.Fits material .passing) :
    (methodItem receiver method readings value).Fits material .passing := by
  unfold methodItem
  split
  · exact ⟨receiverFits.1.passing, receiverFits.2, trivial⟩
  · exact receiverFits.1.passing
  · exact receiverFits.2
  · exact valueFits.iterElement

end Context

private theorem Reading.forall_value {readings : List Reading}
    (fit : ∀ reading ∈ readings, reading.Fits material) :
    ∀ type ∈ readings.map Reading.value, type.Fits material .passing := by
  intro type member
  rcases List.mem_map.mp member with ⟨reading, isReading, rfl⟩
  exact (fit reading isReading).value

/-! The induction is over the expression and its lists of parts, for all contexts that fit:
the generators of a comprehension bind names to types that fit. -/

mutual

theorem Expr.read_fits (expr : Expr) {context : Context} (fits : context.Fits material) :
    (expr.read context).Fits material := by
  match expr with
  | .literal value => exact Reading.ofValue_fits value.type_fits
  | .name id => exact Reading.ofValue_fits (fits.lookupName id)
  | .binary op left right =>
      have leftFits := (left.read_fits fits).value
      have rightFits := (right.read_fits fits).value
      exact Reading.ofValue_fits (fits.env.binaryType op leftFits rightFits)
  | .unary op operand =>
      exact Reading.ofValue_fits (Ty.unaryType_fits op (operand.read_fits fits).value)
  | .compare left ops comparators => exact Reading.ofValue_fits trivial
  | .connective op values =>
      have valuesFit := Reading.forall_value (Expr.readEach_fits values fits)
      exact Reading.ofValue_fits (Ty.fits_widenAll valuesFit)
  | .call function args keywords =>
      have readings := Expr.readEach_fits args fits
      have value := fits.callType function (Reading.forall_value readings) args
        (Expr.readKeywords_fits keywords fits)
      exact ⟨value, Context.callItem_fits function readings value⟩
  | .methodCall receiver method args keywords =>
      have readings := Expr.readEach_fits args fits
      have receiverFits := (receiver.read_fits fits).value
      have value := fits.methodCallType receiver receiverFits method
        (Reading.forall_value readings) args
      exact ⟨value, Context.methodItem_fits receiverFits method _ value⟩
  | .dynamicCall callee args =>
      have result := Ty.fits_orUnknown (fits.calledValue? (callee.read_fits fits).value)
      exact Reading.ofValue_fits result.passing
  | .attribute value attr =>
      apply Reading.ofValue_fits
      rcases fits.attributeType value (value.read context).value attr with lasts | isString
      · exact lasts.passing
      · exact Ty.fits_of_isString isString
  | .subscript base index =>
      exact Reading.ofValue_fits (fits.env.subscriptType index (base.read_fits fits).value)
  | .slice base start stop step =>
      exact Reading.ofValue_fits (Ty.sliceType_fits (base.read_fits fits).value start stop step)
  | .list items =>
      have itemsFit := Reading.forall_value (Expr.readEach_fits items fits)
      exact Reading.ofValue_fits (Ty.listDisplay_fits fits.arrays items itemsFit)
  | .tuple items =>
      have itemsFit := Reading.forall_value (Expr.readEach_fits items fits)
      exact Reading.ofValue_fits (Ty.tuple_fits_iff.mpr itemsFit)
  | .set items =>
      have itemsFit := Reading.forall_value (Expr.readEach_fits items fits)
      exact Reading.ofValue_fits (Ty.fits_widenAll itemsFit).owned.passing
  | .dict items =>
      have valuesFit := Expr.readValues_fits items fits
      exact Reading.ofValue_fits (Ty.dictDisplay_fits valuesFit)
  | .comprehension kind element generators =>
      have inner := Expr.bindGenerators_fits generators fits
      have elementFits := (element.read_fits inner).value.owned.passing
      cases kind with
      | list | generator | set => exact Reading.ofValue_fits elementFits
  | .dictComprehension key value generators =>
      have inner := Expr.bindGenerators_fits generators fits
      have keyFits := (key.read_fits inner).value.owned
      have valueFits := (value.read_fits inner).value.owned.passing
      exact Reading.ofValue_fits ⟨keyFits, valueFits⟩
  | .lambda params body =>
      apply Reading.ofValue_fits
      apply Ty.function_fits_iff.mpr
      constructor
      · intro param member
        rw [List.eq_of_mem_replicate member]
        trivial
      · trivial
  | .conditional test body orelse =>
      have bodyFits := (body.read_fits fits).value
      have orelseFits := (orelse.read_fits fits).value
      exact Reading.ofValue_fits (bodyFits.widen orelseFits)
  | .formatted parts => exact Reading.ofValue_fits Ty.text_fits
  | .await value => exact Reading.ofValue_fits (value.read_fits fits).value
  | .starred value => exact Reading.ofValue_fits (value.read_fits fits).value
  | .yield value => exact Reading.ofValue_fits Ty.unknown_fits

theorem Expr.readEach_fits (exprs : List Expr) {context : Context} (fits : context.Fits material) :
    ∀ reading ∈ Expr.readEach exprs context, reading.Fits material := by
  cases exprs with
  | nil => simp [Expr.readEach]
  | cons expr rest =>
      rw [Expr.readEach, List.forall_mem_cons]
      exact ⟨expr.read_fits fits, Expr.readEach_fits rest fits⟩

theorem Expr.readKeywords_fits (keywords : List (String × Expr)) {context : Context}
    (fits : context.Fits material) :
    ∀ type ∈ Expr.readKeywords keywords context, type.Fits material .passing := by
  cases keywords with
  | nil => simp [Expr.readKeywords]
  | cons keyword rest =>
      rcases keyword with ⟨name, value⟩
      rw [Expr.readKeywords, List.forall_mem_cons]
      exact ⟨(value.read_fits fits).value, Expr.readKeywords_fits rest fits⟩

theorem Expr.readValues_fits (items : List (Expr × Expr)) {context : Context}
    (fits : context.Fits material) :
    ∀ type ∈ Expr.readValues items context, type.Fits material .passing := by
  cases items with
  | nil => simp [Expr.readValues]
  | cons item rest =>
      rcases item with ⟨key, value⟩
      rw [Expr.readValues, List.forall_mem_cons]
      exact ⟨(value.read_fits fits).value, Expr.readValues_fits rest fits⟩

theorem Expr.bindGenerators_fits (generators : List Generator) {context : Context}
    (fits : context.Fits material) : (Expr.bindGenerators generators context).Fits material := by
  cases generators with
  | nil => exact fits
  | cons generator rest =>
      rcases generator with ⟨target, iter, conditions⟩
      have bindings := target.unpackNames_fit (iter.read_fits fits).item
      exact Expr.bindGenerators_fits rest (fits.bindPrivates bindings)

end

end NativeTyping
