import NativeTyping.Inference.Expr
import NativeTyping.Proofs.Dotted
/-!
Calls of a method of a builtin value.

A method call first asks whether its receiver spells a dotted name that decides the call, and
then looks at the type of the receiver. A name that is no variable, no class and no module has no
type with builtin methods, nor has a chain of attributes that starts with it, so their dotted
names decide nothing that the type would decide otherwise. A constant of a module has such a type,
but its dotted name stands for a member of a module, and the call never comes to the type.
-/

namespace NativeTyping

/-! ## Tables of the library -/

namespace Library

private theorem mem_of_find? {α : Type} {groups : NameGroups α} {name : String} {entry : α}
    (found : groups.find? name = some entry) : name ∈ groups.flatMap Prod.fst := by
  obtain ⟨group, isFirst, -⟩ := Option.map_eq_some_iff.mp found
  have has := List.find?_some isFirst
  exact List.mem_flatMap.mpr ⟨group, List.mem_of_find?_eq_some isFirst, by simpa using has⟩

private theorem moduleFunction?_of_constant {path : String} {type : Ty}
    (constant : moduleConstant? path = some type) (name : String) :
    moduleFunction? path name = none := by
  have unlisted : ∀ path ∈ moduleConstants.flatMap Prod.fst,
      (moduleTables.find? path).isNone = true := by decide +kernel
  have unknown := unlisted path (mem_of_find? constant)
  rw [moduleFunction?, Option.isNone_iff_eq_none.mp unknown, Option.bind_none]

end Library

/-! ## Chains of attributes -/

def Expr.rootName? : Expr → Option String
  | .name id => some id
  | .attribute value _ => value.rootName?
  | _ => none

private theorem Expr.head_dottedName {expr : Expr} {dotted : String}
    (isChain : expr.dottedName? = some dotted) :
    ∃ root, expr.rootName? = some root ∧ Dotted.head dotted = Dotted.head root := by
  induction expr using Expr.dottedName?.induct generalizing dotted with
  | case1 id =>
      cases isChain
      exact ⟨id, rfl, rfl⟩
  | case2 value attr induction =>
      obtain ⟨base, isBase, rfl⟩ := Option.map_eq_some_iff.mp isChain
      obtain ⟨root, isRoot, same⟩ := induction isBase
      exact ⟨root, isRoot, (Dotted.head_join base attr).trans same⟩
  | case3 expr noName noAttribute =>
      rw [dottedName?] at isChain
      · cases isChain
      · exact noName
      · exact noAttribute

namespace Context

def modulePathOf? (context : Context) (expr : Expr) : Option String :=
  expr.dottedName?.bind context.modulePath?

variable {context : Context}

private theorem modulePath?_of_bound {dotted : String}
    (bound : context.isBound (Dotted.head dotted) = true) : context.modulePath? dotted = none :=
  if_pos bound

private theorem isBound_of_modulePath {dotted path : String}
    (isPath : context.modulePath? dotted = some path) :
    context.isBound (Dotted.head dotted) = false := by
  rw [← Bool.not_eq_true]
  intro bound
  rw [modulePath?_of_bound bound] at isPath
  cases isPath

private theorem modulePath?_join (dotted attr : String) :
    context.modulePath? (Dotted.join dotted attr) =
      (context.modulePath? dotted).map (Dotted.join · attr) := by
  simp only [modulePath?, Dotted.splitFirst_join]
  split
  · rfl
  · rw [Option.map_map]
    congr 1
    funext base
    cases (Dotted.splitFirst dotted).2 with
    | none => rfl
    | some rest => exact (Dotted.join_assoc base rest attr).symm

private theorem modulePathOf?_attribute (value : Expr) (attr : String) :
    context.modulePathOf? (.attribute value attr) =
      (context.modulePathOf? value).map (Dotted.join · attr) := by
  rw [modulePathOf?, Expr.dottedName?, modulePathOf?]
  cases value.dottedName? with
  | none => rfl
  | some dotted => exact modulePath?_join dotted attr

private theorem infer_attribute_of_modulePath {value : Expr} {attr path : String}
    (isMember : context.modulePathOf? (.attribute value attr) = some path) :
    context.infer (.attribute value attr) = Ty.orUnknown (Library.moduleConstant? path) := by
  rw [modulePathOf?_attribute] at isMember
  obtain ⟨base, isModule, rfl⟩ := Option.map_eq_some_iff.mp isMember
  have inModule : value.dottedName?.bind context.modulePath? = some base := isModule
  rw [infer, Expr.read, Reading.ofValue, attributeType, inModule]

/-! ## Names that are no variables -/

private theorem isFunctionLike_functionValue {id : String} {type : Ty}
    (found : context.functionValue? id = some type) : type.isFunctionLike = true := by
  obtain ⟨function, -, isType⟩ := Option.bind_eq_some_iff.mp found
  unfold Environment.functionType at isType
  split at isType
  · cases isType
  · split at isType <;> cases isType <;> rfl

private theorem lookupName_of_unbound {id : String} (unbound : context.isBound id = false) :
    context.lookupName id = .unknown ∨ (context.lookupName id).isFunctionLike = true := by
  have noVariable : context.privates.lookup id = none ∧ context.env.lookup? id = none := by
    simpa [isBound] using unbound
  rw [lookupName, noVariable.1, noVariable.2, Option.none_or, Option.none_or]
  cases found : context.functionValue? id with
  | none => exact .inl rfl
  | some type => exact .inr (isFunctionLike_functionValue found)

private theorem valueAttribute_of_function {type : Ty}
    (noValue : type = .unknown ∨ type.isFunctionLike = true) (attr : String) :
    context.valueAttribute type attr = .unknown := by
  cases type <;> simp_all [Ty.isFunctionLike, valueAttribute]

private theorem builtinMethod?_of_function {type : Ty}
    (noValue : type = .unknown ∨ type.isFunctionLike = true) (method : String) (args : List Ty) :
    Library.builtinMethod? type.present method args = none := by
  cases type <;> simp_all [Ty.isFunctionLike, Ty.present] <;> rfl

/-- A chain of attributes has no value that is known, if it starts with a name that is no
variable, no class and no module. -/
theorem infer_of_unbound_root {expr : Expr} {root : String} (isRoot : expr.rootName? = some root)
    (unbound : context.isBound root = false) (noClass : context.namedClass? (.name root) = none)
    (noModule : context.modulePathOf? expr = none) :
    context.infer expr = .unknown ∨ (context.infer expr).isFunctionLike = true := by
  induction expr using Expr.rootName?.induct with
  | case1 id =>
      cases isRoot
      exact lookupName_of_unbound unbound
  | case2 value attr induction =>
      rw [Expr.rootName?] at isRoot
      rw [modulePathOf?_attribute, Option.map_eq_none_iff] at noModule
      have namesNoClass : context.namedClass? value = none := by
        cases value with
        | name id =>
            cases isRoot
            exact noClass
        | _ => rfl
      have outside : value.dottedName?.bind context.modulePath? = none := noModule
      left
      rw [infer, Expr.read, Reading.ofValue, attributeType, outside, namesNoClass]
      exact valueAttribute_of_function (induction isRoot noModule) attr
  | case3 expr noName noAttribute =>
      rw [Expr.rootName?] at isRoot
      · cases isRoot
      · exact noName
      · exact noAttribute

/-- An expression that spells a member of a module is a constant of the module, or has no value
that is known. -/
theorem infer_of_modulePath {expr : Expr} {path : String}
    (plainRoot : ∀ root, expr.rootName? = some root → '.' ∉ root.toList)
    (isMember : context.modulePathOf? expr = some path) :
    Library.moduleConstant? path = some (context.infer expr) ∨
      context.infer expr = .unknown ∨ (context.infer expr).isFunctionLike = true := by
  obtain ⟨dotted, isChain, isPath⟩ := Option.bind_eq_some_iff.mp isMember
  induction expr using Expr.dottedName?.induct with
  | case1 id =>
      cases isChain
      have unbound := isBound_of_modulePath isPath
      rw [Dotted.head_of_plain (plainRoot _ rfl)] at unbound
      exact .inr (lookupName_of_unbound unbound)
  | case2 value attr _ =>
      rw [infer_attribute_of_modulePath isMember]
      cases Library.moduleConstant? path with
      | none => exact .inr (.inl rfl)
      | some type => exact .inl rfl
  | case3 expr noName noAttribute =>
      rw [Expr.dottedName?] at isChain
      · cases isChain
      · exact noName
      · exact noAttribute

/-! ## Calls -/

variable {receiver : Expr} {method : String} {args : List Expr}

private theorem infer_methodCall (notSuper : context.isSuperCall receiver = false)
    (keywords : List (String × Expr)) :
    context.infer (.methodCall receiver method args keywords) =
      (receiver.dottedName?.bind fun dotted =>
        context.dottedCall? dotted method (args.map context.infer) args).getD
        (context.receiverCall (context.infer receiver) method (args.map context.infer)) := by
  rw [infer, Expr.read, methodCallType, map_value_readEach, notSuper]
  rfl

private theorem receiverCall_of_builtin {receiver result : Ty} {args : List Ty}
    (found : Library.builtinMethod? receiver.present method args = some result) :
    context.receiverCall receiver method args = result := by
  unfold receiverCall
  rw [found]
  rfl

theorem infer_methodCall_of_undecided {result : Ty}
    (notSuper : context.isSuperCall receiver = false)
    (undecided : ∀ dotted, receiver.dottedName? = some dotted →
      context.dottedCall? dotted method (args.map context.infer) args = none)
    (found : Library.builtinMethod? (context.infer receiver).present method
      (args.map context.infer) = some result)
    (keywords : List (String × Expr)) :
    context.infer (.methodCall receiver method args keywords) = result := by
  rw [infer_methodCall notSuper, receiverCall_of_builtin found]
  cases isChain : receiver.dottedName? with
  | none => rfl
  | some dotted =>
      rw [Option.bind_some, undecided dotted isChain]
      rfl

theorem dottedCall?_of_bound {dotted : String} {types : List Ty}
    (bound : context.isBound (Dotted.head dotted) = true) :
    context.dottedCall? dotted method types args = none := by
  rw [dottedCall?, modulePath?_of_bound bound]
  exact if_pos bound

private theorem dottedCall?_of_constant {dotted path : String} {type : Ty} {types : List Ty}
    (isPath : context.modulePath? dotted = some path)
    (constant : Library.moduleConstant? path = some type) :
    context.dottedCall? dotted method types args =
      some (Ty.orUnknown (context.env.returns.get? (Dotted.join path method))) := by
  simp only [dottedCall?, isPath, Library.moduleFunction?_of_constant constant, Option.map_none,
    Option.or_none]

/-- A method of a builtin value is called, and the receiver is not a call of `super`. If the
receiver is a chain of attributes, let it start with a plain name that does not name a class. If
the receiver is no member of a module, the type of the receiver decides. A member of a module is
a constant of that type, and then the type is not asked: the call gives what a function
registered under its full name gives, and is `unknown` if there is none. -/
theorem builtin_method_call (context : Context) {receiver : Expr} {method : String}
    {args : List Expr} {result : Ty} (notSuper : context.isSuperCall receiver = false)
    (plainRoot : ∀ root, receiver.rootName? = some root →
      '.' ∉ root.toList ∧ context.namedClass? (.name root) = none)
    (found : Library.builtinMethod? (context.infer receiver).present method
      (args.map context.infer) = some result)
    (keywords : List (String × Expr)) :
    (context.modulePathOf? receiver = none →
      context.infer (.methodCall receiver method args keywords) = result) ∧
    (∀ path, context.modulePathOf? receiver = some path →
      Library.moduleConstant? path = some (context.infer receiver) ∧
      context.infer (.methodCall receiver method args keywords) =
        Ty.orUnknown (context.env.returns.get? (Dotted.join path method))) := by
  have hasMethod (noValue : context.infer receiver = .unknown ∨
      (context.infer receiver).isFunctionLike = true) : False := by
    rw [builtinMethod?_of_function noValue] at found
    cases found
  constructor
  · intro noModule
    apply infer_methodCall_of_undecided notSuper _ found
    intro dotted isChain
    obtain ⟨root, isRoot, sameHead⟩ := Expr.head_dottedName isChain
    obtain ⟨plain, noClass⟩ := plainRoot root isRoot
    rw [Dotted.head_of_plain plain] at sameHead
    apply dottedCall?_of_bound
    rw [sameHead, ← Bool.not_eq_false]
    intro unbound
    exact hasMethod (infer_of_unbound_root isRoot unbound noClass noModule)
  · intro path isMember
    obtain ⟨dotted, isChain, isPath⟩ := Option.bind_eq_some_iff.mp isMember
    have constant : Library.moduleConstant? path = some (context.infer receiver) := by
      obtain constant | noValue :=
        infer_of_modulePath (fun root isRoot => (plainRoot root isRoot).1) isMember
      · exact constant
      · exact (hasMethod noValue).elim
    refine ⟨constant, ?_⟩
    rw [infer_methodCall notSuper, isChain, Option.bind_some,
      dottedCall?_of_constant isPath constant, Option.getD_some]

/-! A shelf has a list of labels, and the environment of the process is a constant of a module. -/

def stocked : Context where
  config := {}
  env :=
    ({ globals := .ofList [("shelf", .object "Shelf")],
       imports := .ofList [("os", "os")] } : Environment)
      |>.registerClass { ClassInfo.ofName "Shelf" [] with
          fields := .ofList [("labels", .list Ty.text)] }

theorem builtin_method_call_stocked :
    let labels := Expr.attribute (.name "shelf") "labels"
    let environ := Expr.attribute (.name "os") "environ"
    let key := Expr.literal (.str "HOME")
    (labels.rootName? = some "shelf" ∧ stocked.namedClass? (.name "shelf") = none ∧
      stocked.modulePathOf? labels = none ∧
      Library.builtinMethod? (stocked.infer labels).present "pop" ([].map stocked.infer) =
        some Ty.text) ∧
    stocked.infer (.methodCall labels "pop" [] []) = Ty.text ∧
    (environ.rootName? = some "os" ∧ stocked.namedClass? (.name "os") = none ∧
      stocked.modulePathOf? environ = some "os.environ" ∧
      Library.builtinMethod? (stocked.infer environ).present "get"
        ([key].map stocked.infer) = some Ty.text) ∧
    Library.moduleConstant? "os.environ" = some (stocked.infer environ) ∧
    stocked.infer (.methodCall environ "get" [key] []) =
      Ty.orUnknown (stocked.env.returns.get? "os.environ.get") := by
  intro labels environ key
  have outside : stocked.modulePathOf? labels = none := by decide
  have member : stocked.modulePathOf? environ = some "os.environ" := by decide
  have pops : Library.builtinMethod? (stocked.infer labels).present "pop"
      ([].map stocked.infer) = some Ty.text := by decide
  have gets : Library.builtinMethod? (stocked.infer environ).present "get"
      ([key].map stocked.infer) = some Ty.text := by decide
  have shelfRoot : ∀ root, labels.rootName? = some root →
      '.' ∉ root.toList ∧ stocked.namedClass? (.name root) = none := by
    rintro root ⟨⟩
    decide
  have osRoot : ∀ root, environ.rootName? = some root →
      '.' ∉ root.toList ∧ stocked.namedClass? (.name root) = none := by
    rintro root ⟨⟩
    decide
  have popped := (stocked.builtin_method_call rfl shelfRoot pops []).1 outside
  have got := (stocked.builtin_method_call rfl osRoot gets []).2 _ member
  exact ⟨⟨rfl, rfl, outside, pops⟩, popped, ⟨rfl, rfl, member, gets⟩, got⟩

/-- The environment of the process is known to be a dict of strings, so that a key of it gives a
string, but the type of the call is not known. -/
theorem environ_get_unknown :
    let environ := Expr.attribute (.name "os") "environ"
    let key := Expr.literal (.str "HOME")
    stocked.env.isClass "os" = false ∧ stocked.env.resolveFunction? "os" = none ∧
    stocked.infer environ = .dict Ty.text Ty.text ∧
    Library.builtinMethod? (.dict Ty.text Ty.text) "get" [stocked.infer key] = some Ty.text ∧
    stocked.infer (.methodCall environ "get" [key] []) = .unknown := by
  decide

end Context

end NativeTyping
