import Mathlib.Data.List.Find
import NativeTyping.Analysis
import NativeTyping.Proofs.Dotted
import NativeTyping.Proofs.Table
/-!
Calls of a bare name inside the body of a class.

A called name is looked for along the dotted name of the present scope. The scope of a
method is named after its class, and so the way out of a method leads through the class:
past the functions nested in the method, a name means the method of the class that has this
name, before it means a function of the program or something of the library.
-/

namespace NativeTyping

/-! ## Candidates -/

namespace Dotted

def namesBelow (className inner name : String) : List String :=
  (inner :: ancestors inner).map fun function => join (join className function) name

def namesAbove (className name : String) : List String :=
  (ancestors className).map (join · name) ++ [name]

private theorem ne_of_mem_namesBelow {className inner name function : String}
    (below : function ∈ namesBelow className inner name) : function ≠ join className name := by
  rcases List.mem_map.mp below with ⟨around, _, rfl⟩
  intro same
  exact join_ne_left className around (join_right_cancel same)

private theorem ne_of_mem_namesAbove {className name function : String}
    (above : function ∈ namesAbove className name) : function ≠ join className name := by
  intro same
  rcases List.mem_append.mp above with outer | isName
  · rcases List.mem_map.mp outer with ⟨parent, isParent, rfl⟩
    rcases mem_ancestors.mp isParent with ⟨rest, continued⟩
    rw [join_right_cancel same] at continued
    exact join_ne_left className rest continued.symm
  · rw [List.mem_singleton.mp isName] at same
    exact join_ne_right className name same.symm

end Dotted

namespace Environment

variable {env : Environment} {className inner name : String}

/-- Inside a class, what is below it comes first, then the method, and then what is above. -/
theorem functionCandidates_inClass
    (current : env.currentScope? = some (Dotted.join className inner)) :
    env.functionCandidates name =
      Dotted.namesBelow className inner name ++
        Dotted.join className name :: Dotted.namesAbove className name := by
  simp [functionCandidates, current, Dotted.ancestors_join, Dotted.namesBelow,
    Dotted.namesAbove, Function.comp_def]

private theorem resolveFunction?_inClass
    (current : env.currentScope? = some (Dotted.join className inner)) :
    env.resolveFunction? name =
      ((Dotted.namesBelow className inner name).find? env.returns.contains).or
        (if env.returns.contains (Dotted.join className name) then
          some (Dotted.join className name)
        else (Dotted.namesAbove className name).find? env.returns.contains) := by
  rw [resolveFunction?, functionCandidates_inClass current, List.find?_append, List.find?_cons]
  cases env.returns.contains (Dotted.join className name) <;> rfl

def withoutFunction (env : Environment) (function : String) : Environment :=
  { env with returns := env.returns.erase function }

private theorem find?_withoutFunction {function : String} {names : List String}
    (others : ∀ other ∈ names, other ≠ function) :
    names.find? (env.withoutFunction function).returns.contains =
      names.find? env.returns.contains := by
  apply List.find?_congr
  intro other member
  rw [withoutFunction, Table.contains, Table.get?_erase, if_neg (others other member)]
  rfl

private theorem find?_eq_none_of_unregistered {names : List String}
    (unregistered : ∀ function ∈ names, env.returns.contains function = false) :
    names.find? env.returns.contains = none := by
  rw [List.find?_eq_none]
  intro function member
  rw [unregistered function member]
  exact Bool.false_ne_true

private theorem resolveFunction?_withoutMethod
    (current : env.currentScope? = some (Dotted.join className inner)) :
    (env.withoutFunction (Dotted.join className name)).resolveFunction? name =
      ((Dotted.namesBelow className inner name).find? env.returns.contains).or
        ((Dotted.namesAbove className name).find? env.returns.contains) := by
  have absent : (env.withoutFunction (Dotted.join className name)).returns.contains
      (Dotted.join className name) = false := by
    rw [withoutFunction, Table.contains, Table.get?_erase, if_pos rfl]
    rfl
  have same : (env.withoutFunction (Dotted.join className name)).currentScope? =
      some (Dotted.join className inner) := current
  rw [resolveFunction?_inClass same, absent,
    find?_withoutFunction fun _ below => Dotted.ne_of_mem_namesBelow below,
    find?_withoutFunction fun _ above => Dotted.ne_of_mem_namesAbove above]
  rfl

end Environment

/-! ## Calls -/

namespace Context

/-- The result of calling a name that the program does not define: the base class, an
imported function, a dict from keywords, a builtin function, an exception. -/
def libraryCall (context : Context) (name : String) (args : List Expr)
    (keywords : List (String × Expr)) : Ty :=
  let types := (Expr.readEach args context).map Reading.value
  Ty.orUnknown <|
    (context.calledSuper? name).or <|
    ((context.importedFunction? name).map fun rule => rule.apply types args).or <|
    (keywordDict? name types (Expr.readKeywords keywords context)).or <|
    ((Library.builtinFunction? name).map fun rule => rule.apply types args).or <|
    calledException? name

def withoutFunction (context : Context) (function : String) : Context :=
  { context with env := context.env.withoutFunction function }

variable {context : Context} {name : String} (args : List Expr)
  (keywords : List (String × Expr))

private theorem infer_call_of_resolved (unbound : context.isBound name = false)
    (noClass : context.env.isClass name = false) {function : String}
    (resolved : context.env.resolveFunction? name = some function) :
    context.infer (.call name args keywords) =
      Ty.orUnknown (context.env.returns.get? function) := by
  simp [infer, Expr.read, callType, calledDefinition?, unbound, noClass, resolved, Ty.orUnknown]

theorem infer_call_of_unresolved (unbound : context.isBound name = false)
    (noClass : context.env.isClass name = false)
    (unresolved : context.env.resolveFunction? name = none) :
    context.infer (.call name args keywords) = context.libraryCall name args keywords := by
  have noValue : context.lookupName name = .unknown := by
    simp only [isBound, Bool.or_eq_false_iff, Option.isSome_eq_false_iff,
      Option.isNone_iff_eq_none] at unbound
    simp [lookupName, unbound, functionValue?, unresolved, Ty.orUnknown]
  simp [infer, Expr.read, callType, calledDefinition?, unbound, noClass, unresolved, noValue,
    calledValue?, libraryCall]

/-- A bare name is called inside a class, and it is neither a variable nor a class. If a
function of the name is nested in the method of the call, or in one of the functions around
the call, it is called, whether or not the class has a method of the name. If there is none,
the method of the class is called. Only without that method the call goes to a function
outside of the class, and if there is none, to the library. -/
theorem bare_call_in_class (context : Context) {className inner name : String}
    (current : context.env.currentScope? = some (Dotted.join className inner))
    (unbound : context.isBound name = false) (noClass : context.env.isClass name = false)
    (args : List Expr) (keywords : List (String × Expr)) :
    (∀ function,
      (Dotted.namesBelow className inner name).find? context.env.returns.contains =
        some function →
      context.infer (.call name args keywords) =
        Ty.orUnknown (context.env.returns.get? function) ∧
      (context.withoutFunction (Dotted.join className name)).infer (.call name args keywords) =
        Ty.orUnknown (context.env.returns.get? function)) ∧
    ((∀ function ∈ Dotted.namesBelow className inner name,
        context.env.returns.contains function = false) →
      (∀ result, context.env.returns.get? (Dotted.join className name) = some result →
        context.infer (.call name args keywords) = result) ∧
      (∀ function,
        (Dotted.namesAbove className name).find? context.env.returns.contains = some function →
        (context.withoutFunction (Dotted.join className name)).infer (.call name args keywords) =
          Ty.orUnknown (context.env.returns.get? function)) ∧
      ((∀ function ∈ Dotted.namesAbove className name,
          context.env.returns.contains function = false) →
        (context.withoutFunction (Dotted.join className name)).infer (.call name args keywords) =
          (context.withoutFunction (Dotted.join className name)).libraryCall name args
            keywords)) := by
  have withMethod : context.env.resolveFunction? name = _ :=
    Environment.resolveFunction?_inClass current
  have without : (context.withoutFunction
      (Dotted.join className name)).env.resolveFunction? name = _ :=
    Environment.resolveFunction?_withoutMethod current
  have stillUnbound : (context.withoutFunction (Dotted.join className name)).isBound name = false :=
    unbound
  have kept {function : String} (other : function ≠ Dotted.join className name) :
      (context.withoutFunction (Dotted.join className name)).env.returns.get? function =
        context.env.returns.get? function := by
    rw [withoutFunction, Environment.withoutFunction, Table.get?_erase, if_neg other]
  -- What is found below or above the class is another function, and its result is kept.
  refine ⟨fun function found => ⟨?_, ?_⟩, fun nothingBelow => ⟨?_, ?_, ?_⟩⟩
  · rw [found] at withMethod
    exact infer_call_of_resolved args keywords unbound noClass withMethod
  · rw [found] at without
    rw [← kept (Dotted.ne_of_mem_namesBelow (List.mem_of_find?_eq_some found))]
    exact infer_call_of_resolved args keywords stillUnbound noClass without
  · intro result registered
    have isRegistered : context.env.returns.contains (Dotted.join className name) = true := by
      rw [Table.contains, registered]
      rfl
    rw [Environment.find?_eq_none_of_unregistered nothingBelow, isRegistered] at withMethod
    rw [infer_call_of_resolved args keywords unbound noClass withMethod, registered]
    rfl
  · intro function found
    rw [Environment.find?_eq_none_of_unregistered nothingBelow, found] at without
    rw [← kept (Dotted.ne_of_mem_namesAbove (List.mem_of_find?_eq_some found))]
    exact infer_call_of_resolved args keywords stillUnbound noClass without
  · intro nothingAbove
    rw [Environment.find?_eq_none_of_unregistered nothingBelow,
      Environment.find?_eq_none_of_unregistered nothingAbove] at without
    exact infer_call_of_unresolved args keywords stillUnbound noClass without

end Context

/-! A class with two methods that have the names of functions of the program, where one of
the names is also that of a function nested in the calling method. -/

def Environment.shelving : Environment where
  classes := Table.ofList [("Shelf", { ClassInfo.ofName "Shelf" [] with
    methods := Table.ofList [("size", .str .runtime), ("pack", .float), ("fill", .none)] })]
  returns := Table.ofList [("size", .int), ("pack", .none), ("Shelf.size", .str .runtime),
    ("Shelf.pack", .float), ("Shelf.fill", .none), ("Shelf.fill.pack", .bool)]
  scopeStack := ["Shelf.fill"]

theorem Context.bare_call_in_class_shelving :
    let context := Setting.context { config := {} } .shelving
    (context.isBound "size" = false ∧ context.isBound "pack" = false) ∧
    context.infer (.call "pack" [] []) = .bool ∧
    context.infer (.call "size" [] []) = .str .runtime ∧
    (context.withoutFunction "Shelf.size").infer (.call "size" [] []) = .int := by
  intro context
  have sizeUnbound : context.isBound "size" = false := rfl
  have packUnbound : context.isBound "pack" = false := rfl
  have inMethod : context.env.currentScope? = some (Dotted.join "Shelf" "fill") := rfl
  have pack := (context.bare_call_in_class inMethod packUnbound rfl [] []).1 "Shelf.fill.pack" rfl
  have size := (context.bare_call_in_class inMethod sizeUnbound rfl [] []).2 (by decide)
  exact ⟨⟨sizeUnbound, packUnbound⟩, pack.1, size.1 (.str .runtime) rfl, size.2.1 "size" rfl⟩

/-! The same class in a program. -/

def Program.shelved : Program where
  body := [
    .functionDef {
      name := "size", params := [], returnHint := none, decorators := [], isAsync := false
      body := [.ret (some (.literal (.int 1)))] },
    .classDef {
      name := "Shelf", bases := [], decorators := []
      body := [
        .functionDef {
          name := "size", params := [⟨"self", none, none⟩], returnHint := none, decorators := []
          isAsync := false, body := [.ret (some (.literal (.str "many")))] },
        .functionDef {
          name := "fill", params := [⟨"self", none, none⟩], returnHint := none, decorators := []
          isAsync := false, body := [.ret (some (.call "size" [] []))] }] }]

/-- The call in the second method has the type of the first one, and not that of the function
of the program. -/
theorem Program.shelved_calls_method :
    (shelved.analyze {}).returns.get? "size" = some .int ∧
    (shelved.analyze {}).returns.get? "Shelf.fill" = some (.str .runtime) := by
  decide +kernel

end NativeTyping
