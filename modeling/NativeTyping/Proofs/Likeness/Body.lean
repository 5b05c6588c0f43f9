import NativeTyping.Proofs.Fitness.Analysis
import NativeTyping.Proofs.Walks
/-!
Functions and bodies that an analysis does not tell apart.

An analysis goes over a body in several ways: it sweeps it, collects what it returns, the
names that it binds and reads, its nested functions, its mutations and its constructor
calls. Two bodies are alike if all of these agree. Functions with headers and bodies that
are alike are alike, and so are bodies put together from parts that are alike.
-/

namespace NativeTyping

/-! ## Likeness

Parts of programs are compared under a configuration, because it decides what hints mean.
-/

structure Param.Alike (config : Config) (left right : Param) : Prop where
  name : left.name = right.name
  hint : config.hintType left.hint = config.hintType right.hint
  default : left.default = right.default

structure FunctionDef.Alike (config : Config) (left right : FunctionDef) : Prop where
  name : left.name = right.name
  decorators : left.decorators = right.decorators
  defaults : left.params.filterMap Param.default = right.params.filterMap Param.default
  result : config.hintType left.returnHint = config.hintType right.returnHint
  visit : ∀ setting : Setting, setting.config = config → left.visit setting = right.visit setting
  register : left.register config = right.register config
  captures : left.captures = right.captures
  freeReads : left.freeReads = right.freeReads
  observations : Block.observations left.body = Block.observations right.body
  constructorCalls : Block.constructorCalls left.body = Block.constructorCalls right.body

structure Block.Alike (config : Config) (left right : Block) : Prop where
  visit : ∀ setting : Setting, setting.config = config →
    Block.visit setting left = Block.visit setting right
  returns : ∀ (setting : Setting) (env : Environment),
    setting.returnTypes env left = setting.returnTypes env right
  bound : (Block.statements left).flatMap Stmt.boundNames =
    (Block.statements right).flatMap Stmt.boundNames
  nonlocals : (Block.statements left).flatMap Stmt.nonlocalNames =
    (Block.statements right).flatMap Stmt.nonlocalNames
  reads : Block.reads left = Block.reads right
  observations : Block.observations left = Block.observations right
  constructorCalls : Block.constructorCalls left = Block.constructorCalls right
  functions : List.Forall₂ (FunctionDef.Alike config) (Block.functions left)
    (Block.functions right)

variable {config : Config}

/-! ## Functions -/

namespace FunctionDef

theorem Alike.refl (definition : FunctionDef) : definition.Alike config definition where
  name := rfl
  decorators := rfl
  defaults := rfl
  result := rfl
  visit _ _ := rfl
  register := rfl
  captures := rfl
  freeReads := rfl
  observations := rfl
  constructorCalls := rfl

private theorem freeReads_eq (definition : FunctionDef) :
    definition.freeReads =
      freeAmong definition.params definition.body (Block.reads definition.body) := by
  cases definition
  rw [freeReads]

private theorem captures_eq_nested (definition : FunctionDef) (qualified : String)
    (enclosing : NameSet) (found : Captures) :
    definition.captures qualified enclosing found =
      definition.nested.foldl
        (fun found inner => inner.captures (Dotted.join qualified inner.name)
          (enclosing.insertMany definition.localNames.names) found)
        (if enclosing.isEmpty then found
          else found.insert qualified
            (NameSet.ofList (definition.freeNames.names.filter enclosing.contains))) := by
  rw [captures, fold_eq]
  simp only [List.foldl_map]
  rfl

structure PartsAlike (config : Config) (left right : FunctionDef) : Prop where
  name : left.name = right.name
  decorators : left.decorators = right.decorators
  params : List.Forall₂ (Param.Alike config) left.params right.params
  result : config.hintType left.returnHint = config.hintType right.returnHint
  body : Block.Alike config left.body right.body

private theorem bindPlainParams_eq {setting : Setting} (same : setting.config = config)
    {left right : List Param} (params : List.Forall₂ (Param.Alike config) left right) :
    setting.bindPlainParams left = setting.bindPlainParams right := by
  funext args env
  induction params generalizing args env with
  | nil => rfl
  | cons head _ induction =>
      simp only [Setting.bindPlainParams, Setting.paramType, same, head.name, head.hint,
        head.default, induction]

namespace PartsAlike

variable {left right : FunctionDef} (parts : left.PartsAlike config right)

include parts

section Visit

variable {setting : Setting} (same : setting.config = config)

include same

private theorem bindParams : setting.bindParams left = setting.bindParams right := by
  have static : left.isStatic = right.isStatic := by
    rw [isStatic, isStatic, parts.decorators]
  have params := parts.params
  funext className env
  simp only [Setting.bindParams, Setting.constructorArgs, parts.name, static]
  generalize left.params = leftParams at params ⊢
  generalize right.params = rightParams at params ⊢
  cases params with
  | nil => cases className <;> rfl
  | cons head tail =>
      cases className with
      | none => simp only [bindPlainParams_eq same (.cons head tail)]
      | some owner =>
          simp only [bindPlainParams_eq same (.cons head tail), bindPlainParams_eq same tail,
            head.name]

private theorem secondSweep : left.secondSweep setting = right.secondSweep setting := by
  have empty : left.nested.isEmpty = right.nested.isEmpty := by
    rw [Bool.eq_iff_iff, List.isEmpty_iff_length_eq_zero, List.isEmpty_iff_length_eq_zero,
      nested, nested, parts.body.functions.length_eq]
  have nested : left.visitNested setting = right.visitNested setting := by
    funext qualified env
    apply foldl_eq_of_forall₂ parts.body.functions
    intro inner other alike env
    rw [alike.visit setting same, alike.name]
  funext qualified env
  rw [FunctionDef.secondSweep, FunctionDef.secondSweep, empty, parts.body.visit setting same,
    nested]

private theorem recordReturn : setting.recordReturn left = setting.recordReturn right := by
  funext qualified className env
  simp only [Setting.recordReturn, Setting.bodyResult, parts.body.returns, same, parts.result,
    parts.name]

private theorem visit : left.visit setting = right.visit setting := by
  have first : left.firstSweep setting = right.firstSweep setting := by
    funext qualified className env
    rw [firstSweep, firstSweep, parts.bindParams same, parts.body.visit setting same]
  funext qualified className env
  rw [visit_eq, visit_eq, first, parts.secondSweep same, parts.recordReturn same]

end Visit

private theorem register : left.register config = right.register config := by
  have declared := map_eq_of_forall₂ parts.params fun _ _ alike => alike.hint
  funext qualified hasReceiver env
  rw [register_eq, register_eq, parts.result]
  have own : (if hasReceiver then left.params.tail else left.params).map
        (fun param => config.hintType param.hint) =
      (if hasReceiver then right.params.tail else right.params).map
        (fun param => config.hintType param.hint) := by
    cases hasReceiver with
    | false => exact declared
    | true =>
        simp only [if_true, List.map_tail]
        rw [declared]
  rw [own]
  apply foldl_eq_of_forall₂ parts.body.functions
  intro inner other alike env
  rw [alike.register, alike.name]

private theorem localNames : left.localNames = right.localNames := by
  have params := map_eq_of_forall₂ parts.params fun _ _ alike => alike.name
  rw [FunctionDef.localNames, FunctionDef.localNames, localNamesOf, localNamesOf, params,
    parts.body.bound]

private theorem freeReads : left.freeReads = right.freeReads := by
  have bound : localNamesOf left.params left.body = localNamesOf right.params right.body :=
    parts.localNames
  rw [freeReads_eq, freeReads_eq, freeAmong, freeAmong, bound, parts.body.nonlocals,
    parts.body.reads]

private theorem captures : left.captures = right.captures := by
  funext qualified enclosing found
  rw [captures_eq_nested, captures_eq_nested, parts.localNames, freeNames, freeNames,
    parts.freeReads]
  apply foldl_eq_of_forall₂ parts.body.functions
  intro inner other alike found
  rw [alike.captures, alike.name]

theorem alike : left.Alike config right where
  name := parts.name
  decorators := parts.decorators
  defaults := filterMap_eq_of_forall₂ parts.params fun _ _ alike => alike.default
  result := parts.result
  visit _ same := parts.visit same
  register := parts.register
  captures := parts.captures
  freeReads := parts.freeReads
  observations := parts.body.observations
  constructorCalls := parts.body.constructorCalls

end PartsAlike

end FunctionDef

/-! ## Bodies -/

def Setting.returnType? (setting : Setting) (env : Environment) : Stmt → Option Ty
  | .ret (some value) => some (setting.infer env value)
  | .ret none => some .none
  | _ => none

private theorem Setting.returnTypes_walk (setting : Setting) (env : Environment) :
    Block.Walk (setting.returnTypes env) fun stmt => (setting.returnType? env stmt).toList := by
  have same : setting.returnTypes env =
      fun body => (Block.statements body).flatMap fun stmt =>
        (setting.returnType? env stmt).toList := by
    funext body
    exact List.filterMap_eq_flatMap_toList (setting.returnType? env) (Block.statements body)
  rw [same]
  exact Block.statements_walk _

/-- Two statements, other than definitions, that have the same by themselves, whatever stands
in their blocks. -/
structure Stmt.SameOwn (config : Config) (left right : Stmt) : Prop where
  leftPlain : left.isDefinition = false := by rfl
  rightPlain : right.isDefinition = false := by rfl
  returns : ∀ (setting : Setting) (env : Environment),
    setting.returnType? env left = setting.returnType? env right := by intros; rfl
  bound : left.boundNames = right.boundNames := by rfl
  nonlocals : left.nonlocalNames = right.nonlocalNames := by rfl
  reads : left.ownReads = right.ownReads := by rfl
  observations : left.ownObservations = right.ownObservations := by rfl
  constructorCalls : left.constructorCalls = right.constructorCalls := by rfl
  imports : ∀ env : Environment,
    env.registerImports left = env.registerImports right := by intros; rfl
  attributes : ∀ setting : Setting, setting.config = config → ∀ env,
    setting.classAttribute? env left = setting.classAttribute? env right := by intros; rfl

theorem Stmt.functionDef?_of_plain {stmt : Stmt} (plain : stmt.isDefinition = false) :
    stmt.functionDef? = none := by
  cases stmt with
  | functionDef definition => cases plain
  | _ => rfl

theorem Block.visit_append (setting : Setting) (first second : Block) (env : Environment) :
    Block.visit setting (first ++ second) env =
      Block.visit setting second (Block.visit setting first env) := by
  induction first generalizing env with
  | nil => rfl
  | cons stmt rest induction => exact induction _

namespace Block.Alike

theorem refl (body : Block) : Block.Alike config body body where
  visit _ _ := rfl
  returns _ _ := rfl
  bound := rfl
  nonlocals := rfl
  reads := rfl
  observations := rfl
  constructorCalls := rfl
  functions := List.forall₂_same.mpr fun definition _ => .refl definition

theorem append {left right leftRest rightRest : Block} (first : Block.Alike config left right)
    (rest : Block.Alike config leftRest rightRest) :
    Block.Alike config (left ++ leftRest) (right ++ rightRest) where
  visit setting same := by
    funext env
    rw [visit_append, visit_append, first.visit setting same, rest.visit setting same]
  returns setting env :=
    (setting.returnTypes_walk env).append_eq (first.returns setting env) (rest.returns setting env)
  bound := (statements_walk Stmt.boundNames).append_eq first.bound rest.bound
  nonlocals := (statements_walk Stmt.nonlocalNames).append_eq first.nonlocals rest.nonlocals
  reads := reads_walk.append_eq first.reads rest.reads
  observations := observations_walk.append_eq first.observations rest.observations
  constructorCalls := constructorCalls_walk.append_eq first.constructorCalls rest.constructorCalls
  functions := by
    rw [functions_walk.append, functions_walk.append]
    exact List.rel_append first.functions rest.functions

/-- Statements that have the same by themselves are alike if their blocks are alike and
both are swept with the same effect. -/
theorem single {left right : Stmt} (own : left.SameOwn config right)
    (blocks : List.Forall₂ (Block.Alike config) left.blocks right.blocks)
    (visit : ∀ setting : Setting, setting.config = config →
      left.visit setting = right.visit setting) : Block.Alike config [left] [right] where
  visit setting same := by
    funext env
    exact congrFun (visit setting same) env
  returns setting env :=
    (setting.returnTypes_walk env).single_eq own.leftPlain own.rightPlain
      (congrArg Option.toList (own.returns setting env))
      (blocks.imp fun _ _ alike => alike.returns setting env)
  bound := (statements_walk Stmt.boundNames).single_eq own.leftPlain own.rightPlain own.bound
    (blocks.imp fun _ _ alike => alike.bound)
  nonlocals := (statements_walk Stmt.nonlocalNames).single_eq own.leftPlain own.rightPlain
    own.nonlocals (blocks.imp fun _ _ alike => alike.nonlocals)
  reads := reads_walk.single_eq own.leftPlain own.rightPlain own.reads
    (blocks.imp fun _ _ alike => alike.reads)
  observations := observations_walk.single_eq own.leftPlain own.rightPlain own.observations
    (blocks.imp fun _ _ alike => alike.observations)
  constructorCalls := constructorCalls_walk.single_eq own.leftPlain own.rightPlain
    own.constructorCalls (blocks.imp fun _ _ alike => alike.constructorCalls)
  functions := by
    rw [functions_walk.single own.leftPlain, functions_walk.single own.rightPlain,
      Stmt.functionDef?_of_plain own.leftPlain, Stmt.functionDef?_of_plain own.rightPlain]
    exact List.rel_flatMap blocks fun _ _ alike => alike.functions

/-- A statement with blocks is alike to one without blocks that has the same by itself and
stands before the contents of these blocks, if both are swept with the same effect. -/
theorem unfolded {stmt other : Stmt} (own : stmt.SameOwn config other)
    (noBlocks : other.blocks = [])
    (visit : ∀ setting : Setting, setting.config = config →
      Block.visit setting [stmt] = Block.visit setting (other :: stmt.blocks.flatten)) :
    Block.Alike config [stmt] (other :: stmt.blocks.flatten) where
  visit := visit
  returns setting env :=
    (setting.returnTypes_walk env).unfolded_eq own.leftPlain own.rightPlain noBlocks
      (congrArg Option.toList (own.returns setting env))
  bound := (statements_walk Stmt.boundNames).unfolded_eq own.leftPlain own.rightPlain noBlocks
    own.bound
  nonlocals := (statements_walk Stmt.nonlocalNames).unfolded_eq own.leftPlain own.rightPlain
    noBlocks own.nonlocals
  reads := reads_walk.unfolded_eq own.leftPlain own.rightPlain noBlocks own.reads
  observations := observations_walk.unfolded_eq own.leftPlain own.rightPlain noBlocks
    own.observations
  constructorCalls := constructorCalls_walk.unfolded_eq own.leftPlain own.rightPlain noBlocks
    own.constructorCalls
  functions := by
    have noFunction : stmt.functionDef?.toList = other.functionDef?.toList := by
      rw [Stmt.functionDef?_of_plain own.leftPlain, Stmt.functionDef?_of_plain own.rightPlain]
    rw [functions_walk.unfolded_eq own.leftPlain own.rightPlain noBlocks noFunction]
    exact List.forall₂_same.mpr fun definition _ => .refl definition

end Block.Alike

end NativeTyping
