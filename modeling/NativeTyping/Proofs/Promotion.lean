import NativeTyping.Analysis
import NativeTyping.Proofs.Occurrence
import NativeTyping.Proofs.Table
/-!
Which fixed arrays become lists.

A list method called on a variable or on a field of `self`, anywhere in a program,
turns every binding of the variable and every field of that name that is a fixed
array into a list of the same elements. Nothing else changes in the last stage.
-/

namespace NativeTyping

open Mutation

/-! ## Calls of list methods -/

def Program.CallsListMethod (program : Program) (receiver : Expr) : Prop :=
  ∃ method ∈ listMethods, ∃ args keywords,
    program.Contains (.methodCall receiver method args keywords)

private theorem Expr.trackedName?_eq_some_iff {receiver : Expr} {name : String} :
    receiver.trackedName? = some name ↔
      receiver = .name name ∨
        ∃ field, name = "self." ++ field ∧ receiver = .attribute (.name "self") field := by
  constructor
  · intro tracked
    unfold trackedName? at tracked
    split at tracked
    · cases tracked
      exact .inl rfl
    · cases tracked
      exact .inr ⟨_, rfl, rfl⟩
    · cases tracked
  · rintro (rfl | ⟨field, rfl, rfl⟩) <;> rfl

private theorem Expr.listMutation?_eq_some_iff {expr : Expr} {name method : String} :
    expr.listMutation? = some (.event name (.listMethod method)) ↔
      ∃ receiver args keywords, expr = .methodCall receiver method args keywords ∧
        method ∈ listMethods ∧ receiver.trackedName? = some name := by
  constructor
  · intro observed
    unfold listMutation? at observed
    split at observed
    · rename_i receiver called args keywords
      split at observed
      · rename_i mutating
        rcases Option.map_eq_some_iff.mp observed with ⟨tracked, found, equal⟩
        cases equal
        exact ⟨receiver, args, keywords, rfl, List.contains_iff_mem.mp mutating, found⟩
      · cases observed
    · cases observed
  · rintro ⟨receiver, args, keywords, rfl, mutating, found⟩
    simp [listMutation?, mutating, found]

private theorem Target.listMethod_not_mem_observations (target : Target)
    {toName : String → Observation}
    (plain : ∀ stored name method, toName stored ≠ .event name (.listMethod method))
    (name method : String) : .event name (.listMethod method) ∉ target.observations toName := by
  intro member
  rcases List.mem_filterMap.mp member with ⟨place, _, observed⟩
  unfold Place.observation? at observed
  split at observed
  · exact plain _ _ _ (Option.some.inj observed)
  · rcases Option.map_eq_some_iff.mp observed with ⟨tracked, _, equal⟩
    cases equal
  · cases observed

private theorem Stmt.listMethod_not_mem_stores (stmt : Stmt) (name method : String) :
    .event name (.listMethod method) ∉ stmt.stores := by
  unfold stores
  split
  · intro member
    rcases List.mem_flatMap.mp member with ⟨target, _, stored⟩
    exact target.listMethod_not_mem_observations (by simp) name method stored
  · exact Target.listMethod_not_mem_observations _ (by simp) name method
  · exact Target.listMethod_not_mem_observations _ (by simp) name method
  · simp

/-- The list mutations that are observed in a program are the calls of list methods
that occur in it, each under the name that its receiver is tracked by. -/
theorem Program.listMethod_mem_observations_iff {program : Program} {name method : String} :
    .event name (.listMethod method) ∈ Block.observations program.body ↔
      ∃ receiver args keywords, method ∈ listMethods ∧ receiver.trackedName? = some name ∧
        program.Contains (.methodCall receiver method args keywords) := by
  simp only [Block.mem_observations_iff, Stmt.ownObservations, List.mem_append,
    Stmt.listMethod_not_mem_stores, false_or, List.mem_flatMap, Expr.observations,
    List.mem_filterMap, Expr.listMutation?_eq_some_iff, Program.contains_iff]
  constructor
  · rintro ⟨stmt, standing, whole, evaluated, expr, inside, receiver, args, keywords, rfl,
      mutating, tracked⟩
    exact ⟨receiver, args, keywords, mutating, tracked, stmt, standing, whole, evaluated,
      inside⟩
  · rintro ⟨receiver, args, keywords, mutating, tracked, stmt, standing, whole, evaluated,
      inside⟩
    exact ⟨stmt, standing, whole, evaluated, _, inside, receiver, args, keywords, rfl,
      mutating, tracked⟩

/-! ## The table of events -/

namespace Mutation

private theorem Events.hasListMutation_record (events : Events) (observation : Observation)
    (name : String) :
    hasListMutation (observation.record events) name = true ↔
      hasListMutation events name = true ∨
        ∃ method, observation = .event name (.listMethod method) := by
  cases observation with
  | store stored =>
      by_cases same : name = stored
      · subst same
        cases known : Table.get? events name <;>
          simp [Observation.record, hasListMutation, ofName, known, Kind.isListMutation]
      · simp [Observation.record, hasListMutation, ofName, Table.get?_upsert_of_ne _ same]
  | event mutated kind =>
      by_cases same : name = mutated
      · subst same
        cases kind <;>
          simp [Observation.record, hasListMutation, ofName, Kind.isListMutation]
      · simp [Observation.record, hasListMutation, ofName, Table.get?_upsert_of_ne _ same,
          Ne.symm same]

private theorem Events.hasListMutation_foldl_record (observations : List Observation)
    (events : Events) (name : String) :
    hasListMutation (observations.foldl Observation.record events) name = true ↔
      hasListMutation events name = true ∨
        ∃ method, .event name (.listMethod method) ∈ observations := by
  induction observations generalizing events with
  | nil => simp
  | cons observation rest induction =>
      rw [List.foldl_cons, induction, hasListMutation_record, or_assoc]
      simp only [List.mem_cons, exists_or, eq_comm]

private theorem Events.mem_listMutated_iff (events : Events) (name : String) :
    name ∈ listMutated events ↔ hasListMutation events name = true := by
  rw [listMutated, List.mem_filter, and_iff_right_iff_imp]
  intro mutated
  rw [← Table.contains_iff_mem_keys, Table.contains]
  cases known : Table.get? events name with
  | none => simp [hasListMutation, ofName, known] at mutated
  | some kinds => rfl

end Mutation

/-- The names that are promoted: plain variables and fields of `self` that a list
method is called on. -/
theorem Program.mem_listMutated_iff {program : Program} {name : String} :
    name ∈ Events.listMutated program.mutations ↔
      program.CallsListMethod (.name name) ∨
        ∃ field, name = "self." ++ field ∧
          program.CallsListMethod (.attribute (.name "self") field) := by
  rw [Events.mem_listMutated_iff, Program.mutations, Events.hasListMutation_foldl_record]
  have fresh : Events.hasListMutation ∅ name = false := rfl
  simp only [fresh, Bool.false_eq_true, false_or, Program.listMethod_mem_observations_iff,
    Expr.trackedName?_eq_some_iff]
  constructor
  · rintro ⟨method, receiver, args, keywords, mutating, rfl | ⟨field, rfl, rfl⟩, occurs⟩
    · exact .inl ⟨method, mutating, args, keywords, occurs⟩
    · exact .inr ⟨field, rfl, method, mutating, args, keywords, occurs⟩
  · rintro (⟨method, mutating, args, keywords, occurs⟩ |
      ⟨field, rfl, method, mutating, args, keywords, occurs⟩)
    · exact ⟨method, _, args, keywords, mutating, .inl rfl, occurs⟩
    · exact ⟨method, _, args, keywords, mutating, .inr ⟨field, rfl, rfl⟩, occurs⟩

/-! ## What promotion changes -/

/-- A type after promotion: a fixed array under a mutated name has become a list of
the same elements, and any other type is as before. -/
inductive Ty.Promotes (mutated : Prop) : Ty → Ty → Prop
  | grown {element length} : mutated → Promotes mutated (.array element length) (.list element)
  | kept {type} : (mutated → type.isArray = false) → Promotes mutated type type

namespace Ty.Promotes

private theorem of_promoteArray {mutated : Prop} (holds : mutated) (type : Ty) :
    Promotes mutated type type.promoteArray := by
  cases type with
  | array element length => exact .grown holds
  | _ => exact .kept fun _ => rfl

private theorem trans {first second : Prop} {old middle new : Ty} (left : Promotes first old middle)
    (right : Promotes second middle new) : Promotes (first ∨ second) old new := by
  cases left with
  | grown holds =>
      cases right with
      | kept _ => exact .grown (.inl holds)
  | kept firstPlain =>
      cases right with
      | grown holds => exact .grown (.inr holds)
      | kept secondPlain => exact .kept fun either => either.elim firstPlain secondPlain

private theorem isArray_eq_false {mutated : Prop} {old new : Ty}
    (promotes : Promotes mutated old new) (holds : mutated) : new.isArray = false := by
  cases promotes with
  | grown _ => rfl
  | kept plain => exact plain holds

end Ty.Promotes

abbrev Table.Promoted (mutated : String → Prop) : Table Ty → Table Ty → Prop :=
  Table.Pointwise fun name => Ty.Promotes (mutated name)

structure ClassInfo.Promoted (mutated : String → Prop) (before after : ClassInfo) : Prop where
  fields : Table.Promoted mutated before.fields after.fields
  others : after = { before with fields := after.fields }

/-- An environment after promotion of some variables and fields. Keys keep their
order, and whatever is neither a variable nor a field is as before. -/
structure Environment.Promoted (names fields : String → Prop)
    (before after : Environment) : Prop where
  globals : Table.Promoted names before.globals after.globals
  scopes : Table.Pointwise (fun _ => Table.Promoted names) before.scopes after.scopes
  classes : Table.Pointwise (fun _ => ClassInfo.Promoted fields) before.classes after.classes
  others : after = { before with
    globals := after.globals
    scopes := after.scopes
    classes := after.classes }

namespace Table.Promoted

private theorem refl {mutated : String → Prop} (none : ∀ name, ¬ mutated name) (table : Table Ty) :
    Table.Promoted mutated table table :=
  Table.Pointwise.refl (fun name _ => .kept fun holds => absurd holds (none name)) table

private theorem trans {first second : String → Prop} {before between after : Table Ty}
    (left : Table.Promoted first before between) (right : Table.Promoted second between after) :
    Table.Promoted (fun name => first name ∨ second name) before after :=
  Table.Pointwise.trans (fun old new => old.trans new) left right

private theorem modify {mutated : String → Prop} {key : String}
    (only : ∀ name, mutated name ↔ name = key)
    (table : Table Ty) : Table.Promoted mutated table (table.modify key Ty.promoteArray) := by
  apply Table.Pointwise.mapValues
  intro name type
  split
  · exact .of_promoteArray ((only name).mpr ‹_›) type
  · exact .kept fun holds => absurd ((only name).mp holds) ‹_›

end Table.Promoted

private theorem ClassInfo.Promoted.trans {first second : String → Prop}
    {before between after : ClassInfo} (left : ClassInfo.Promoted first before between)
    (right : ClassInfo.Promoted second between after) :
    ClassInfo.Promoted (fun name => first name ∨ second name) before after where
  fields := left.fields.trans right.fields
  others := by
    rw [right.others, left.others]

namespace Environment.Promoted

private theorem refl {names fields : String → Prop} (noVariable : ∀ name, ¬ names name)
    (noField : ∀ field, ¬ fields field) (env : Environment) :
    Environment.Promoted names fields env env where
  globals := .refl noVariable env.globals
  scopes := .refl (fun _ bindings => .refl noVariable bindings) env.scopes
  classes := .refl (fun _ info => ⟨.refl noField info.fields, rfl⟩) env.classes
  others := rfl

private theorem trans {firstVariables firstFields secondVariables secondFields : String → Prop}
    {before between after : Environment}
    (left : Environment.Promoted firstVariables firstFields before between)
    (right : Environment.Promoted secondVariables secondFields between after) :
    Environment.Promoted (fun name => firstVariables name ∨ secondVariables name)
      (fun field => firstFields field ∨ secondFields field) before after where
  globals := left.globals.trans right.globals
  scopes := by
    apply Table.Pointwise.trans _ left.scopes right.scopes
    intro _ _ _ _ old new
    exact Table.Promoted.trans old new
  classes := Table.Pointwise.trans (fun old new => old.trans new) left.classes right.classes
  others := by
    rw [right.others, left.others]

private theorem congr {names otherNames fields otherFields : String → Prop}
    {before after : Environment} (promoted : Environment.Promoted names fields before after)
    (sameNames : ∀ name, names name ↔ otherNames name)
    (sameFields : ∀ field, fields field ↔ otherFields field) :
    Environment.Promoted otherNames otherFields before after := by
  rw [← funext fun name => propext (sameNames name),
    ← funext fun field => propext (sameFields field)]
  exact promoted

end Environment.Promoted

/-! ## The stage -/

private theorem fieldOfSelf?_eq_some_iff {name field : String} :
    fieldOfSelf? name = some field ↔ name = "self." ++ field := by
  have spelled : name = "self." ++ field ↔ name.toList = "self.".toList ++ field.toList := by
    rw [← String.toList_append, String.toList_inj]
  rw [fieldOfSelf?, spelled]
  split
  · rename_i isPrefix
    rcases List.isPrefixOf_iff_prefix.mp isPrefix with ⟨rest, split⟩
    rw [← split, List.drop_left, List.append_cancel_left_eq, Option.some_inj,
      ← String.toList_inj, String.toList_ofList]
  · rename_i notPrefix
    constructor
    · intro impossible
      cases impossible
    · intro split
      exact absurd (List.isPrefixOf_iff_prefix.mpr ⟨field.toList, split.symm⟩) notPrefix

def IsVariable (name : String) : Prop :=
  ∀ field, name ≠ "self." ++ field

private theorem Environment.promoteArrays_promoted (env : Environment) {name : String}
    {names fields : String → Prop} (only : ∀ bound, names bound ↔ bound = name)
    (noField : ∀ field, ¬ fields field) :
    Environment.Promoted names fields env (env.promoteArrays name) where
  globals := .modify only env.globals
  scopes := by
    simp only [Environment.promoteArrays]
    apply Table.Pointwise.mapValues
    intro _ bindings
    exact .modify only bindings
  classes := Table.Pointwise.refl (fun _ info => ⟨.refl noField info.fields, rfl⟩) env.classes
  others := rfl

private theorem Environment.promoteFields_promoted (env : Environment) {field : String}
    {names fields : String → Prop} (noVariable : ∀ bound, ¬ names bound)
    (only : ∀ other, fields other ↔ other = field) :
    Environment.Promoted names fields env (env.promoteFields field) where
  globals := .refl noVariable env.globals
  scopes := Table.Pointwise.refl (fun _ bindings => .refl noVariable bindings) env.scopes
  classes := by
    simp only [Environment.promoteFields]
    apply Table.Pointwise.mapValues
    intro _ info
    exact ⟨.modify only info.fields, rfl⟩
  others := rfl

private theorem Environment.promote_promoted (env : Environment) (name : String) :
    Environment.Promoted (fun bound => bound = name ∧ IsVariable bound)
      (fun field => "self." ++ field = name) env (env.promote name) := by
  rw [Environment.promote]
  split
  · rename_i field split
    have spelled := fieldOfSelf?_eq_some_iff.mp split
    apply env.promoteFields_promoted
    · rintro bound ⟨same, isVariable⟩
      exact isVariable field (same.trans spelled)
    · intro other
      rw [spelled]
      simp
  · rename_i split
    have isVariable : IsVariable name := by
      intro field spelled
      rw [fieldOfSelf?_eq_some_iff.mpr spelled] at split
      cases split
    apply env.promoteArrays_promoted
    · intro bound
      exact ⟨And.left, fun same => ⟨same, same ▸ isVariable⟩⟩
    · exact fun field spelled => isVariable field spelled.symm

theorem Environment.foldl_promote_promoted (names : List String) (env : Environment) :
    Environment.Promoted (fun bound => bound ∈ names ∧ IsVariable bound)
      (fun field => "self." ++ field ∈ names) env (names.foldl Environment.promote env) := by
  induction names generalizing env with
  | nil => exact .refl (by simp) (by simp) env
  | cons name rest induction =>
      apply ((env.promote_promoted name).trans (induction (env.promote name))).congr
      · simp [or_and_right]
      · simp

/-! ## Arrays that are left -/

namespace Environment.Promoted

variable {names fields : String → Prop} {before after : Environment}

private theorem isArray_variable (promoted : Environment.Promoted names fields before after)
    {name : String} (mutated : names name) {owner : Owner} {type : Ty}
    (bound : (after.bindings owner).get? name = some type) : type.isArray = false := by
  cases owner with
  | program =>
      rcases promoted.globals.exists_old bound with ⟨old, _, promotes⟩
      exact promotes.isArray_eq_false mutated
  | scope scope =>
      rw [Environment.bindings, Environment.scopeBindings] at bound
      cases found : after.scopes.get? scope with
      | none =>
          rw [found] at bound
          cases bound
      | some bindings =>
          rw [found] at bound
          rcases promoted.scopes.exists_old found with ⟨_, _, table⟩
          rcases table.exists_old bound with ⟨_, _, promotes⟩
          exact promotes.isArray_eq_false mutated

private theorem isArray_field (promoted : Environment.Promoted names fields before after)
    {field : String} (mutated : fields field) {className : String} {info : ClassInfo}
    (registered : after.classes.get? className = some info) {type : Ty}
    (held : info.fields.get? field = some type) : type.isArray = false := by
  rcases promoted.classes.exists_old registered with ⟨_, _, change⟩
  rcases change.fields.exists_old held with ⟨_, _, promotes⟩
  exact promotes.isArray_eq_false mutated

theorem get?_bindings_of_plain (promoted : Environment.Promoted names fields before after)
    {owner : Owner} {name : String} {type : Ty}
    (bound : (before.bindings owner).get? name = some type) (plain : type.isArray = false) :
    (after.bindings owner).get? name = some type := by
  have kept {old new : Table Ty} (table : Table.Promoted names old new)
      (bound : old.get? name = some type) : new.get? name = some type := by
    rcases Table.exists_get?_of_keys_eq table.keys bound with ⟨changed, found⟩
    cases table.values bound found with
    | grown => cases plain
    | kept => exact found
  cases owner with
  | program => exact kept promoted.globals bound
  | scope scope =>
      rw [Environment.bindings, Environment.scopeBindings] at bound ⊢
      cases found : before.scopes.get? scope with
      | none =>
          rw [found] at bound
          cases bound
      | some bindings =>
          rw [found] at bound
          rcases Table.exists_get?_of_keys_eq promoted.scopes.keys found with ⟨changed, again⟩
          rw [again]
          exact kept (promoted.scopes.values found again) bound

end Environment.Promoted

def Program.beforePromotion (config : Config) (program : Program) : Environment :=
  [Stage.captures, .signatures, .constructors, .returns, .visit].foldl
    (program.runStage config) {}

private theorem Program.analyze_eq (config : Config) (program : Program) :
    program.analyze config = program.withPromotion config (program.beforePromotion config) :=
  rfl

def Program.MutatesField (program : Program) (field : String) : Prop :=
  program.CallsListMethod (.attribute (.name "self") field) ∨
    program.CallsListMethod (.name ("self." ++ field))

theorem Program.analyze_promoted (config : Config) (program : Program)
    (promoting : config.promoteArrays = true) :
    Environment.Promoted
      (fun name => program.CallsListMethod (.name name) ∧ IsVariable name)
      program.MutatesField (program.beforePromotion config) (program.analyze config) := by
  rw [Program.analyze_eq, Program.withPromotion, if_pos promoting]
  apply (Environment.foldl_promote_promoted _ _).congr
  · intro name
    rw [and_congr_left_iff, Program.mem_listMutated_iff, or_iff_left_iff_imp]
    rintro isVariable ⟨field, spelled, _⟩
    exact absurd spelled (isVariable field)
  · intro field
    rw [Program.mem_listMutated_iff, Program.MutatesField, or_comm]
    simp

/-- With promotion on, a list method called on a variable or a field of `self`,
anywhere in the program, leaves no binding of the variable and no field of that name
a fixed array; and promotion changes nothing but these, each from an array to the list
of its elements. A variable that is spelled like a field of `self` counts as that
field. -/
theorem Program.arrays_promoted (config : Config) (program : Program)
    (promoting : config.promoteArrays = true) :
    (∀ name, IsVariable name → program.CallsListMethod (.name name) →
      ∀ owner type, ((program.analyze config).bindings owner).get? name = some type →
        type.isArray = false) ∧
    (∀ field, program.MutatesField field →
      ∀ className info type, (program.analyze config).classes.get? className = some info →
        info.fields.get? field = some type → type.isArray = false) ∧
    Environment.Promoted
      (fun name => program.CallsListMethod (.name name) ∧ IsVariable name)
      program.MutatesField (program.beforePromotion config) (program.analyze config) := by
  have promoted := program.analyze_promoted config promoting
  refine ⟨?_, ?_, promoted⟩
  · intro name isVariable called owner type bound
    exact promoted.isArray_variable ⟨called, isVariable⟩ bound
  · intro field called className info type registered held
    exact promoted.isArray_field called registered held

/-! A class whose method grows its field, and a function that grows a list of its own,
each inside another expression and below a condition or a loop. -/

def Program.growing : Program where
  body := [
    .classDef {
      name := "Shelf", bases := [], decorators := []
      body := [
        .assign [.place (.name "items")] (.list [.literal (.int 1)]),
        .functionDef {
          name := "fill", params := [⟨"self", none, none⟩], returnHint := none
          decorators := [], isAsync := false
          body := [.ifElse (.literal (.bool true))
            [.ret (some (.tuple
              [.methodCall (.attribute (.name "self") "items") "append" [] []]))] []] }] },
    .functionDef {
      name := "grow", params := [], returnHint := none, decorators := [], isAsync := false
      body := [
        .assign [.place (.name "sizes")] (.list [.literal (.int 1), .literal (.int 2)]),
        .whileLoop (.methodCall (.name "sizes") "pop" [] []) [] []] }]

theorem Program.arrays_promoted_growing :
    (Config.promoteArrays {} = true ∧ IsVariable "sizes" ∧
      growing.CallsListMethod (.name "sizes") ∧ growing.MutatesField "items") ∧
    ((growing.beforePromotion {}).bindings (.scope "grow")).get? "sizes" =
      some (.array .int 2) ∧
    (∀ type, ((growing.analyze {}).bindings (.scope "grow")).get? "sizes" = some type →
      type.isArray = false) ∧
    ∀ info type, (growing.analyze {}).classes.get? "Shelf" = some info →
      info.fields.get? "items" = some type → type.isArray = false := by
  have isVariable : IsVariable "sizes" := by
    intro field spelled
    have texts := congrArg String.toList spelled
    simp at texts
  have onVariable : growing.CallsListMethod (.name "sizes") := by
    refine ⟨"pop", by decide, [], [], ?_⟩
    rw [Program.contains_iff]
    simp [growing, Block.everyStatement, Stmt.everyStatement, Stmt.expressions,
      Expr.subexpressions, Expr.fold, Expr.foldEach, Expr.foldKeywords]
  have onField : growing.MutatesField "items" := by
    refine .inl ⟨"append", by decide, [], [], ?_⟩
    rw [Program.contains_iff]
    simp [growing, Block.everyStatement, Stmt.everyStatement, Stmt.expressions,
      Expr.subexpressions, Expr.fold, Expr.foldEach, Expr.foldKeywords]
  have both := growing.arrays_promoted {} rfl
  exact ⟨⟨rfl, isVariable, onVariable, onField⟩, by decide,
    both.1 "sizes" isVariable onVariable (.scope "grow"),
    both.2.1 "items" onField "Shelf"⟩

/-! A class with a field, and a call on a variable that is spelled like that field. -/

def Program.spelledField : Program where
  body := [
    .classDef {
      name := "Shelf", bases := [], decorators := []
      body := [.assign [.place (.name "items")]
        (.list [.literal (.int 1), .literal (.int 2)])] },
    .expr (.methodCall (.name "self.items") "append" [] [])]

/-- A call on an attribute of `self` is not the only one that promotes a field. -/
theorem Program.spelledField_promoted :
    ¬ Environment.Promoted
      (fun name => spelledField.CallsListMethod (.name name) ∧ IsVariable name)
      (fun field => spelledField.CallsListMethod (.attribute (.name "self") field))
      (spelledField.beforePromotion {}) (spelledField.analyze {}) := by
  intro promoted
  have uncalled :
      ¬ spelledField.CallsListMethod (.attribute (.name "self") "items") := by
    rintro ⟨method, _, args, keywords, occurs⟩
    rw [Program.contains_iff] at occurs
    simp [spelledField, Block.everyStatement, Stmt.everyStatement, Stmt.expressions,
      Target.expressions, Target.places, Place.expressions, Expr.subexpressions, Expr.fold,
      Expr.foldEach, Expr.foldKeywords] at occurs
  have change := promoted.classes.values
    (show (spelledField.beforePromotion {}).classes.get? "Shelf" = _ from rfl) rfl
  have promotes : Ty.Promotes _ (.array .int 2) (.list .int) :=
    change.fields.values (show Table.get? _ "items" = _ from rfl) rfl
  cases promotes with
  | grown called => exact uncalled called

end NativeTyping
