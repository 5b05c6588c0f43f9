import Mathlib.Logic.Relation
import NativeTyping.Mutation.Event
/-!
Where expressions occur in a program.

The relations of this module name every position of the syntax at which an
expression or a statement can stand, one rule for each, without regard to how the
analyses walk over a program. The walks that list sub-expressions, expressions of
statements and statements of definitions are shown to list exactly what the
relations allow.
-/

namespace NativeTyping

open Relation

/-! ## Expressions in expressions -/

/-- An expression stands immediately in another. The targets of a comprehension are
no part of it. -/
inductive Expr.Part : Expr → Expr → Prop
  | binaryLeft {op left right} : Part left (.binary op left right)
  | binaryRight {op left right} : Part right (.binary op left right)
  | operand {op operand} : Part operand (.unary op operand)
  | compareLeft {left ops comparators} : Part left (.compare left ops comparators)
  | comparator {part left ops comparators} : part ∈ comparators →
      Part part (.compare left ops comparators)
  | connected {part op values} : part ∈ values → Part part (.connective op values)
  | callArg {part function args keywords} : part ∈ args →
      Part part (.call function args keywords)
  | callKeyword {name part function args keywords} : (name, part) ∈ keywords →
      Part part (.call function args keywords)
  | receiver {receiver method args keywords} :
      Part receiver (.methodCall receiver method args keywords)
  | methodArg {part receiver method args keywords} : part ∈ args →
      Part part (.methodCall receiver method args keywords)
  | methodKeyword {name part receiver method args keywords} : (name, part) ∈ keywords →
      Part part (.methodCall receiver method args keywords)
  | callee {callee args} : Part callee (.dynamicCall callee args)
  | dynamicArg {part callee args} : part ∈ args → Part part (.dynamicCall callee args)
  | attributed {value attr} : Part value (.attribute value attr)
  | subscriptBase {base index} : Part base (.subscript base index)
  | subscriptIndex {base index} : Part index (.subscript base index)
  | sliceBase {base start stop step} : Part base (.slice base start stop step)
  | sliceStart {base start stop step} : Part start (.slice base (some start) stop step)
  | sliceStop {base start stop step} : Part stop (.slice base start (some stop) step)
  | sliceStep {base start stop step} : Part step (.slice base start stop (some step))
  | listItem {part items} : part ∈ items → Part part (.list items)
  | tupleItem {part items} : part ∈ items → Part part (.tuple items)
  | setItem {part items} : part ∈ items → Part part (.set items)
  | dictKey {key value items} : (key, value) ∈ items → Part key (.dict items)
  | dictValue {key value items} : (key, value) ∈ items → Part value (.dict items)
  | element {kind element generators} : Part element (.comprehension kind element generators)
  | iter {kind element generators} {generator : Generator} : generator ∈ generators →
      Part generator.iter (.comprehension kind element generators)
  | condition {part kind element generators} {generator : Generator} :
      generator ∈ generators → part ∈ generator.conditions →
      Part part (.comprehension kind element generators)
  | entryKey {key value generators} : Part key (.dictComprehension key value generators)
  | entryValue {key value generators} : Part value (.dictComprehension key value generators)
  | entryIter {key value generators} {generator : Generator} : generator ∈ generators →
      Part generator.iter (.dictComprehension key value generators)
  | entryCondition {part key value generators} {generator : Generator} :
      generator ∈ generators → part ∈ generator.conditions →
      Part part (.dictComprehension key value generators)
  | lambdaBody {params body} : Part body (.lambda params body)
  | conditionalTest {test body orelse} : Part test (.conditional test body orelse)
  | conditionalBody {test body orelse} : Part body (.conditional test body orelse)
  | conditionalElse {test body orelse} : Part orelse (.conditional test body orelse)
  | formattedValue {part parts} : FormatPart.value part ∈ parts → Part part (.formatted parts)
  | awaited {value} : Part value (.await value)
  | yielded {value} : Part value (.yield (some value))
  | starred {value} : Part value (.starred value)

private theorem mem_keywordValues {part : Expr} {keywords : List (String × Expr)} :
    part ∈ keywords.map Prod.snd ↔ ∃ name, (name, part) ∈ keywords := by
  simp

private theorem mem_itemExpressions {part : Expr} {items : List (Expr × Expr)} :
    (part ∈ items.flatMap fun item => [item.1, item.2]) ↔
      (∃ value, (part, value) ∈ items) ∨ ∃ key, (key, part) ∈ items := by
  simp only [List.mem_flatMap, List.mem_cons, List.not_mem_nil, or_false]
  constructor
  · rintro ⟨⟨key, value⟩, member, rfl | rfl⟩
    · exact .inl ⟨value, member⟩
    · exact .inr ⟨key, member⟩
  · rintro (⟨value, member⟩ | ⟨key, member⟩)
    · exact ⟨_, member, .inl rfl⟩
    · exact ⟨_, member, .inr rfl⟩

private theorem mem_generatorExpressions {part : Expr} {generators : List Generator} :
    part ∈ generators.flatMap Generator.expressions ↔
      ∃ generator ∈ generators, part = generator.iter ∨ part ∈ generator.conditions := by
  simp [Generator.expressions]

private theorem mem_formatExpressions {part : Expr} {parts : List FormatPart} :
    part ∈ parts.flatMap FormatPart.expressions ↔ FormatPart.value part ∈ parts := by
  simp only [List.mem_flatMap]
  constructor
  · rintro ⟨piece, member, inside⟩
    cases piece with
    | text content => simp [FormatPart.expressions] at inside
    | value expr => exact List.mem_singleton.mp inside ▸ member
  · intro member
    exact ⟨_, member, List.mem_singleton.mpr rfl⟩

namespace Expr

/-- The children of an expression are what stands immediately in it. -/
theorem mem_children_iff {part whole : Expr} : part ∈ whole.children ↔ Part part whole := by
  constructor
  · intro member
    cases whole <;>
      simp only [children, mem_keywordValues, mem_itemExpressions, mem_generatorExpressions,
        mem_formatExpressions, List.mem_cons, List.mem_append, List.not_mem_nil, or_false,
        Option.mem_toList] at member
    all_goals grind [Part]
  · intro inside
    cases inside <;>
      simp only [children, mem_keywordValues, mem_itemExpressions, mem_generatorExpressions,
        mem_formatExpressions, List.mem_cons, List.mem_append, List.not_mem_nil, or_false,
        Option.mem_toList]
    all_goals grind

private theorem Part.sizeOf_lt {part whole : Expr} (inside : Part part whole) :
    sizeOf part < sizeOf whole := by
  cases inside
  case comparator member | connected member | callArg member | methodArg member
      | dynamicArg member | listItem member | tupleItem member | setItem member =>
    have smaller := List.sizeOf_lt_of_mem member
    simp
    omega
  case callKeyword member | methodKeyword member | dictKey member | dictValue member
      | formattedValue member =>
    have smaller := List.sizeOf_lt_of_mem member
    simp at smaller ⊢
    omega
  case iter generator member | entryIter generator member =>
    have smaller := List.sizeOf_lt_of_mem member
    cases generator
    simp at smaller ⊢
    omega
  case condition generator inside member | entryCondition generator inside member =>
    have smaller := List.sizeOf_lt_of_mem member
    have within := List.sizeOf_lt_of_mem inside
    cases generator
    simp at smaller within ⊢
    omega
  all_goals
    simp
    try omega

@[elab_as_elim]
theorem part_induction {motive : Expr → Prop} (expr : Expr)
    (step : ∀ whole, (∀ part, Part part whole → motive part) → motive whole) : motive expr :=
  step expr fun part _ => part_induction part step
termination_by sizeOf expr
decreasing_by exact Part.sizeOf_lt ‹_›

private theorem subexpressions_eq (whole : Expr) :
    whole.subexpressions = whole :: whole.children.flatMap subexpressions := by
  rw [subexpressions, fold_eq, List.flatMap_def]
  rfl

/-- The sub-expressions of an expression are what stands in it at any depth. -/
theorem mem_subexpressions_iff {part whole : Expr} :
    part ∈ whole.subexpressions ↔ ReflTransGen Part part whole := by
  induction whole using part_induction with
  | step whole induction =>
      rw [subexpressions_eq, List.mem_cons, List.mem_flatMap, ReflTransGen.cases_tail_iff]
      constructor
      · rintro (rfl | ⟨child, member, inside⟩)
        · exact .inl rfl
        · have direct := mem_children_iff.mp member
          exact .inr ⟨child, (induction child direct).mp inside, direct⟩
      · rintro (rfl | ⟨child, inside, direct⟩)
        · exact .inl rfl
        · exact .inr ⟨child, mem_children_iff.mpr direct, (induction child direct).mpr inside⟩

end Expr

/-! ## Expressions in targets -/

inductive Place.Part : Expr → Place → Prop
  | attributed {value attr} : Part value (.attribute value attr)
  | base {base index} : Part base (.subscript base index)
  | index {base index} : Part index (.subscript base index)

inductive Target.Part : Expr → Target → Prop
  | place {expr single} : Place.Part expr single → Part expr (.place single)
  | item {expr item items} : item ∈ items → Part expr item → Part expr (.tuple items)
  | starred {expr inner} : Part expr inner → Part expr (.starred inner)

private theorem Place.mem_expressions_iff {expr : Expr} {place : Place} :
    expr ∈ place.expressions ↔ Place.Part expr place := by
  constructor
  · intro member
    cases place <;> grind [Place.expressions, Place.Part]
  · intro inside
    cases inside <;> simp [Place.expressions]

namespace Target

private theorem expressions_tuple (items : List Target) :
    (Target.tuple items).expressions = items.flatMap expressions := by
  rw [expressions, places, placesEach_eq_flatMap, List.flatMap_assoc]
  rfl

mutual

private theorem mem_expressions_iff (target : Target) {expr : Expr} :
    expr ∈ target.expressions ↔ Part expr target := by
  cases target with
  | place single =>
      rw [expressions, places, List.flatMap_singleton, Place.mem_expressions_iff]
      constructor
      · exact .place
      · rintro ⟨inside⟩
        exact inside
  | tuple items =>
      rw [expressions_tuple, mem_itemExpressions_iff items]
      constructor
      · rintro ⟨item, member, inside⟩
        exact .item member inside
      · rintro ⟨⟩
        exact ⟨_, ‹_›, ‹_›⟩
  | starred inner =>
      rw [expressions, places, ← expressions, mem_expressions_iff inner]
      constructor
      · exact .starred
      · rintro ⟨⟩
        assumption

private theorem mem_itemExpressions_iff (items : List Target) {expr : Expr} :
    expr ∈ items.flatMap expressions ↔ ∃ item ∈ items, Part expr item := by
  cases items with
  | nil => simp
  | cons item rest =>
      rw [List.flatMap_cons, List.mem_append, mem_expressions_iff item,
        mem_itemExpressions_iff rest]
      simp

end

end Target

/-! ## Expressions in statements -/

/-- A statement evaluates an expression itself, outside its blocks and bodies. A
definition evaluates the defaults of its parameters. -/
inductive Stmt.Part : Expr → Stmt → Prop
  | assignTarget {expr target targets value} : target ∈ targets → Target.Part expr target →
      Part expr (.assign targets value)
  | assignValue {targets value} : Part value (.assign targets value)
  | annotatedTarget {expr target hint value} : Target.Part expr target →
      Part expr (.annAssign target hint value)
  | annotatedValue {target hint value} : Part value (.annAssign target hint (some value))
  | updatedTarget {expr target op value} : Target.Part expr target →
      Part expr (.augAssign target op value)
  | updatedValue {target op value} : Part value (.augAssign target op value)
  | expr {value} : Part value (.expr value)
  | ret {value} : Part value (.ret (some value))
  | ifCondition {condition body orelse} : Part condition (.ifElse condition body orelse)
  | whileCondition {condition body orelse} : Part condition (.whileLoop condition body orelse)
  | forTarget {expr target iter body orelse} : Target.Part expr target →
      Part expr (.forLoop target iter body orelse)
  | forIter {target iter body orelse} : Part iter (.forLoop target iter body orelse)
  | withContext {items body} {item : WithItem} : item ∈ items →
      Part item.context (.withBlock items body)
  | withTarget {expr target items body} {item : WithItem} : item ∈ items →
      item.target = some target → Target.Part expr target → Part expr (.withBlock items body)
  | raised {value} : Part value (.raise (some value))
  | assertTest {test message} : Part test (.assert test message)
  | assertMessage {test message} : Part message (.assert test (some message))
  | deleted {expr exprs} : expr ∈ exprs → Part expr (.delete exprs)
  | paramDefault {default definition} {param : Param} :
      param ∈ FunctionDef.params definition → param.default = some default →
      Part default (.functionDef definition)

private theorem mem_withExpressions {expr : Expr} {items : List WithItem} :
    (expr ∈ items.flatMap fun item =>
        item.context :: item.target.toList.flatMap Target.expressions) ↔
      ∃ item ∈ items, expr = item.context ∨
        ∃ target, item.target = some target ∧ Target.Part expr target := by
  simp [Target.mem_expressions_iff]

private theorem Stmt.mem_expressions_iff {expr : Expr} {stmt : Stmt} :
    expr ∈ stmt.expressions ↔ Stmt.Part expr stmt := by
  constructor
  · intro member
    cases stmt <;>
      simp only [expressions, Target.mem_itemExpressions_iff, Target.mem_expressions_iff,
        mem_withExpressions, List.mem_append, List.mem_cons, List.not_mem_nil, or_false,
        Option.mem_toList, List.mem_filterMap] at member
    all_goals grind [Stmt.Part]
  · intro inside
    cases inside <;>
      simp only [expressions, Target.mem_itemExpressions_iff, Target.mem_expressions_iff,
        mem_withExpressions, List.mem_append, List.mem_cons, List.not_mem_nil, or_false,
        Option.mem_toList, List.mem_filterMap]
    all_goals grind

/-! ## Statements in statements -/

/-- A statement stands immediately in a block of another, or in the body of the
function or class that the other defines. -/
inductive Stmt.Inner : Stmt → Stmt → Prop
  | ifBody {inner condition body orelse} : inner ∈ body →
      Inner inner (.ifElse condition body orelse)
  | ifOrelse {inner condition body orelse} : inner ∈ orelse →
      Inner inner (.ifElse condition body orelse)
  | whileBody {inner condition body orelse} : inner ∈ body →
      Inner inner (.whileLoop condition body orelse)
  | whileOrelse {inner condition body orelse} : inner ∈ orelse →
      Inner inner (.whileLoop condition body orelse)
  | forBody {inner target iter body orelse} : inner ∈ body →
      Inner inner (.forLoop target iter body orelse)
  | forOrelse {inner target iter body orelse} : inner ∈ orelse →
      Inner inner (.forLoop target iter body orelse)
  | tryBody {inner body handlers orelse finalbody} : inner ∈ body →
      Inner inner (.tryExcept body handlers orelse finalbody)
  | handlerBody {inner body handlers orelse finalbody} {handler : Handler} :
      handler ∈ handlers → inner ∈ handler.body →
      Inner inner (.tryExcept body handlers orelse finalbody)
  | tryOrelse {inner body handlers orelse finalbody} : inner ∈ orelse →
      Inner inner (.tryExcept body handlers orelse finalbody)
  | tryFinally {inner body handlers orelse finalbody} : inner ∈ finalbody →
      Inner inner (.tryExcept body handlers orelse finalbody)
  | withBody {inner items body} : inner ∈ body → Inner inner (.withBlock items body)
  | functionBody {inner definition} : inner ∈ FunctionDef.body definition →
      Inner inner (.functionDef definition)
  | classBody {inner definition} : inner ∈ ClassDef.body definition →
      Inner inner (.classDef definition)

mutual

private theorem Stmt.mem_everyStatement_iff (stmt : Stmt) {inner : Stmt} :
    inner ∈ stmt.everyStatement ↔ ReflTransGen Stmt.Inner inner stmt := by
  -- A path to a statement is empty, or its last step leads into one of its blocks.
  rw [ReflTransGen.cases_tail_iff]
  cases stmt with
  | ifElse _ body orelse | whileLoop _ body orelse | forLoop _ _ body orelse =>
      rw [Stmt.everyStatement, List.mem_cons, List.mem_append,
        Block.mem_everyStatement_iff body, Block.mem_everyStatement_iff orelse]
      grind [Stmt.Inner, cases Stmt.Inner]
  | tryExcept body handlers orelse finalbody =>
      rw [Stmt.everyStatement, List.mem_cons, List.mem_append, List.mem_append, List.mem_append,
        Block.mem_everyStatement_iff body, Block.mem_everyHandlerStatement_iff handlers,
        Block.mem_everyStatement_iff orelse, Block.mem_everyStatement_iff finalbody]
      grind [Stmt.Inner, cases Stmt.Inner]
  | withBlock items body =>
      rw [Stmt.everyStatement, List.mem_cons, Block.mem_everyStatement_iff body]
      grind [Stmt.Inner, cases Stmt.Inner]
  | functionDef definition =>
      rcases definition with ⟨name, params, returnHint, body, decorators, isAsync⟩
      rw [Stmt.everyStatement, List.mem_cons, Block.mem_everyStatement_iff body]
      grind [Stmt.Inner, cases Stmt.Inner]
  | classDef definition =>
      rcases definition with ⟨name, bases, decorators, body⟩
      rw [Stmt.everyStatement, List.mem_cons, Block.mem_everyStatement_iff body]
      grind [Stmt.Inner, cases Stmt.Inner]
  | _ =>
      simp only [Stmt.everyStatement, List.mem_singleton]
      grind [cases Stmt.Inner]

private theorem Block.mem_everyStatement_iff (body : List Stmt) {inner : Stmt} :
    inner ∈ Block.everyStatement body ↔ ∃ stmt ∈ body, ReflTransGen Stmt.Inner inner stmt := by
  cases body with
  | nil => simp [Block.everyStatement]
  | cons stmt rest =>
      rw [Block.everyStatement, List.mem_append, Stmt.mem_everyStatement_iff stmt,
        Block.mem_everyStatement_iff rest]
      simp

private theorem Block.mem_everyHandlerStatement_iff (handlers : List Handler) {inner : Stmt} :
    inner ∈ everyHandlerStatement handlers ↔
      ∃ handler ∈ handlers, ∃ stmt ∈ handler.body, ReflTransGen Stmt.Inner inner stmt := by
  cases handlers with
  | nil => simp [everyHandlerStatement]
  | cons handler rest =>
      rcases handler with ⟨exception, name, body⟩
      rw [everyHandlerStatement, List.mem_append, Block.mem_everyStatement_iff body,
        Block.mem_everyHandlerStatement_iff rest]
      simp

end

/-! ## Observations

A scan for mutations observes what each statement of a program shows by itself,
wherever the statement stands.
-/

mutual

theorem Stmt.mem_observations_iff (stmt : Stmt) {observation : Mutation.Observation} :
    observation ∈ stmt.observations ↔
      ∃ inner ∈ stmt.everyStatement, observation ∈ inner.ownObservations := by
  cases stmt with
  | ifElse _ body orelse | whileLoop _ body orelse | forLoop _ _ body orelse =>
      simp [Stmt.observations, Stmt.everyStatement, Block.mem_observations_iff body,
        Block.mem_observations_iff orelse, or_and_right, exists_or]
  | tryExcept body handlers orelse finalbody =>
      simp [Stmt.observations, Stmt.everyStatement, Block.mem_observations_iff body,
        Block.mem_handlerObservations_iff handlers, Block.mem_observations_iff orelse,
        Block.mem_observations_iff finalbody, or_and_right, exists_or, Stmt.ownObservations,
        Stmt.stores, Stmt.expressions]
  | withBlock items body =>
      simp [Stmt.observations, Stmt.everyStatement, Block.mem_observations_iff body]
  | functionDef definition =>
      rcases definition with ⟨name, params, returnHint, body, decorators, isAsync⟩
      simp [Stmt.observations, Stmt.everyStatement, Block.mem_observations_iff body, or_comm]
  | classDef definition =>
      rcases definition with ⟨name, bases, decorators, body⟩
      simp [Stmt.observations, Stmt.everyStatement, Block.mem_observations_iff body,
        Stmt.ownObservations, Stmt.stores, Stmt.expressions]
  | _ => simp [Stmt.observations, Stmt.everyStatement]

theorem Block.mem_observations_iff (body : List Stmt) {observation : Mutation.Observation} :
    observation ∈ Block.observations body ↔
      ∃ inner ∈ Block.everyStatement body, observation ∈ inner.ownObservations := by
  cases body with
  | nil => simp [Block.observations, Block.everyStatement]
  | cons stmt rest =>
      simp [Block.observations, Block.everyStatement, Stmt.mem_observations_iff stmt,
        Block.mem_observations_iff rest, or_and_right, exists_or]

theorem Block.mem_handlerObservations_iff (handlers : List Handler)
    {observation : Mutation.Observation} :
    observation ∈ handlerObservations handlers ↔
      ∃ inner ∈ everyHandlerStatement handlers, observation ∈ inner.ownObservations := by
  cases handlers with
  | nil => simp [handlerObservations, everyHandlerStatement]
  | cons handler rest =>
      rcases handler with ⟨exception, name, body⟩
      simp [handlerObservations, everyHandlerStatement, Block.mem_observations_iff body,
        Block.mem_handlerObservations_iff rest, or_and_right, exists_or]

end

/-! ## Programs -/

/-- An expression occurs in a program: somewhere in an expression that a statement
evaluates, wherever that statement stands. -/
def Program.Contains (program : Program) (expr : Expr) : Prop :=
  ∃ top ∈ program.body, ∃ stmt, ReflTransGen Stmt.Inner stmt top ∧
    ∃ whole, Stmt.Part whole stmt ∧ ReflTransGen Expr.Part expr whole

theorem Program.contains_iff {program : Program} {expr : Expr} :
    program.Contains expr ↔ ∃ stmt ∈ Block.everyStatement program.body,
      ∃ whole ∈ stmt.expressions, expr ∈ whole.subexpressions := by
  simp only [Program.Contains, Block.mem_everyStatement_iff, Stmt.mem_expressions_iff,
    Expr.mem_subexpressions_iff]
  constructor
  · rintro ⟨top, member, stmt, path, whole, inside, occurs⟩
    exact ⟨stmt, ⟨top, member, path⟩, whole, inside, occurs⟩
  · rintro ⟨stmt, ⟨top, member, path⟩, whole, inside, occurs⟩
    exact ⟨top, member, stmt, path, whole, inside, occurs⟩

end NativeTyping
