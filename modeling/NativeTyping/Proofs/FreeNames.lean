import NativeTyping.Captures
import NativeTyping.Proofs.Occurrence
/-!
Free names of expressions.

A name is free in an expression if it is read where nothing binds it. A lambda binds its
parameters in its body. A comprehension binds names one generator after the other: the target of
a generator binds its names in the conditions of that generator and in all that follows, but not
in what the generator goes over.

The names collected from an expression leave out, for each part of a comprehension, what any of
its targets binds. So all of them are free, and the ones left out are those that a comprehension
binds as well as reads from outside.
-/

namespace NativeTyping

open Relation

/-! ## Free names -/

/-- An expression stands in a comprehension where none of the targets binds a name: in the
generators, or in the results that they are made for. What stands in a target is evaluated with
the names of the targets before it. -/
inductive ComprehensionPart (name : String) (results : List Expr) (part : Expr) :
    List Generator → Prop
  | iter {generator rest} : part = generator.iter →
      ComprehensionPart name results part (generator :: rest)
  | target {generator rest} : Target.Part part generator.target →
      ComprehensionPart name results part (generator :: rest)
  | condition {generator rest} : name ∉ generator.target.boundNames →
      part ∈ generator.conditions → ComprehensionPart name results part (generator :: rest)
  | later {generator rest} : name ∉ generator.target.boundNames →
      ComprehensionPart name results part rest →
      ComprehensionPart name results part (generator :: rest)
  | result : part ∈ results → ComprehensionPart name results part []

namespace Expr

def isBinder : Expr → Bool
  | .lambda _ _ | .comprehension _ _ _ | .dictComprehension _ _ _ => true
  | _ => false

def generators : Expr → List Generator
  | .comprehension _ _ generators | .dictComprehension _ _ generators => generators
  | _ => []

inductive UnboundPart (name : String) : Expr → Expr → Prop
  | plain {part whole} : whole.isBinder = false → Part part whole → UnboundPart name part whole
  | lambdaBody {params body} : name ∉ params → UnboundPart name body (.lambda params body)
  | comprehension {part kind element generators} :
      ComprehensionPart name [element] part generators →
      UnboundPart name part (.comprehension kind element generators)
  | dictComprehension {part key value generators} :
      ComprehensionPart name [key, value] part generators →
      UnboundPart name part (.dictComprehension key value generators)

inductive Mentions (name : String) : Expr → Prop
  | read : Mentions name (.name name)
  | called {args keywords} : Mentions name (.call name args keywords)

def Free (name : String) (expr : Expr) : Prop :=
  ∃ inner, Mentions name inner ∧ ReflTransGen (UnboundPart name) inner expr

private theorem Free.of_part {name : String} {part whole : Expr} (free : part.Free name)
    (unbound : UnboundPart name part whole) : whole.Free name := by
  obtain ⟨inner, mentions, inside⟩ := free
  exact ⟨inner, mentions, inside.tail unbound⟩

/-! ## Collected names -/

def ClearPart (name : String) (part whole : Expr) : Prop :=
  Part part whole ∧ name ∉ whole.innerBindings

private def ownName? : Expr → Option String
  | .name id => some id
  | .call function _ _ => some function
  | _ => none

private theorem reads_eq (whole : Expr) :
    whole.reads = whole.ownName?.toList ++
      (whole.children.flatMap reads).filter fun name => !whole.innerBindings.contains name := by
  rw [reads, fold_eq, List.flatMap_def]
  cases whole <;> rfl

private theorem ownName?_eq_some_iff {name : String} {expr : Expr} :
    expr.ownName? = some name ↔ Mentions name expr := by
  constructor
  · intro own
    cases expr with
    | name id => exact Option.some_inj.mp own ▸ .read
    | call function args keywords => exact Option.some_inj.mp own ▸ .called
    | _ => cases own
  · rintro (_ | _) <;> rfl

private theorem mem_reads_step {name : String} {whole : Expr} :
    name ∈ whole.reads ↔
      Mentions name whole ∨ ∃ part, ClearPart name part whole ∧ name ∈ part.reads := by
  rw [reads_eq, List.mem_append, Option.mem_toList, ownName?_eq_some_iff, List.mem_filter,
    List.mem_flatMap]
  simp only [mem_children_iff, Bool.not_eq_true', List.contains_eq_mem, decide_eq_false_iff_not]
  refine or_congr_right ⟨?_, ?_⟩
  · rintro ⟨⟨part, inside, member⟩, outside⟩
    exact ⟨part, ⟨inside, outside⟩, member⟩
  · rintro ⟨part, ⟨inside, outside⟩, member⟩
    exact ⟨⟨part, inside, member⟩, outside⟩

/-- A name is collected from an expression if it is read in it and no expression around that
place binds the name for any of its parts. -/
theorem mem_reads_iff {name : String} {expr : Expr} :
    name ∈ expr.reads ↔
      ∃ inner, Mentions name inner ∧ ReflTransGen (ClearPart name) inner expr := by
  induction expr using part_induction with
  | step whole induction =>
      rw [mem_reads_step]
      constructor
      · rintro (mentions | ⟨part, clear, member⟩)
        · exact ⟨whole, mentions, .refl⟩
        · obtain ⟨inner, mentions, inside⟩ := (induction part clear.1).mp member
          exact ⟨inner, mentions, inside.tail clear⟩
      · rintro ⟨inner, mentions, inside⟩
        obtain rfl | ⟨part, within, clear⟩ := inside.cases_tail
        · exact .inl mentions
        · exact .inr ⟨part, clear, (induction part clear.1).mpr ⟨inner, mentions, within⟩⟩

private theorem mem_usedNames_expr {name : String} {expr : Expr} :
    name ∈ (Block.usedNames [.expr expr]).names ↔ name ∈ expr.reads := by
  simp [Block.usedNames, Block.reads, Stmt.reads, Stmt.ownReads, Stmt.expressions]

end Expr

/-! ## The two readings of a comprehension -/

private theorem comprehensionPart_of_clear {name : String} {results : List Expr} {part : Expr}
    {generators : List Generator}
    (clear : name ∉ generators.flatMap fun generator => generator.target.boundNames)
    (inside : part ∈ generators.flatMap Generator.expressions ++ results) :
    ComprehensionPart name results part generators := by
  induction generators with
  | nil => exact .result inside
  | cons generator rest induction =>
      rw [List.flatMap_cons, List.mem_append, not_or] at clear
      rw [List.flatMap_cons, List.append_assoc, List.mem_append, Generator.expressions,
        List.mem_cons] at inside
      rcases inside with (isIter | isCondition) | after
      · exact .iter isIter
      · exact .condition clear.1 isCondition
      · exact .later clear.1 (induction clear.2 after)

private theorem ComprehensionPart.part_or_target {name : String} {results : List Expr} {part : Expr}
    {generators : List Generator} (inside : ComprehensionPart name results part generators) :
    part ∈ generators.flatMap Generator.expressions ++ results ∨
      ∃ generator ∈ generators, Target.Part part generator.target := by
  induction inside with
  | iter isIter => simp [Generator.expressions, isIter]
  | target within => exact .inr ⟨_, List.mem_cons_self, within⟩
  | condition _ isCondition => simp [Generator.expressions, isCondition]
  | @later generator rest _ _ induction =>
      rcases induction with isPart | ⟨other, member, within⟩
      · left
        rw [List.flatMap_cons, List.append_assoc]
        exact List.mem_append_right _ isPart
      · exact .inr ⟨other, List.mem_cons_of_mem _ member, within⟩
  | result member => exact .inl member

namespace Expr

private theorem ClearPart.unboundPart {name : String} {part whole : Expr}
    (clear : ClearPart name part whole) : UnboundPart name part whole := by
  obtain ⟨inside, outside⟩ := clear
  cases whole with
  | lambda params body =>
      cases inside
      exact .lambdaBody outside
  | comprehension kind element generators =>
      exact .comprehension (comprehensionPart_of_clear outside (mem_children_iff.mpr inside))
  | dictComprehension key value generators =>
      exact .dictComprehension (comprehensionPart_of_clear outside (mem_children_iff.mpr inside))
  | _ => exact .plain rfl inside

/-- A place where an expression does not bind a name is in a part of it that is left alone,
unless the expression binds the name elsewhere or the place is in a target. -/
theorem UnboundPart.clear_or {name : String} {part whole : Expr}
    (unbound : UnboundPart name part whole) :
    ClearPart name part whole ∨ name ∈ whole.innerBindings ∨
      ∃ generator ∈ whole.generators, Target.Part part generator.target := by
  by_cases bound : name ∈ whole.innerBindings
  · exact .inr (.inl bound)
  cases unbound with
  | plain _ inside => exact .inl ⟨inside, bound⟩
  | lambdaBody _ => exact .inl ⟨.lambdaBody, bound⟩
  | comprehension within | dictComprehension within =>
      rcases within.part_or_target with isPart | inTarget
      · exact .inl ⟨mem_children_iff.mp isPart, bound⟩
      · exact .inr (.inr inTarget)

/-- A name is free in a comprehension that binds it too, or in a target of the comprehension. -/
def Hides (name : String) (expr : Expr) : Prop :=
  expr.Free name ∧ (name ∈ expr.innerBindings ∨
    ∃ generator ∈ expr.generators, ∃ part, Target.Part part generator.target ∧ part.Free name)

/-- A free name is collected, or left out by an expression that hides it. The induction is on the
way out from the place where the name is read. -/
theorem Free.collected_or_hidden {name : String} {expr : Expr} (free : expr.Free name) :
    name ∈ expr.reads ∨
      ∃ hider, Hides name hider ∧ ReflTransGen (ClearPart name) hider expr := by
  obtain ⟨inner, mentions, inside⟩ := free
  induction inside with
  | refl => exact .inl (mem_reads_iff.mpr ⟨inner, mentions, .refl⟩)
  | @tail part whole within unbound induction =>
      have freeInPart : part.Free name := ⟨inner, mentions, within⟩
      have freeInWhole := freeInPart.of_part unbound
      rcases unbound.clear_or with clear | bound | ⟨generator, member, inTarget⟩
      · rcases induction with collected | ⟨hider, hides, outward⟩
        · exact .inl (mem_reads_step.mpr (.inr ⟨part, clear, collected⟩))
        · exact .inr ⟨hider, hides, outward.tail clear⟩
      · exact .inr ⟨whole, ⟨freeInWhole, .inl bound⟩, .refl⟩
      · exact .inr ⟨whole, ⟨freeInWhole, .inr ⟨generator, member, part, inTarget, freeInPart⟩⟩,
          .refl⟩

private theorem Free.of_clear {name : String} {inner expr : Expr} (free : inner.Free name)
    (outward : ReflTransGen (ClearPart name) inner expr) : expr.Free name := by
  induction outward with
  | refl => exact free
  | tail _ clear induction => exact induction.of_part clear.unboundPart

/-! ## Agreement -/

/-- The names used by an expression are read in it with nothing around them that binds them in any
of its parts. They are all free, and the free names that are missing are those that an expression
hides, with nothing around it that binds them. -/
theorem usedNames_free_or_hidden (name : String) (expr : Expr) :
    (name ∈ (Block.usedNames [.expr expr]).names ↔
      ∃ inner, Mentions name inner ∧ ReflTransGen (ClearPart name) inner expr) ∧
    (expr.Free name ↔ name ∈ (Block.usedNames [.expr expr]).names ∨
      ∃ hider, Hides name hider ∧ ReflTransGen (ClearPart name) hider expr) := by
  rw [mem_usedNames_expr]
  refine ⟨mem_reads_iff, Free.collected_or_hidden, ?_⟩
  rintro (collected | ⟨hider, hides, outward⟩)
  · obtain ⟨inner, mentions, outward⟩ := mem_reads_iff.mp collected
    exact Free.of_clear ⟨inner, mentions, .refl⟩ outward
  · exact hides.1.of_clear outward

/-- A comprehension goes over a variable and binds the same name: the variable is read outside of
what the target binds, and is not collected. -/
theorem iterable_not_used :
    let expr := Expr.comprehension .list (.name "x") [⟨.place (.name "x"), .name "x", []⟩]
    expr.Free "x" ∧ "x" ∉ (Block.usedNames [.expr expr]).names := by
  intro expr
  have inIter : UnboundPart "x" (.name "x") expr := .comprehension (.iter rfl)
  exact ⟨⟨.name "x", .read, .single inIter⟩, by decide⟩

end Expr

end NativeTyping
