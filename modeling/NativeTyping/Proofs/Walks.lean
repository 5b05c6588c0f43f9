import Mathlib.Data.List.Forall2
import NativeTyping.Analysis
/-!
Walks over a body.

What is returned, bound, read, mutated or called in a body is collected by walks of one
kind: outside definitions, a walk finds in a statement what the statement has by itself and
then what it finds in its blocks, in source order. How a walk treats a statement with blocks
follows from that alone.
-/

namespace NativeTyping

/-! ## Lists that correspond -/

private theorem eq_flatMap_of_cons {α β : Type} {whole : List α → List β} {part : α → List β}
    (nil : whole [] = []) (cons : ∀ item rest, whole (item :: rest) = part item ++ whole rest)
    (items : List α) : whole items = items.flatMap part := by
  induction items with
  | nil => exact nil
  | cons item rest induction => rw [cons, induction, List.flatMap_cons]

section Correspondence

variable {α β γ : Type} {Related : α → β → Prop} {lefts : List α} {rights : List β}

theorem map_eq_of_forall₂ (related : List.Forall₂ Related lefts rights) {first : α → γ}
    {second : β → γ} (same : ∀ left right, Related left right → first left = second right) :
    lefts.map first = rights.map second := by
  rw [← List.forall₂_eq_eq_eq]
  exact List.rel_map same related

theorem flatMap_eq_of_forall₂ (related : List.Forall₂ Related lefts rights)
    {first : α → List γ} {second : β → List γ}
    (same : ∀ left right, Related left right → first left = second right) :
    lefts.flatMap first = rights.flatMap second := by
  rw [List.flatMap_def, List.flatMap_def, map_eq_of_forall₂ related same]

theorem filterMap_eq_of_forall₂ (related : List.Forall₂ Related lefts rights)
    {first : α → Option γ} {second : β → Option γ}
    (same : ∀ left right, Related left right → first left = second right) :
    lefts.filterMap first = rights.filterMap second := by
  rw [List.filterMap_eq_flatMap_toList, List.filterMap_eq_flatMap_toList]
  exact flatMap_eq_of_forall₂ related fun left right both =>
    congrArg Option.toList (same left right both)

theorem foldl_eq_of_forall₂ (related : List.Forall₂ Related lefts rights)
    {first : γ → α → γ} {second : γ → β → γ}
    (step : ∀ left right, Related left right → ∀ state, first state left = second state right)
    (state : γ) : lefts.foldl first state = rights.foldl second state := by
  refine List.rel_foldl (P := Eq) ?_ rfl related
  rintro before _ rfl left right alike
  exact step left right alike before

end Correspondence

/-! ## Walks -/

namespace Block

/-- A walk that finds `own stmt` in a statement outside its blocks. -/
structure Walk {α : Type} (walk : Block → List α) (own : Stmt → List α) : Prop where
  append : ∀ first second : Block, walk (first ++ second) = walk first ++ walk second
  single : ∀ {stmt : Stmt}, stmt.isDefinition = false →
    walk [stmt] = own stmt ++ stmt.blocks.flatMap walk

variable {α : Type}

private theorem Walk.of_flatMap {walk : Block → List α} (visit : Stmt → List α)
    {own : Stmt → List α} (each : ∀ body, walk body = body.flatMap visit)
    (single : ∀ stmt : Stmt, stmt.isDefinition = false →
      visit stmt = own stmt ++ stmt.blocks.flatMap walk) : Walk walk own where
  append first second := by simp only [each, List.flatMap_append]
  single plain := by rw [each, List.flatMap_singleton, single _ plain]

namespace Walk

variable {walk : Block → List α} {own : Stmt → List α} (walks : Walk walk own)

include walks

theorem append_eq {left right leftRest rightRest : Block} (first : walk left = walk right)
    (rest : walk leftRest = walk rightRest) :
    walk (left ++ leftRest) = walk (right ++ rightRest) := by
  rw [walks.append, walks.append, first, rest]

theorem single_eq {left right : Stmt} (leftPlain : left.isDefinition = false)
    (rightPlain : right.isDefinition = false) (same : own left = own right)
    (blocks : List.Forall₂ (fun first second => walk first = walk second) left.blocks
      right.blocks) : walk [left] = walk [right] := by
  rw [walks.single leftPlain, walks.single rightPlain, same,
    flatMap_eq_of_forall₂ blocks fun _ _ equal => equal]

private theorem nil : walk [] = [] := by
  have twice : walk ([] ++ []) = walk [] ++ walk [] := walks.append [] []
  exact List.self_eq_append_left.mp twice

private theorem flatten (blocks : List Block) : walk blocks.flatten = blocks.flatMap walk := by
  induction blocks with
  | nil => exact walks.nil
  | cons block rest induction =>
      rw [List.flatten_cons, walks.append, induction, List.flatMap_cons]

/-- A walk does not tell a statement with blocks from a statement without blocks that has the
same by itself and stands before the contents of these blocks. -/
theorem unfolded_eq {stmt other : Stmt} (plain : stmt.isDefinition = false)
    (otherPlain : other.isDefinition = false) (noBlocks : other.blocks = [])
    (same : own stmt = own other) : walk [stmt] = walk (other :: stmt.blocks.flatten) := by
  have split : walk (other :: stmt.blocks.flatten) = walk [other] ++ walk stmt.blocks.flatten :=
    walks.append [other] _
  rw [split, walks.single plain, walks.single otherPlain, walks.flatten, noBlocks, same,
    List.flatMap_nil, List.append_nil]

end Walk

theorem statements_walk (own : Stmt → List α) :
    Walk (fun body => (Block.statements body).flatMap own) own := by
  apply Walk.of_flatMap fun stmt => stmt.statements.flatMap own
  · intro body
    rw [Block.statements_eq_flatMap, List.flatMap_assoc]
  · intro stmt _
    rw [Stmt.statements_eq, List.flatMap_cons, List.flatMap_assoc]

theorem functions_walk : Walk Block.functions fun stmt => stmt.functionDef?.toList := by
  have same : Block.functions =
      fun body => (Block.statements body).flatMap fun stmt => stmt.functionDef?.toList := by
    funext body
    exact List.filterMap_eq_flatMap_toList Stmt.functionDef? (Block.statements body)
  rw [same]
  exact statements_walk _

theorem reads_walk : Walk Block.reads Stmt.ownReads := by
  have inHandlers : ∀ handlers : List Handler,
      handlerReads handlers = handlers.flatMap fun handler => Block.reads handler.body :=
    eq_flatMap_of_cons rfl fun ⟨_, _, _⟩ _ => rfl
  apply Walk.of_flatMap Stmt.reads (eq_flatMap_of_cons rfl fun _ _ => rfl)
  intro stmt plain
  cases stmt with
  | functionDef definition | classDef definition => cases plain
  | tryExcept body handlers orelse finalbody =>
      simp [Stmt.reads, Stmt.ownReads, Stmt.expressions, Stmt.blocks, inHandlers, List.flatMap_map]
  | _ => simp [Stmt.reads, Stmt.blocks]

theorem observations_walk : Walk Block.observations Stmt.ownObservations := by
  have inHandlers : ∀ handlers : List Handler,
      handlerObservations handlers =
        handlers.flatMap fun handler => Block.observations handler.body :=
    eq_flatMap_of_cons rfl fun ⟨_, _, _⟩ _ => rfl
  apply Walk.of_flatMap Stmt.observations (eq_flatMap_of_cons rfl fun _ _ => rfl)
  intro stmt plain
  cases stmt with
  | functionDef definition | classDef definition => cases plain
  | tryExcept body handlers orelse finalbody =>
      simp [Stmt.observations, Stmt.ownObservations, Stmt.expressions, Stmt.stores, Stmt.blocks,
        inHandlers, List.flatMap_map]
  | _ => simp [Stmt.observations, Stmt.blocks]

end Block

def Stmt.constructorCalls (stmt : Stmt) : List (String × List Expr) :=
  stmt.expressions.flatMap fun expr => expr.subexpressions.filterMap Expr.constructorCall?

def Block.constructorCalls (body : Block) : List (String × List Expr) :=
  (Block.everyStatement body).flatMap Stmt.constructorCalls

theorem Block.constructorCalls_walk : Walk Block.constructorCalls Stmt.constructorCalls := by
  have statements : ∀ body : Block, everyStatement body = body.flatMap Stmt.everyStatement :=
    eq_flatMap_of_cons rfl fun _ _ => rfl
  have inHandlers : ∀ handlers : List Handler,
      everyHandlerStatement handlers =
        handlers.flatMap fun handler => Block.everyStatement handler.body :=
    eq_flatMap_of_cons rfl fun ⟨_, _, _⟩ _ => rfl
  apply Walk.of_flatMap fun stmt => stmt.everyStatement.flatMap Stmt.constructorCalls
  · intro body
    rw [Block.constructorCalls, statements, List.flatMap_assoc]
  · intro stmt plain
    cases stmt with
    | functionDef definition | classDef definition => cases plain
    | _ =>
        simp [Stmt.everyStatement, Stmt.blocks, Block.constructorCalls, inHandlers,
          List.flatMap_map, List.flatMap_assoc]

end NativeTyping
