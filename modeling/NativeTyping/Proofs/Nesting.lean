import NativeTyping.Program.Stmt
/-!
Induction over functions nested in functions.

The functions nested immediately in a function are found through the control flow
of its body, so they are no immediate parts of the definition. What holds of a
function as soon as it holds of those nested immediately in it holds of every
function.
-/

namespace NativeTyping

mutual

@[elab_as_elim]
theorem FunctionDef.nested_induction {motive : FunctionDef → Prop} (definition : FunctionDef)
    (step : ∀ outer, (∀ inner ∈ FunctionDef.nested outer, motive inner) → motive outer) :
    motive definition := by
  rcases definition with ⟨name, params, returnHint, body, decorators, isAsync⟩
  exact step _ (Block.forall_functions body step)

theorem Stmt.forall_functions {motive : FunctionDef → Prop} (stmt : Stmt)
    (step : ∀ outer, (∀ inner ∈ FunctionDef.nested outer, motive inner) → motive outer) :
    ∀ inner ∈ stmt.statements.filterMap Stmt.functionDef?, motive inner := by
  intro inner member
  cases stmt with
  | functionDef definition =>
      have same : inner = definition := by
        simpa [Stmt.statements, Stmt.functionDef?] using member
      rw [same]
      exact FunctionDef.nested_induction definition step
  | ifElse _ body orelse | whileLoop _ body orelse | forLoop _ _ body orelse =>
      simp only [Stmt.statements, Stmt.functionDef?, List.filterMap_cons, List.filterMap_append,
        List.mem_append] at member
      rcases member with member | member
      · exact Block.forall_functions body step inner member
      · exact Block.forall_functions orelse step inner member
  | tryExcept body handlers orelse finalbody =>
      simp only [Stmt.statements, Stmt.functionDef?, List.filterMap_cons, List.filterMap_append,
        List.mem_append] at member
      rcases member with member | member | member | member
      · exact Block.forall_functions body step inner member
      · exact Block.forall_handler_functions handlers step inner member
      · exact Block.forall_functions orelse step inner member
      · exact Block.forall_functions finalbody step inner member
  | withBlock items body =>
      simp only [Stmt.statements, Stmt.functionDef?, List.filterMap_cons] at member
      exact Block.forall_functions body step inner member
  | _ => simp [Stmt.statements, Stmt.functionDef?] at member

theorem Block.forall_functions {motive : FunctionDef → Prop} (body : List Stmt)
    (step : ∀ outer, (∀ inner ∈ FunctionDef.nested outer, motive inner) → motive outer) :
    ∀ inner ∈ Block.functions body, motive inner := by
  intro inner member
  cases body with
  | nil => simp [Block.functions, Block.statements] at member
  | cons stmt rest =>
      simp only [Block.functions, Block.statements, List.filterMap_append,
        List.mem_append] at member
      rcases member with member | member
      · exact Stmt.forall_functions stmt step inner member
      · exact Block.forall_functions rest step inner member

theorem Block.forall_handler_functions {motive : FunctionDef → Prop} (handlers : List Handler)
    (step : ∀ outer, (∀ inner ∈ FunctionDef.nested outer, motive inner) → motive outer) :
    ∀ inner ∈ (handlerStatements handlers).filterMap Stmt.functionDef?, motive inner := by
  intro inner member
  cases handlers with
  | nil => simp [handlerStatements] at member
  | cons handler rest =>
      rcases handler with ⟨exception, name, body⟩
      simp only [handlerStatements, List.filterMap_append, List.mem_append] at member
      rcases member with member | member
      · exact Block.forall_functions body step inner member
      · exact Block.forall_handler_functions rest step inner member

end

end NativeTyping
