import NativeTyping.Proofs.Likeness.Program
/-!
Hints that are not trusted are not read.

Taking the hints out of a program leaves a program that an analysis without hints does not
tell from it. So with hints off, programs that differ in nothing but their hints have the
same analysis.
-/

namespace NativeTyping

/-! ## Programs without their hints

An annotated assignment stays one: only the text of its hint goes.
-/

def Param.withoutHint (param : Param) : Param :=
  { param with hint := none }

mutual

def Stmt.withoutHints : Stmt → Stmt
  | .annAssign target _ value => .annAssign target "" value
  | .ifElse condition body orelse =>
      .ifElse condition (Block.withoutHints body) (Block.withoutHints orelse)
  | .whileLoop condition body orelse =>
      .whileLoop condition (Block.withoutHints body) (Block.withoutHints orelse)
  | .forLoop target iter body orelse =>
      .forLoop target iter (Block.withoutHints body) (Block.withoutHints orelse)
  | .functionDef ⟨name, params, _, body, decorators, isAsync⟩ =>
      .functionDef ⟨name, params.map Param.withoutHint, none, Block.withoutHints body, decorators,
        isAsync⟩
  | .classDef ⟨name, bases, decorators, body⟩ =>
      .classDef ⟨name, bases, decorators, Block.withoutHints body⟩
  | .tryExcept body handlers orelse finalbody =>
      .tryExcept (Block.withoutHints body) (handlersWithoutHints handlers)
        (Block.withoutHints orelse) (Block.withoutHints finalbody)
  | .withBlock items body => .withBlock items (Block.withoutHints body)
  | other => other
termination_by structural stmt => stmt

def Block.withoutHints : List Stmt → List Stmt
  | [] => []
  | stmt :: rest => stmt.withoutHints :: Block.withoutHints rest
termination_by structural body => body

def handlersWithoutHints : List Handler → List Handler
  | [] => []
  | ⟨exception, name, body⟩ :: rest =>
      ⟨exception, name, Block.withoutHints body⟩ :: handlersWithoutHints rest
termination_by structural handlers => handlers

end

def Program.withoutHints (program : Program) : Program :=
  ⟨Block.withoutHints program.body⟩

/-! ## Likeness to the program without hints -/

section Hints

variable {config : Config} (off : config.useHints = false)

include off

private theorem Config.hintType_of_off (hint : Option String) :
    config.hintType hint = .unknown := by
  cases hint with
  | none => rfl
  | some written => simp [Config.hintType, off]

private theorem Param.withoutHint_alike (param : Param) : param.Alike config param.withoutHint where
  name := rfl
  hint := by rw [config.hintType_of_off off, config.hintType_of_off off]
  default := rfl

private theorem Setting.annotatedType_of_off {setting : Setting} (same : setting.config = config)
    (env : Environment) (hint other : String) (value : Option Expr) :
    setting.annotatedType env hint value = setting.annotatedType env other value := by
  simp only [Setting.annotatedType, same, config.hintType_of_off off]

private theorem Stmt.annAssign_alike (target : Target) (hint other : String) (value : Option Expr) :
    Stmt.Alike config (.annAssign target hint value) (.annAssign target other value) := by
  have own : Stmt.SameOwn config (.annAssign target hint value)
      (.annAssign target other value) := {
    attributes := by
      intro setting same env
      have type := Setting.annotatedType_of_off off same env hint other value
      cases target with
      | place place =>
          cases place with
          | name id => exact congrArg (fun type => some (id, type)) type
          | _ => rfl
      | _ => rfl }
  apply Stmt.Alike.of_blocks own .nil
  intro setting same
  funext env
  have type := Setting.annotatedType_of_off off same env hint other value
  exact congrArg (setting.assign env target) type

end Hints

mutual

private theorem Stmt.withoutHints_alike {config : Config} (off : config.useHints = false)
    (stmt : Stmt) :
    stmt.Alike config stmt.withoutHints := by
  cases stmt with
  | annAssign target hint value => exact Stmt.annAssign_alike off target hint "" value
  | ifElse condition body orelse =>
      exact .ifElse condition (.of_statements (Block.withoutHints_alike off body))
        (.of_statements (Block.withoutHints_alike off orelse))
  | whileLoop condition body orelse =>
      exact .whileLoop condition (.of_statements (Block.withoutHints_alike off body))
        (.of_statements (Block.withoutHints_alike off orelse))
  | forLoop target iter body orelse =>
      exact .forLoop target iter (.of_statements (Block.withoutHints_alike off body))
        (.of_statements (Block.withoutHints_alike off orelse))
  | functionDef definition =>
      rcases definition with ⟨name, params, returnHint, body, decorators, isAsync⟩
      have alike : FunctionDef.PartsAlike config
          ⟨name, params, returnHint, body, decorators, isAsync⟩
          ⟨name, params.map Param.withoutHint, none, Block.withoutHints body, decorators,
            isAsync⟩ := {
        name := rfl
        decorators := rfl
        params := List.forall₂_map_right_iff.mpr
          (List.forall₂_same.mpr fun param _ => param.withoutHint_alike off)
        result := by rw [config.hintType_of_off off, config.hintType_of_off off]
        body := .of_statements (Block.withoutHints_alike off body) }
      exact .function alike.alike
  | classDef definition =>
      rcases definition with ⟨name, bases, decorators, body⟩
      exact .classDef (.of_bodies rfl rfl (Block.withoutHints_alike off body))
  | tryExcept body handlers orelse finalbody =>
      exact .tryExcept (.of_statements (Block.withoutHints_alike off body))
        (handlersWithoutHints_alike off handlers)
        (.of_statements (Block.withoutHints_alike off orelse))
        (.of_statements (Block.withoutHints_alike off finalbody))
  | withBlock items body =>
      exact .withBlock items (.of_statements (Block.withoutHints_alike off body))
  | _ => exact .refl _

private theorem Block.withoutHints_alike {config : Config} (off : config.useHints = false)
    (body : List Stmt) :
    List.Forall₂ (Stmt.Alike config) body (Block.withoutHints body) := by
  cases body with
  | nil => exact .nil
  | cons stmt rest =>
      exact .cons (Stmt.withoutHints_alike off stmt) (Block.withoutHints_alike off rest)

private theorem handlersWithoutHints_alike {config : Config} (off : config.useHints = false)
    (handlers : List Handler) :
    List.Forall₂ (Handler.Alike config) handlers (handlersWithoutHints handlers) := by
  cases handlers with
  | nil => exact .nil
  | cons handler rest =>
      rcases handler with ⟨exception, name, body⟩
      exact .cons ⟨rfl, rfl, .of_statements (Block.withoutHints_alike off body)⟩
        (handlersWithoutHints_alike off rest)

end

private theorem Program.analyze_withoutHints (program : Program) {config : Config}
    (off : config.useHints = false) :
    program.withoutHints.analyze config = program.analyze config :=
  (Program.analyze_eq_of_alike (Block.withoutHints_alike off program.body)).symm

/-! ## Programs that differ in their hints -/

/-- With hints off, programs that differ only in their hints have the same analysis. -/
theorem Program.hints_ignored (config : Config) (off : config.useHints = false)
    {first second : Program} (same : first.withoutHints = second.withoutHints) :
    first.analyze config = second.analyze config :=
  calc first.analyze config
      = first.withoutHints.analyze config := (first.analyze_withoutHints off).symm
    _ = second.withoutHints.analyze config := by rw [same]
    _ = second.analyze config := second.analyze_withoutHints off

/-! A class that has a hinted field and a method with hints on its parameter, its result
and, inside a condition, an assignment. -/

def Program.hinted (field : String) (param result : Option String) (inside : String) : Program where
  body := [.classDef {
    name := "Shelf", bases := [], decorators := []
    body := [.annAssign (.place (.name "size")) field (some (.literal (.int 3))),
      .functionDef {
        name := "label", params := [⟨"self", none, none⟩, ⟨"text", param, none⟩]
        returnHint := result
        body := [.ifElse (.name "text")
          [.annAssign (.place (.name "shown")) inside (some (.literal (.str "many")))] [],
          .ret (some (.name "text"))]
        decorators := [], isAsync := false }] }]

theorem Program.hints_ignored_hinted :
    (hinted "int" (some "str") none "str").withoutHints =
      (hinted "float" none (some "int") "bytes").withoutHints ∧
    (hinted "int" (some "str") none "str").analyze { useHints := false } =
      (hinted "float" none (some "int") "bytes").analyze { useHints := false } ∧
    (hinted "int" (some "str") none "str").analyze {} ≠
      (hinted "float" none (some "int") "bytes").analyze {} :=
  ⟨rfl, Program.hints_ignored { useHints := false } rfl rfl, by decide +kernel⟩

end NativeTyping
