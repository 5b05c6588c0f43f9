import NativeTyping.Proofs.Likeness.Program
/-!
Branching inside functions does not matter to an analysis.

A sweep goes through both branches of a condition and through the body of a loop once, and
every walk takes them in the same order. So a condition or a loop in the body of a function
may be replaced by its condition, as an assertion, and the contents of its blocks.

Outside functions this is not so: functions in the control flow of the program are no
functions of the program, and assignments in that of a class are no attributes.
-/

namespace NativeTyping

/-! ## Straightening -/

inductive Frame where
  | ifBody (condition : Expr) (orelse : Block)
  | ifElse (condition : Expr) (body : Block)
  | whileBody (condition : Expr) (orelse : Block)
  | whileElse (condition : Expr) (body : Block)
  | forBody (target : Target) (iter : Expr) (orelse : Block)
  | forElse (target : Target) (iter : Expr) (body : Block)
  | withBody (items : List WithItem)
  | tryBody (handlers : List Handler) (orelse finalbody : Block)
  | tryHandler (body : Block) (earlier : List Handler) (exception name : Option String)
      (later : List Handler) (orelse finalbody : Block)
  | tryElse (body : Block) (handlers : List Handler) (finalbody : Block)
  | tryFinally (body : Block) (handlers : List Handler) (orelse : Block)

def Frame.fill (block : Block) : Frame → Stmt
  | .ifBody condition orelse => .ifElse condition block orelse
  | .ifElse condition body => .ifElse condition body block
  | .whileBody condition orelse => .whileLoop condition block orelse
  | .whileElse condition body => .whileLoop condition body block
  | .forBody target iter orelse => .forLoop target iter block orelse
  | .forElse target iter body => .forLoop target iter body block
  | .withBody items => .withBlock items block
  | .tryBody handlers orelse finalbody => .tryExcept block handlers orelse finalbody
  | .tryHandler body earlier exception name later orelse finalbody =>
      .tryExcept body (earlier ++ ⟨exception, name, block⟩ :: later) orelse finalbody
  | .tryElse body handlers finalbody => .tryExcept body handlers block finalbody
  | .tryFinally body handlers orelse => .tryExcept body handlers orelse block

/-- One condition or loop that stands in the control flow of a function is replaced by an
assertion of its condition and the contents of its blocks. `inFunction` tells whether the
block that is changed is itself in the control flow of a function. -/
inductive Block.Straightens : (inFunction : Bool) → Block → Block → Prop
  | branch (condition : Expr) (body orelse : Block) :
      Straightens true [.ifElse condition body orelse]
        (.assert condition none :: (body ++ orelse))
  | loop (condition : Expr) (body orelse : Block) :
      Straightens true [.whileLoop condition body orelse]
        (.assert condition none :: (body ++ orelse))
  | among {inFunction : Bool} {block straight : Block} (before after : Block)
      (step : Straightens inFunction block straight) :
      Straightens inFunction (before ++ block ++ after) (before ++ straight ++ after)
  | inBlock {inFunction : Bool} {block straight : Block} (frame : Frame)
      (step : Straightens inFunction block straight) :
      Straightens inFunction [frame.fill block] [frame.fill straight]
  | inFunction {inFunction : Bool} {straight : Block} (definition : FunctionDef)
      (step : Straightens true definition.body straight) :
      Straightens inFunction [.functionDef definition]
        [.functionDef { definition with body := straight }]
  | inClass {inFunction : Bool} {straight : Block} (definition : ClassDef)
      (step : Straightens false definition.body straight) :
      Straightens inFunction [.classDef definition]
        [.classDef { definition with body := straight }]

/-! ## Likeness -/

variable {config : Config}

private theorem Frame.fill_alike (frame : Frame) {block other : Block}
    (alike : Block.Alike config block other) :
    (frame.fill block).Alike config (frame.fill other) := by
  have unchanged : ∀ handlers : List Handler,
      List.Forall₂ (Handler.Alike config) handlers handlers := fun handlers =>
    List.forall₂_same.mpr fun handler _ => ⟨rfl, rfl, .refl handler.body⟩
  cases frame with
  | ifBody condition orelse => exact .ifElse condition alike (.refl orelse)
  | ifElse condition body => exact .ifElse condition (.refl body) alike
  | whileBody condition orelse => exact .whileLoop condition alike (.refl orelse)
  | whileElse condition body => exact .whileLoop condition (.refl body) alike
  | forBody target iter orelse => exact .forLoop target iter alike (.refl orelse)
  | forElse target iter body => exact .forLoop target iter (.refl body) alike
  | withBody items => exact .withBlock items alike
  | tryBody handlers orelse finalbody =>
      exact .tryExcept alike (unchanged handlers) (.refl orelse) (.refl finalbody)
  | tryHandler body earlier exception name later orelse finalbody =>
      exact .tryExcept (.refl body)
        (List.rel_append (unchanged earlier) (.cons ⟨rfl, rfl, alike⟩ (unchanged later)))
        (.refl orelse) (.refl finalbody)
  | tryElse body handlers finalbody =>
      exact .tryExcept (.refl body) (unchanged handlers) alike (.refl finalbody)
  | tryFinally body handlers orelse =>
      exact .tryExcept (.refl body) (unchanged handlers) (.refl orelse) alike

private theorem Block.visit_branch (setting : Setting) (condition : Expr) (body orelse : Block) :
    Block.visit setting (.assert condition none :: (body ++ orelse)) =
      fun env => Block.visit setting orelse (Block.visit setting body env) := by
  funext env
  exact Block.visit_append setting body orelse env

private theorem Block.Alike.straightened {stmt : Stmt} {condition : Expr} {body orelse : Block}
    (own : stmt.SameOwn config (.assert condition none)) (blocks : stmt.blocks = [body, orelse])
    (visit : ∀ setting : Setting, Block.visit setting [stmt] =
      fun env => Block.visit setting orelse (Block.visit setting body env)) :
    Block.Alike config [stmt] (.assert condition none :: (body ++ orelse)) := by
  have contents : stmt.blocks.flatten = body ++ orelse := by simp [blocks]
  rw [← contents]
  apply Block.Alike.unfolded own rfl
  intro setting _
  rw [contents, Block.visit_branch, visit]

/-- In the control flow of a function the two blocks are alike as a whole. Elsewhere they are
alike statement by statement, since nothing is replaced there itself. -/
theorem Block.Straightens.alike {inFunction : Bool} {block straight : Block}
    (step : Block.Straightens inFunction block straight) :
    Block.Alike config block straight ∧
      (inFunction = false → List.Forall₂ (Stmt.Alike config) block straight) := by
  have unchanged : ∀ body : Block, List.Forall₂ (Stmt.Alike config) body body := fun body =>
    List.forall₂_same.mpr fun stmt _ => .refl stmt
  have single : ∀ {stmt other : Stmt}, stmt.Alike config other →
      Block.Alike config [stmt] [other] ∧ List.Forall₂ (Stmt.Alike config) [stmt] [other] :=
    fun alike => ⟨alike.block, .cons alike .nil⟩
  induction step with
  | branch condition body orelse | loop condition body orelse =>
      exact ⟨.straightened {} rfl fun _ => rfl, nofun⟩
  | among before after _ induction =>
      constructor
      · exact ((Block.Alike.refl before).append induction.1).append (.refl after)
      · intro outside
        exact List.rel_append (List.rel_append (unchanged before) (induction.2 outside))
          (unchanged after)
  | inBlock frame _ induction =>
      have alike := single (frame.fill_alike induction.1)
      exact ⟨alike.1, fun _ => alike.2⟩
  | @inFunction _ straight definition _ induction =>
      have parts : definition.PartsAlike config { definition with body := straight } := {
        name := rfl
        decorators := rfl
        params := List.forall₂_same.mpr fun param _ => ⟨rfl, rfl, rfl⟩
        result := rfl
        body := induction.1 }
      have alike := single (.function parts.alike)
      exact ⟨alike.1, fun _ => alike.2⟩
  | @inClass _ straight definition _ induction =>
      have parts : definition.Alike config { definition with body := straight } :=
        .of_bodies rfl rfl (induction.2 rfl)
      have alike := single (.classDef parts)
      exact ⟨alike.1, fun _ => alike.2⟩

/-! ## Programs -/

/-- Replacing a condition or a loop inside a function by an assertion of its condition and
the contents of its blocks does not change the analysis. -/
theorem Program.branches_ignored (config : Config) {program straight : Program}
    (step : Block.Straightens false program.body straight.body) :
    straight.analyze config = program.analyze config :=
  (Program.analyze_eq_of_alike (step.alike.2 rfl)).symm

/-! A method that binds a variable in a loop in a handler, and returns it. -/

def Program.retrying (attempts : Block) : Program where
  body := [.classDef {
    name := "Source", bases := [], decorators := []
    body := [.functionDef {
      name := "fetch", params := [⟨"self", none, none⟩], returnHint := none
      body := [
        .tryExcept [.pass]
          [⟨some "ValueError", some "error", [.whileLoop (.name "error") attempts []]⟩] [] [],
        .ret (some (.name "found"))]
      decorators := [], isAsync := false }] }]

def Block.collecting : Block :=
  [.assign [.place (.name "found")] (.list [.literal (.int 1), .literal (.int 2)])]

def Block.growing : Block :=
  [.expr (.methodCall (.name "found") "append" [.literal (.int 3)] [])]

theorem Program.branches_ignored_retrying :
    Block.Straightens false
      (retrying [.ifElse (.name "error") Block.collecting Block.growing]).body
      (retrying (.assert (.name "error") none :: (Block.collecting ++ Block.growing))).body ∧
    (retrying [.ifElse (.name "error") Block.collecting Block.growing]).analyze {} =
      (retrying (.assert (.name "error") none :: (Block.collecting ++ Block.growing))).analyze {} ∧
    ((retrying [.ifElse (.name "error") Block.collecting Block.growing]).analyze {}).returns.get?
      "Source.fetch" = some (.list .int) := by
  have attempts := Block.Straightens.branch (.name "error") Block.collecting Block.growing
  have handler := attempts.inBlock (.whileBody (.name "error") []) |>.inBlock
    (.tryHandler [.pass] [] (some "ValueError") (some "error") [] [] [])
  have body := handler.among [] [.ret (some (.name "found"))]
  have step : Block.Straightens false
      (retrying [.ifElse (.name "error") Block.collecting Block.growing]).body
      (retrying (.assert (.name "error") none :: (Block.collecting ++ Block.growing))).body :=
    .inClass _ (.inFunction _ body)
  exact ⟨step, (Program.branches_ignored {} step).symm, by decide +kernel⟩

end NativeTyping
