import NativeTyping.Visit.Statement
/-!
A sweep over a body, in the order in which it goes.

The statements of a body stand in blocks of each other, but a sweep goes through them
one after another, whatever the conditions and loops around them. So it is a single pass
over a list: each statement with what it does outside its blocks, and each handler with
the exception that it binds.
-/

namespace NativeTyping

/-! ## Effects -/

def Setting.visitOwn (setting : Setting) (env : Environment) : Stmt → Environment
  | .forLoop target iter _ _ =>
      setting.assign env target ((setting.context env).iterationItem iter)
  | .withBlock items _ => items.foldl setting.enterContext env
  | other => setting.visitSimple env other

inductive Effect where
  | own (stmt : Stmt)
  | caught (exception name : Option String)

namespace Effect

def apply (setting : Setting) (env : Environment) : Effect → Environment
  | .own stmt => setting.visitOwn env stmt
  | .caught exception name => Setting.bindException env exception name

end Effect

/-! The effects of a body are those of its statements and of the blocks of its control
flow, at any depth. Definitions have no effect of their own. -/

mutual

def Stmt.effects : Stmt → List Effect
  | .ifElse condition body orelse =>
      .own (.ifElse condition body orelse) :: (Block.effects body ++ Block.effects orelse)
  | .whileLoop condition body orelse =>
      .own (.whileLoop condition body orelse) :: (Block.effects body ++ Block.effects orelse)
  | .forLoop target iter body orelse =>
      .own (.forLoop target iter body orelse) :: (Block.effects body ++ Block.effects orelse)
  | .tryExcept body handlers orelse finalbody =>
      .own (.tryExcept body handlers orelse finalbody) ::
        (Block.effects body ++ (handlerEffects handlers ++
          (Block.effects orelse ++ Block.effects finalbody)))
  | .withBlock items body => .own (.withBlock items body) :: Block.effects body
  | plain => [.own plain]
termination_by structural stmt => stmt

def Block.effects : List Stmt → List Effect
  | [] => []
  | stmt :: rest => stmt.effects ++ Block.effects rest
termination_by structural body => body

def handlerEffects : List Handler → List Effect
  | [] => []
  | ⟨exception, name, body⟩ :: rest =>
      .caught exception name :: (Block.effects body ++ handlerEffects rest)
termination_by structural handlers => handlers

end

/-! ## One pass -/

section Pass

variable (setting : Setting)

mutual

theorem Stmt.visit_eq_foldl (stmt : Stmt) (env : Environment) :
    stmt.visit setting env = stmt.effects.foldl (Effect.apply setting) env := by
  cases stmt with
  | ifElse condition body orelse | whileLoop condition body orelse =>
      rw [Stmt.visit, Stmt.effects, List.foldl_cons, List.foldl_append,
        Block.visit_eq_foldl body, Block.visit_eq_foldl orelse]
      rfl
  | forLoop target iter body orelse =>
      rw [Stmt.visit, Stmt.effects, List.foldl_cons, List.foldl_append,
        Block.visit_eq_foldl body, Block.visit_eq_foldl orelse]
      rfl
  | tryExcept body handlers orelse finalbody =>
      rw [Stmt.visit, Stmt.effects, List.foldl_cons, List.foldl_append, List.foldl_append,
        List.foldl_append, Block.visit_eq_foldl body, Block.visitHandlers_eq_foldl handlers,
        Block.visit_eq_foldl orelse, Block.visit_eq_foldl finalbody]
      rfl
  | withBlock items body =>
      rw [Stmt.visit, Stmt.effects, List.foldl_cons, Block.visit_eq_foldl body]
      rfl
  | _ => rfl

/-- A sweep over a body applies its effects from the first to the last. -/
theorem Block.visit_eq_foldl (body : List Stmt) (env : Environment) :
    Block.visit setting body env = (Block.effects body).foldl (Effect.apply setting) env := by
  cases body with
  | nil => rfl
  | cons stmt rest =>
      rw [Block.visit, Block.effects, List.foldl_append, Stmt.visit_eq_foldl stmt,
        Block.visit_eq_foldl rest]

theorem Block.visitHandlers_eq_foldl (handlers : List Handler) (env : Environment) :
    visitHandlers setting handlers env =
      (handlerEffects handlers).foldl (Effect.apply setting) env := by
  cases handlers with
  | nil => rfl
  | cons handler rest =>
      rcases handler with ⟨exception, name, body⟩
      rw [visitHandlers, handlerEffects, List.foldl_cons, List.foldl_append,
        Block.visit_eq_foldl body, Block.visitHandlers_eq_foldl rest]
      rfl

end

end Pass

end NativeTyping
