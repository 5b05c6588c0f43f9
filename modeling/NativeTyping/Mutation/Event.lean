import NativeTyping.Mutation.Rule
import NativeTyping.Program.Stmt
import NativeTyping.Table
/-!
The mutations that happen to each name anywhere in a program, whatever the scope.

A name is a plain variable, or a field of `self` written `self.field`.
-/

namespace NativeTyping

namespace Mutation

inductive Kind where
  | listMethod (name : String)
  | subscriptAssign
  | augAssign
  | reassign
  deriving DecidableEq, Repr

def Kind.isListMutation : Kind → Bool
  | .listMethod _ => true
  | _ => false

/-- The events of each name in source order. A name that is only bound once has no
events, but is known. -/
abbrev Events := Table (List Kind)

/-- What a scan comes across. Storing to a name counts as a mutation only if the
name is known already. -/
inductive Observation where
  | store (name : String)
  | event (name : String) (kind : Kind)
  deriving DecidableEq, Repr

def Observation.record (events : Events) : Observation → Events
  | .store name =>
      events.upsert name fun
        | none => []
        | some known => known ++ [.reassign]
  | .event name kind => events.upsert name fun known => known.getD [] ++ [kind]

end Mutation

open Mutation

/-! ## Expressions and targets

Calls of list methods and stores to an element are events of the name that the receiver
is tracked under; what storing to a plain name is depends on the statement.
-/

def Expr.trackedName? : Expr → Option String
  | .name id => some id
  | .attribute (.name "self") attr => some ("self." ++ attr)
  | _ => none

def Expr.listMutation? : Expr → Option Observation
  | .methodCall receiver method _ _ =>
      if listMethods.contains method then
        receiver.trackedName?.map fun name => .event name (.listMethod method)
      else none
  | _ => none

def Expr.observations (expr : Expr) : List Observation :=
  expr.subexpressions.filterMap Expr.listMutation?

def Place.observation? (toName : String → Observation) : Place → Option Observation
  | .name id => some (toName id)
  | .subscript base _ => base.trackedName?.map fun name => .event name .subscriptAssign
  | .attribute _ _ => none

def Target.observations (target : Target) (toName : String → Observation) : List Observation :=
  target.places.filterMap (Place.observation? toName)

/-! ## Statements -/

def Stmt.stores : Stmt → List Observation
  | .assign targets _ => targets.flatMap fun target => target.observations .store
  | .annAssign target _ _ => target.observations .store
  | .augAssign target _ _ => target.observations fun name => .event name .augAssign
  | _ => []

def Stmt.ownObservations (stmt : Stmt) : List Observation :=
  stmt.stores ++ stmt.expressions.flatMap Expr.observations

mutual

/-- What is observed in a statement and everything inside it. The body of a
function is scanned before the defaults of its parameters. -/
def Stmt.observations : Stmt → List Observation
  | .ifElse condition body orelse =>
      Stmt.ownObservations (.ifElse condition body orelse) ++
        (Block.observations body ++ Block.observations orelse)
  | .whileLoop condition body orelse =>
      Stmt.ownObservations (.whileLoop condition body orelse) ++
        (Block.observations body ++ Block.observations orelse)
  | .forLoop target iter body orelse =>
      Stmt.ownObservations (.forLoop target iter body orelse) ++
        (Block.observations body ++ Block.observations orelse)
  | .tryExcept body handlers orelse finalbody =>
      Block.observations body ++ (handlerObservations handlers ++
        (Block.observations orelse ++ Block.observations finalbody))
  | .withBlock items body =>
      Stmt.ownObservations (.withBlock items body) ++ Block.observations body
  | .functionDef ⟨name, params, returnHint, body, decorators, isAsync⟩ =>
      Block.observations body ++
        Stmt.ownObservations
          (.functionDef ⟨name, params, returnHint, body, decorators, isAsync⟩)
  | .classDef ⟨_, _, _, body⟩ => Block.observations body
  | plain => plain.ownObservations
termination_by structural stmt => stmt

def Block.observations : List Stmt → List Observation
  | [] => []
  | stmt :: rest => stmt.observations ++ Block.observations rest
termination_by structural body => body

def handlerObservations : List Handler → List Observation
  | [] => []
  | ⟨_, _, body⟩ :: rest => Block.observations body ++ handlerObservations rest
termination_by structural handlers => handlers

end

/-! ## Programs -/

def Program.mutations (program : Program) : Events :=
  (Block.observations program.body).foldl Observation.record ∅

namespace Mutation

namespace Events

def ofName (events : Events) (name : String) : List Kind :=
  (events.get? name).getD []

def hasListMutation (events : Events) (name : String) : Bool :=
  (ofName events name).any Kind.isListMutation

def listMutated (events : Events) : List String :=
  Table.keys events |>.filter (hasListMutation events)

end Events

end Mutation

end NativeTyping
