import NativeTyping.Proofs.Steps
/-!
The moments of a run.

A run of all stages visits the functions of a program, some of them several times: the ones
at the top level and the methods of classes in order, and nested ones between the two sweeps
of the function around them. A moment is what such a visit has come to in a sweep.
-/

namespace NativeTyping

/-! ## Visits and their sweeps -/

namespace FunctionDef

def withParams (setting : Setting) (definition : FunctionDef) (qualified : String)
    (className : Option String) (env : Environment) : Environment :=
  (setting.bindParams definition className env).2.setParams qualified
    (setting.bindParams definition className env).1

/-- The moments of a visit from `env` at which the body of the function is swept, each with
the effects that the sweep has gone through. -/
inductive Sweeping (setting : Setting) (definition : FunctionDef) (qualified : String)
    (className : Option String) (env : Environment) : List Effect → Environment → Prop
  | first {done : List Effect} : done <+: Block.effects definition.body →
      Sweeping setting definition qualified className env done
        (done.foldl (Effect.apply setting)
          (definition.withParams setting qualified className (env.enterScope qualified)))
  | second {done : List Effect} : definition.nested ≠ [] →
      done <+: Block.effects definition.body →
      Sweeping setting definition qualified className env done
        (done.foldl (Effect.apply setting)
          (definition.visitNested setting qualified
            (definition.firstSweep setting qualified className (env.enterScope qualified))))

end FunctionDef

/-- The environments from which the definitions of a program are visited, in the two stages
that do so. -/
inductive Program.StartsVisits (program : Program) (config : Config) : Environment → Prop
  | returns : config.inferReturns = true →
      StartsVisits program config
        ([Stage.captures, .signatures, .constructors].foldl (program.runStage config) {})
  | visit :
      StartsVisits program config
        (program.visitStatements config
          ([Stage.captures, .signatures, .constructors, .returns].foldl
            (program.runStage config) {}))

/-- The visits in a run of all stages: a function is visited under its dotted name, as a
method of a class or not, and from an environment. -/
inductive Program.Visits (program : Program) (config : Config) :
    Setting → FunctionDef → String → Option String → Environment → Prop
  | function {start : Environment} {before after : List Stmt} {definition : FunctionDef} :
      program.StartsVisits config start →
      program.body = before ++ .functionDef definition :: after →
      Visits program config { config := config } definition definition.name none
        (before.foldl (Stmt.visitDefinition config) start)
  | method {start : Environment} {before after : List Stmt} {owner : ClassDef}
      {earlier later : List FunctionDef} {definition : FunctionDef} :
      program.StartsVisits config start →
      program.body = before ++ .classDef owner :: after →
      owner.visitOrder = earlier ++ definition :: later →
      Visits program config { config := config, currentClass := some owner.name } definition
        (Dotted.join owner.name definition.name) (some owner.name)
        (earlier.foldl
          (fun env method => method.visit { config := config, currentClass := some owner.name }
            (Dotted.join owner.name method.name) (some owner.name) env)
          (owner.body.foldl
            (Setting.visitClassAttribute { config := config, currentClass := some owner.name }
              owner.name)
            (before.foldl (Stmt.visitDefinition config) start)))
  | nested {setting : Setting} {outer : FunctionDef} {qualified : String}
      {className : Option String} {env : Environment} {before after : List FunctionDef}
      {inner : FunctionDef} :
      Visits program config setting outer qualified className env →
      outer.nested = before ++ inner :: after →
      Visits program config setting inner (Dotted.join qualified inner.name) none
        (before.foldl
          (fun env inner => inner.visit setting (Dotted.join qualified inner.name) none env)
          (outer.firstSweep setting qualified className (env.enterScope qualified)))

/-- A moment of a run: the body of a function is swept, the sweep has gone through some
effects, and it may be in the middle of the next one. -/
inductive Program.Reaches (program : Program) (config : Config) (site : Site)
    (done : List Effect) (now : Environment) : Prop
  | intro {setting : Setting} {className : Option String} {env reached : Environment} :
      program.Visits config setting site.definition site.name className env →
      site.definition.Sweeping setting site.name className env done reached →
      reached.Writes (some site.name) site.definition.variables
        (Block.declared site.definition.body) now →
      Reaches program config site done now

theorem Program.Visits.exists_site {program : Program} {config : Config} {setting : Setting}
    {definition : FunctionDef} {qualified : String} {className : Option String}
    {env : Environment}
    (visits : program.Visits config setting definition qualified className env) :
    ∃ enclosing, ⟨qualified, definition, enclosing⟩ ∈ program.sites := by
  induction visits with
  | @function _ before after definition _ order =>
      have isRoot : (definition.name, definition) ∈ program.rootFunctions := by
        refine List.mem_flatMap.mpr ⟨.functionDef definition, ?_, List.mem_singleton_self _⟩
        rw [order]
        exact List.mem_append_right _ List.mem_cons_self
      exact ⟨[], Program.mem_sites_of_root isRoot⟩
  | @method _ before after owner earlier later definition _ order methods =>
      have isMethod : definition ∈ owner.methods := by
        rw [← owner.visitOrder_perm.mem_iff, methods]
        exact List.mem_append_right _ List.mem_cons_self
      have isRoot :
          (Dotted.join owner.name definition.name, definition) ∈ program.rootFunctions := by
        refine List.mem_flatMap.mpr
          ⟨.classDef owner, ?_, List.mem_map.mpr ⟨definition, isMethod, rfl⟩⟩
        rw [order]
        exact List.mem_append_right _ List.mem_cons_self
      exact ⟨[], Program.mem_sites_of_root isRoot⟩
  | nested _ order induction =>
      rcases induction with ⟨enclosing, member⟩
      refine ⟨_, Program.mem_sites_of_nested member ?_⟩
      rw [order]
      exact List.mem_append_right _ List.mem_cons_self

end NativeTyping
