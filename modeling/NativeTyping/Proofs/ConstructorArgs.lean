import NativeTyping.Proofs.Occurrence
import NativeTyping.Proofs.Registration
import NativeTyping.Proofs.Widening
/-!
Arguments of constructors, over all calls of a program.

The calls of a class are recorded one after the other into one list of types that grows as
calls with more arguments come. Read column by column, the list holds at each position the
merge of what the calls have there, in order; calls of other classes are kept apart, and what
is recorded does not change how later arguments are read.
-/

namespace NativeTyping

namespace Environment

/-! ## Columns -/

def mergedColumn : List Ty → Option Ty
  | [] => none
  | types => some (Ty.widenAll types)

private theorem mergedColumn_widen (first second : Ty) (rest : List Ty) :
    mergedColumn (Ty.widen first second :: rest) = mergedColumn (first :: second :: rest) := by
  simp [mergedColumn, Ty.widenAll]

private theorem getElem?_mergePositions (presents addeds : List Ty) (position : Nat) :
    (mergePositions presents addeds)[position]? =
      Option.merge Ty.widen presents[position]? addeds[position]? := by
  induction presents, addeds using mergePositions.induct generalizing position with
  | case1 addeds => simp [mergePositions]
  | case2 presents nonempty =>
      rw [mergePositions.eq_2 presents nonempty]
      simp
  | case3 present presents added addeds induction =>
      rw [mergePositions]
      cases position with
      | zero => simp
      | succ position => simpa using induction position

/-- Lists that are merged one after the other are merged column by column. -/
theorem getElem?_foldl_mergePositions (lists : List (List Ty)) (start : List Ty)
    (position : Nat) :
    (lists.foldl mergePositions start)[position]? =
      mergedColumn (start[position]?.toList ++ lists.filterMap (·[position]?)) := by
  induction lists generalizing start with
  | nil =>
      rw [List.foldl_nil]
      cases start[position]? <;> rfl
  | cons list rest induction =>
      rw [List.foldl_cons, induction, getElem?_mergePositions]
      cases start[position]? with
      | none => cases found : list[position]? <;> simp [found]
      | some present => cases found : list[position]? <;> simp [found, mergedColumn_widen]

def mergedArgs (read : Expr → Ty) (calls : List (List Expr)) : List Ty :=
  (calls.map (List.map read)).foldl mergePositions []

variable (read : Expr → Ty) {calls : List (List Expr)} {position : Nat}

private theorem getElem?_mergedArgs (calls : List (List Expr)) (position : Nat) :
    (mergedArgs read calls)[position]? =
      mergedColumn ((calls.filterMap (·[position]?)).map read) := by
  have types : (calls.map (List.map read)).filterMap (·[position]?) =
      (calls.filterMap (·[position]?)).map read := by
    simp only [List.filterMap_map, List.map_filterMap, Function.comp_def, List.getElem?_map]
  rw [mergedArgs, getElem?_foldl_mergePositions, types]
  rfl

private theorem lt_length_mergedArgs_iff :
    position < (mergedArgs read calls).length ↔ calls.filterMap (·[position]?) ≠ [] := by
  rw [← Nat.not_le, ← List.getElem?_eq_none_iff, getElem?_mergedArgs]
  cases calls.filterMap (·[position]?) <;> simp [mergedColumn]

private theorem getElem?_mergedArgs_of_lt (inside : position < (mergedArgs read calls).length) :
    (mergedArgs read calls)[position]? =
      some (Ty.widenAll ((calls.filterMap (·[position]?)).map read)) := by
  have filled := (lt_length_mergedArgs_iff read).mp inside
  rw [getElem?_mergedArgs]
  cases args : calls.filterMap (·[position]?) with
  | nil => exact absurd args filled
  | cons => rfl

private theorem length_mergedArgs (nonempty : calls ≠ []) :
    (∃ args ∈ calls, args.length = (mergedArgs read calls).length) ∧
      ∀ args ∈ calls, args.length ≤ (mergedArgs read calls).length := by
  have reached {position : Nat} : position < (mergedArgs read calls).length ↔
      ∃ args ∈ calls, position < args.length := by
    rw [lt_length_mergedArgs_iff, ne_eq, List.filterMap_eq_nil_iff]
    simp
  have covers : ∀ args ∈ calls, args.length ≤ (mergedArgs read calls).length := by
    intro args member
    apply Nat.le_of_not_lt
    intro shorter
    exact Nat.lt_irrefl _ (reached.mpr ⟨args, member, shorter⟩)
  refine ⟨?_, covers⟩
  cases size : (mergedArgs read calls).length with
  | zero =>
      rcases List.exists_mem_of_ne_nil calls nonempty with ⟨args, member⟩
      exact ⟨args, member, Nat.le_zero.mp (size ▸ covers args member)⟩
  | succ last =>
      have inside : last < (mergedArgs read calls).length := by omega
      rcases reached.mp inside with ⟨args, member, longer⟩
      exact ⟨args, member, Nat.le_antisymm (size ▸ covers args member) longer⟩

/-! ## Records -/

private theorem recordConstructorArgs_eq (env : Environment) (className : String) (args : List Ty) :
    env.recordConstructorArgs className args =
      { env with
        constructorArgs := env.constructorArgs.upsert className fun present =>
          mergePositions (present.getD []) args } := by
  simp only [recordConstructorArgs]
  congr 2
  funext present
  cases present <;> rfl

/-- No expression tells whether arguments were recorded, so all calls are read as they would be
before the first of them. -/
theorem constructorArgs_foldl_record (setting : Setting) {before env : Environment}
    (view : env.SameView before) (calls : List (String × List Expr)) :
    (calls.foldl (fun env call =>
        env.recordConstructorArgs call.1 (call.2.map (setting.infer env))) env).constructorArgs =
      calls.foldl (fun table call => table.upsert call.1 fun present =>
        mergePositions (present.getD []) (call.2.map (setting.infer before)))
        env.constructorArgs := by
  induction calls generalizing env with
  | nil => rfl
  | cons call rest induction =>
      have read : call.2.map (setting.infer env) = call.2.map (setting.infer before) :=
        List.map_congr_left fun arg _ => view.infer setting arg
      rw [List.foldl_cons, List.foldl_cons, read, recordConstructorArgs_eq]
      exact induction { view with }

private theorem foldl_record_eq (lists : List (List Ty)) :
    lists.foldl (fun present list => some (mergePositions (present.getD []) list)) none =
      if lists = [] then none else some (lists.foldl mergePositions []) := by
  have later (lists : List (List Ty)) (start : List Ty) :
      lists.foldl (fun present list => some (mergePositions (present.getD []) list)) (some start) =
        some (lists.foldl mergePositions start) := by
    induction lists generalizing start with
    | nil => rfl
    | cons list rest induction => exact induction (mergePositions start list)
  cases lists with
  | nil => rfl
  | cons list rest =>
      rw [if_neg (List.cons_ne_nil list rest)]
      exact later rest (mergePositions [] list)

end Environment

/-! ## Calls -/

def Expr.callArgs? (name : String) : Expr → Option (List Expr)
  | .call function args _ => if function = name then some args else none
  | _ => none

private theorem Expr.callArgs?_eq_some_iff {name : String} {expr : Expr} {args : List Expr} :
    expr.callArgs? name = some args ↔ ∃ keywords, expr = .call name args keywords := by
  cases expr with
  | call function given keywords => simp [callArgs?, eq_comm]
  | _ => simp [callArgs?]

private theorem Expr.constructorCall?_call (function : String) (args : List Expr)
    (keywords : List (String × Expr)) :
    (Expr.call function args keywords).constructorCall? =
      if function.toList.head?.any Char.isUpper = true then some (function, args) else none := by
  rw [constructorCall?]
  cases function.toList <;> rfl

private theorem Expr.constructorCall?_bind {className : String}
    (capital : className.toList.head?.any Char.isUpper = true) (expr : Expr) :
    (expr.constructorCall?.bind fun call => if call.1 = className then some call.2 else none) =
      expr.callArgs? className := by
  cases expr with
  | call function args keywords =>
      rw [constructorCall?_call, callArgs?]
      by_cases same : function = className
      · rw [same, if_pos capital, Option.bind_some]
      · split <;> simp [same]
  | _ => rfl

namespace Program

def everyExpression (program : Program) : List Expr :=
  (Block.everyStatement program.body).flatMap fun stmt =>
    stmt.expressions.flatMap Expr.subexpressions

def callsOf (program : Program) (name : String) : List (List Expr) :=
  program.everyExpression.filterMap (Expr.callArgs? name)

variable {program : Program} {name className : String}

private theorem mem_everyExpression_iff {expr : Expr} :
    expr ∈ program.everyExpression ↔ program.Contains expr := by
  simp [everyExpression, contains_iff]

private theorem mem_callsOf_iff {args : List Expr} :
    args ∈ program.callsOf name ↔ ∃ keywords, program.Contains (.call name args keywords) := by
  simp only [callsOf, List.mem_filterMap, Expr.callArgs?_eq_some_iff, mem_everyExpression_iff]
  constructor
  · rintro ⟨_, occurs, keywords, rfl⟩
    exact ⟨keywords, occurs⟩
  · rintro ⟨keywords, occurs⟩
    exact ⟨_, occurs, keywords, rfl⟩

private theorem callsOf_ne_nil_iff :
    program.callsOf name ≠ [] ↔ ∃ args keywords, program.Contains (.call name args keywords) := by
  constructor
  · intro nonempty
    rcases List.exists_mem_of_ne_nil _ nonempty with ⟨args, member⟩
    exact ⟨args, mem_callsOf_iff.mp member⟩
  · rintro ⟨args, occurs⟩
    exact List.ne_nil_of_mem (mem_callsOf_iff.mpr occurs)

private theorem constructorCalls_eq_filterMap (program : Program) :
    program.constructorCalls = program.everyExpression.filterMap Expr.constructorCall? := by
  simp only [constructorCalls, everyExpression, List.filterMap_flatMap]

private theorem map_filter_constructorCalls
    (capital : className.toList.head?.any Char.isUpper = true) (program : Program) :
    ((program.constructorCalls.filter fun call => call.1 = className).map Prod.snd) =
      program.callsOf className := by
  have kept : (program.constructorCalls.filter fun call => call.1 = className).map Prod.snd =
      program.constructorCalls.filterMap fun call =>
        if call.1 = className then some call.2 else none := by
    rw [← List.filterMap_eq_filter, List.map_filterMap]
    refine List.filterMap_congr fun call _ => ?_
    by_cases same : call.1 = className <;> simp [Option.guard, same]
  rw [kept, constructorCalls_eq_filterMap, List.filterMap_filterMap]
  exact List.filterMap_congr fun expr _ => Expr.constructorCall?_bind capital expr

/-- What is recorded for a class merges the arguments of all its calls, read before the first
of them is recorded. -/
theorem get?_withConstructors (capital : className.toList.head?.any Char.isUpper = true)
    (config : Config) {env : Environment} (unrecorded : env.constructorArgs = ∅) :
    (program.withConstructors config env).constructorArgs.get? className =
      if program.callsOf className = [] then none
      else some (Environment.mergedArgs (Setting.infer { config := config } env)
        (program.callsOf className)) := by
  have recorded := Environment.foldl_record_eq
    ((program.callsOf className).map (List.map (Setting.infer { config := config } env)))
  rw [List.foldl_map, ← map_filter_constructorCalls capital, List.foldl_map] at recorded
  rw [withConstructors, Environment.constructorArgs_foldl_record _ (.refl env), unrecorded,
    Table.get?_foldl_upsert Prod.fst]
  refine recorded.trans ?_
  simp only [map_filter_constructorCalls capital, List.map_eq_nil_iff, Environment.mergedArgs]

private theorem before_constructors (config : Config) (program : Program) :
    (program.withSignatures config (program.withCaptures {})).currentScope? = none ∧
      (program.withSignatures config (program.withCaptures {})).constructorArgs = ∅ := by
  rw [(program.withSignatures_signed config _).others, withCaptures_eq]
  exact ⟨rfl, rfl⟩

/-- The recorded types of the arguments of a class.

There are some exactly if the program calls the class by its name, in any statement and at any
depth of an expression. There are as many as the longest of these calls has positional
arguments. At each position they merge, in source order, what the calls that go so far have
there, each argument read outside all functions by what the signatures alone have settled. -/
theorem constructorArgs_merged (config : Config) (program : Program) (className : String)
    (capital : className.toList.head?.any Char.isUpper = true) :
    let before := program.withSignatures config (program.withCaptures {})
    let recorded := (program.withConstructors config before).constructorArgs.get? className
    before.currentScope? = none ∧
    (recorded.isSome = true ↔
      ∃ args keywords, program.Contains (.call className args keywords)) ∧
    ∀ types, recorded = some types →
      (∃ args keywords, program.Contains (.call className args keywords) ∧
        args.length = types.length) ∧
      (∀ args keywords, program.Contains (.call className args keywords) →
        args.length ≤ types.length) ∧
      ∀ position, position < types.length →
        types[position]? = some (Ty.widenAll
          (((program.callsOf className).filterMap (·[position]?)).map
            (Setting.infer { config := config } before))) := by
  intro before recorded
  have fresh := program.before_constructors config
  have found : recorded = _ := get?_withConstructors capital config fresh.2
  refine ⟨fresh.1, ?_, ?_⟩
  · rw [found, ← callsOf_ne_nil_iff]
    by_cases uncalled : program.callsOf className = [] <;> simp [uncalled]
  · intro types isRecorded
    rw [found, Option.ite_none_left_eq_some, Option.some_inj] at isRecorded
    rcases isRecorded with ⟨nonempty, rfl⟩
    rcases Environment.length_mergedArgs (Setting.infer { config := config } before) nonempty with
      ⟨⟨args, member, longest⟩, covers⟩
    rcases mem_callsOf_iff.mp member with ⟨keywords, occurs⟩
    refine ⟨⟨args, keywords, occurs, longest⟩, ?_,
      fun _ => Environment.getElem?_mergedArgs_of_lt _⟩
    intro other otherKeywords isCalled
    exact covers other (mem_callsOf_iff.mpr ⟨otherKeywords, isCalled⟩)

/-! A class that is called with one argument, with none inside another call of it, and with
two inside a function, and a call of another class in between. -/

def placing : Program where
  body := [
    .classDef { name := "Point", bases := [], decorators := [], body := [.pass] },
    .expr (.call "Point" [.literal (.int 1)] []),
    .expr (.call "Label" [.literal (.str "origin")] []),
    .functionDef {
      name := "build", params := [], returnHint := none, decorators := [], isAsync := false
      body := [.ret (some (.call "Point"
        [.literal (.float 0x4004000000000000), .call "Point" [] []] []))] }]

theorem constructorArgs_merged_placing :
    "Point".toList.head?.any Char.isUpper = true ∧
    (placing.withConstructors {} (placing.withSignatures {}
      (placing.withCaptures {}))).constructorArgs.get? "Point" =
        some [.float, .object "Point"] ∧
    (∃ args keywords, placing.Contains (.call "Point" args keywords) ∧ args.length = 2) ∧
    some Ty.float = some (Ty.widenAll (((placing.callsOf "Point").filterMap (·[0]?)).map
      (Setting.infer { config := {} }
        (placing.withSignatures {} (placing.withCaptures {}))))) := by
  have capital : "Point".toList.head?.any Char.isUpper = true := by decide
  have recorded : (placing.withConstructors {} (placing.withSignatures {}
      (placing.withCaptures {}))).constructorArgs.get? "Point" =
        some [.float, .object "Point"] := by
    decide +kernel
  have merged := (placing.constructorArgs_merged {} "Point" capital).2.2 _ recorded
  exact ⟨capital, recorded, merged.1, merged.2.2 0 (by decide)⟩

end Program

end NativeTyping
