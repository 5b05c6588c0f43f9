import NativeTyping.Proofs.Hint.Splitting
import NativeTyping.Proofs.Registration
import NativeTyping.Ty.Render
/-!
The names that generated code gives to closures.

A closure is named after the functions and the class around it, and its identifier joins
the same parts by underscores. The parts may hold underscores of their own, so an
identifier does not tell where one part ends. Two closures share an identifier exactly if
their parts spell the same text, which takes a part with an underscore. Closures inside
one function never do.
-/

namespace NativeTyping

namespace Dotted

/-! ## Parts of a name -/

def parts (name : String) : List String :=
  (name.toList.splitOn '.').map String.ofList

private theorem splitOn_toList_intercalate {glue : String} {separator : Char}
    (single : glue.toList = [separator]) {path : List String} (some : path ≠ [])
    (free : ∀ part ∈ path, separator ∉ part.toList) :
    (glue.intercalate path).toList.splitOn separator = path.map String.toList := by
  rw [String.toList_intercalate, single, List.splitOn_intercalate]
  · simpa only [List.forall_mem_map] using free
  · simpa using some

private theorem parts_intercalate {path : List String} (some : path ≠ [])
    (plain : ∀ part ∈ path, '.' ∉ part.toList) : parts (".".intercalate path) = path := by
  rw [parts, splitOn_toList_intercalate rfl some plain, List.map_map]
  simp

private theorem intercalate_injective {left right : List String} (leftSome : left ≠ [])
    (rightSome : right ≠ []) (free : ∀ part ∈ left ++ right, '_' ∉ part.toList)
    (same : "_".intercalate left = "_".intercalate right) : left = right := by
  rw [List.forall_mem_append] at free
  have single : "_".toList = ['_'] := rfl
  have lists : left.map String.toList = right.map String.toList := by
    rw [← splitOn_toList_intercalate single leftSome free.1, same,
      splitOn_toList_intercalate single rightSome free.2]
  exact List.map_injective_iff.mpr (fun _ _ => String.toList_injective) lists

private theorem toList_intercalate_concat (glue : String) {outer : List String} (some : outer ≠ [])
    (last : String) :
    (glue.intercalate (outer ++ [last])).toList =
      (glue.intercalate outer).toList ++ (glue.toList ++ last.toList) := by
  rw [String.toList_intercalate, String.toList_intercalate, List.map_append,
    intercalate_append _ (by simpa using some) (by simp), List.map_singleton,
    List.intercalate_singleton]

private theorem join_intercalate {outer : List String} (some : outer ≠ []) (last : String) :
    join (".".intercalate outer) last = ".".intercalate (outer ++ [last]) := by
  apply String.toList_injective
  rw [toList_join, toList_intercalate_concat _ some]
  rfl

end Dotted

/-! ## Identifiers -/

private theorem map_intercalate {α β : Type} (change : α → β) (glue : List α)
    (texts : List (List α)) :
    (glue.intercalate texts).map change =
      (glue.map change).intercalate (texts.map (List.map change)) := by
  induction texts with
  | nil => rfl
  | cons first rest induction =>
      cases rest with
      | nil => simp only [List.intercalate_singleton, List.map_cons, List.map_nil]
      | cons second rest =>
          rw [List.intercalate_cons_cons, List.map_append, List.map_append, induction,
            List.map_cons, List.map_cons, List.map_cons, List.intercalate_cons_cons]

/-- The parts of a name have no dots, so replacing dots only changes what joins them. -/
theorem Ty.closureIdentifier_intercalate {path : List String}
    (plain : ∀ part ∈ path, '.' ∉ part.toList) :
    closureIdentifier (".".intercalate path) = "Closure_" ++ "_".intercalate path := by
  have kept : (path.map String.toList).map (List.map fun char =>
      if char = '.' then '_' else char) = path.map String.toList := by
    rw [List.map_map]
    apply List.map_congr_left
    intro part member
    have same : ∀ char ∈ part.toList, (if char = '.' then '_' else char) = char := by
      intro char inside
      apply if_neg
      rintro rfl
      exact plain part member inside
    exact (List.map_congr_left same).trans (List.map_id' part.toList)
  apply String.toList_injective
  rw [closureIdentifier, String.toList_append, String.toList_append, String.toList_map,
    String.toList_intercalate, String.toList_intercalate, map_intercalate, kept]
  rfl

private theorem Ty.nativeName_closure_eq_iff {left right : List String}
    (leftPlain : ∀ part ∈ left, '.' ∉ part.toList)
    (rightPlain : ∀ part ∈ right, '.' ∉ part.toList) :
    (closure (".".intercalate left)).nativeName = (closure (".".intercalate right)).nativeName ↔
      "_".intercalate left = "_".intercalate right := by
  change closureIdentifier _ = closureIdentifier _ ↔ _
  rw [closureIdentifier_intercalate leftPlain, closureIdentifier_intercalate rightPlain,
    String.append_right_inj]

/-! ## Functions of a program -/

namespace Program

/-- The names that the dotted names of functions are made of: those of functions, and of
classes at the top level. -/
def partNames (program : Program) : List String :=
  program.sites.map (fun site => site.definition.name) ++ program.classes.map ClassDef.name

variable {program : Program}

private theorem mem_partNames_of_defines {name : String} {definition : FunctionDef}
    (defined : program.Defines name definition) : definition.name ∈ program.partNames := by
  rcases exists_site_of_defines defined with ⟨site, member, _, rfl⟩
  exact List.mem_append_left _ (List.mem_map_of_mem member)

private theorem Defines.exists_path {name : String} {definition : FunctionDef}
    (defined : program.Defines name definition) :
    ∃ path, path ≠ [] ∧ (∀ part ∈ path, part ∈ program.partNames) ∧
      name = ".".intercalate path := by
  induction defined with
  | @function definition standing =>
      refine ⟨[definition.name], List.cons_ne_nil _ _, ?_, String.intercalate_singleton.symm⟩
      exact List.forall_mem_singleton.mpr (mem_partNames_of_defines (.function standing))
  | @method owner definition standing inside =>
      refine ⟨[owner.name, definition.name], List.cons_ne_nil _ _, ?_, rfl⟩
      have isClass : owner.name ∈ program.partNames :=
        List.mem_append_right _ (List.mem_map_of_mem (List.mem_filterMap.mpr ⟨_, standing, rfl⟩))
      simpa using ⟨isClass, mem_partNames_of_defines (.method standing inside)⟩
  | @nested name outer inner around standing induction =>
      rcases induction with ⟨path, some, listed, rfl⟩
      refine ⟨path ++ [inner.name], by simp, ?_, Dotted.join_intercalate some inner.name⟩
      rw [List.forall_mem_append, List.forall_mem_singleton]
      exact ⟨listed, mem_partNames_of_defines (.nested around standing)⟩

private theorem exists_path_of_nested {name : String} (nested : name ∈ program.nestedNames) :
    ∃ outer last, outer ≠ [] ∧ (∀ part ∈ outer ++ [last], part ∈ program.partNames) ∧
      name = ".".intercalate (outer ++ [last]) := by
  rcases mem_nestedNames_iff.mp nested with ⟨outerName, outer, inner, defined, standing, rfl⟩
  rcases defined.exists_path with ⟨path, some, listed, rfl⟩
  refine ⟨path, inner.name, some, ?_, Dotted.join_intercalate some inner.name⟩
  rw [List.forall_mem_append, List.forall_mem_singleton]
  exact ⟨listed, mem_partNames_of_defines (.nested defined standing)⟩

variable (program) (config : Config)

private theorem keys_captures_analyze :
    (program.analyze config).captures.keys = program.nestedNames := by
  have known : ∀ site ∈ program.sites, site.name ∈ program.functionNames := fun site member =>
    mem_functionNames_iff.mpr ⟨site.definition, defines_of_mem member⟩
  have outside : (program.withSignatures config (program.withCaptures {})).scopeStack = [] := by
    rw [(program.withSignatures_signed config _).others, withCaptures_eq]
  have registered := runStages_registers config known [.constructors, .returns, .visit, .promotion]
    (by decide) outside (program.withSignatures_registers config)
    (.promotion, program.analyze config) (by simp [runStages, analyze, Stage.all, runStage])
  exact registered.captures

/-- Two closures of a program share an identifier exactly if their parts, joined by
underscores, are the same text. Then one of the parts has an underscore, and the closures
stand in different functions. -/
theorem closure_names_distinct (plain : ∀ part ∈ program.partNames, '.' ∉ part.toList)
    (left right : String) (isLeft : left ∈ (program.analyze config).captures.keys)
    (isRight : right ∈ (program.analyze config).captures.keys) (different : left ≠ right) :
    (∀ part ∈ Dotted.parts left ++ Dotted.parts right, part ∈ program.partNames) ∧
    ((Ty.closure left).nativeName = (Ty.closure right).nativeName ↔
      "_".intercalate (Dotted.parts left) = "_".intercalate (Dotted.parts right)) ∧
    ((Ty.closure left).nativeName = (Ty.closure right).nativeName →
      (∃ part ∈ Dotted.parts left ++ Dotted.parts right, '_' ∈ part.toList) ∧
      (Dotted.parts left).dropLast ≠ (Dotted.parts right).dropLast) := by
  rw [keys_captures_analyze] at isLeft isRight
  rcases exists_path_of_nested isLeft with ⟨leftOuter, leftLast, leftSome, leftListed, rfl⟩
  rcases exists_path_of_nested isRight with ⟨rightOuter, rightLast, rightSome, rightListed, rfl⟩
  have leftPlain := fun part member => plain part (leftListed part member)
  have rightPlain := fun part member => plain part (rightListed part member)
  have shared := Ty.nativeName_closure_eq_iff leftPlain rightPlain
  rw [Dotted.parts_intercalate (by simp) leftPlain, Dotted.parts_intercalate (by simp) rightPlain]
  refine ⟨List.forall_mem_append.mpr ⟨leftListed, rightListed⟩, shared, ?_⟩
  rw [shared]
  intro same
  constructor
  · by_contra free
    simp only [not_exists, not_and] at free
    exact different (congrArg _ (Dotted.intercalate_injective (by simp) (by simp) free same))
  · rw [List.dropLast_concat, List.dropLast_concat]
    rintro rfl
    have lists := congrArg String.toList same
    rw [Dotted.toList_intercalate_concat _ leftSome, Dotted.toList_intercalate_concat _ leftSome]
      at lists
    have lasts := String.toList_injective
      (List.append_cancel_left (List.append_cancel_left lists))
    exact different (by rw [lasts])

end Program

/-! Functions that read a parameter of the function around them. -/

def Program.loading : Program where
  body := [
    .functionDef (around "load_all" [
      .functionDef (reading "items"), .functionDef (reading "keys")]),
    .functionDef (around "load" [.functionDef (reading "all_items")])]
where
  around (name : String) (body : Block) : FunctionDef := {
    name := name, params := [⟨"source", none, none⟩], returnHint := none, body := body
    decorators := [], isAsync := false }
  reading (name : String) : FunctionDef := {
    name := name, params := [], returnHint := none, body := [.ret (some (.name "source"))]
    decorators := [], isAsync := false }

theorem Program.closure_names_distinct_loading :
    ((∀ part ∈ loading.partNames, '.' ∉ part.toList) ∧
      "load_all.items" ∈ (loading.analyze {}).captures.keys ∧
      "load_all.keys" ∈ (loading.analyze {}).captures.keys) ∧
    (Ty.closure "load_all.items").nativeName ≠ (Ty.closure "load_all.keys").nativeName := by
  have plain : ∀ part ∈ loading.partNames, '.' ∉ part.toList := by decide
  have isLeft : "load_all.items" ∈ (loading.analyze {}).captures.keys := by
    rw [keys_captures_analyze]
    decide
  have isRight : "load_all.keys" ∈ (loading.analyze {}).captures.keys := by
    rw [keys_captures_analyze]
    decide
  refine ⟨⟨plain, isLeft, isRight⟩, fun same => ?_⟩
  have apart := ((loading.closure_names_distinct {} plain _ _ isLeft isRight (by decide)).2.2
    same).2
  exact apart (by decide)

/-- Two closures that capture a variable and share an identifier. -/
theorem Program.loading_shares_identifier :
    (∀ part ∈ loading.partNames, '.' ∉ part.toList) ∧
    ((loading.analyze {}).captures.get? "load_all.items").map NameSet.names = some ["source"] ∧
    ((loading.analyze {}).captures.get? "load.all_items").map NameSet.names = some ["source"] ∧
    "load_all.items" ≠ "load.all_items" ∧
    (Ty.closure "load_all.items").nativeName = (Ty.closure "load.all_items").nativeName := by
  refine ⟨by decide, by decide +kernel, by decide +kernel, by decide, ?_⟩
  have leftPlain : ∀ part ∈ ["load_all", "items"], '.' ∉ part.toList := by decide
  have rightPlain : ∀ part ∈ ["load", "all_items"], '.' ∉ part.toList := by decide
  exact (Ty.nativeName_closure_eq_iff leftPlain rightPlain).mpr rfl

end NativeTyping
