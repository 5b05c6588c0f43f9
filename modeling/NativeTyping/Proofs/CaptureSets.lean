import Mathlib.Data.List.Induction
import Mathlib.Data.List.Nodup
import NativeTyping.Captures
import NativeTyping.Proofs.Nesting
/-!
What the capture sets of a program hold.

A site is a function of a program with its dotted name and the functions around it. The
capture sets come from one pass over the sites, in which the names bound around a
function are known. Names that are read travel the other way, from a function to the
one around it, until they reach one that binds them. If the sites have distinct names, a
capture set holds exactly the names that are free in its function and bound around it.
-/

namespace NativeTyping

/-! ## Sites -/

/-- A function of a program under its dotted name, with the functions around it and their
dotted names from the outermost to the innermost. -/
structure Site where
  name : String
  definition : FunctionDef
  enclosing : List (String × FunctionDef)

def FunctionDef.sites (definition : FunctionDef) :
    String → List (String × FunctionDef) → List Site :=
  definition.fold fun definition nested name enclosing =>
    ⟨name, definition, enclosing⟩ :: nested.flatMap fun inner =>
      inner.2 (Dotted.join name inner.1.name) (enclosing ++ [(name, definition)])

def Program.sites (program : Program) : List Site :=
  program.rootFunctions.flatMap fun root => root.2.sites root.1 []

theorem FunctionDef.sites_eq (definition : FunctionDef) (name : String)
    (enclosing : List (String × FunctionDef)) :
    definition.sites name enclosing =
      ⟨name, definition, enclosing⟩ :: definition.nested.flatMap fun inner =>
        inner.sites (Dotted.join name inner.name) (enclosing ++ [(name, definition)]) := by
  simp only [FunctionDef.sites]
  rw [FunctionDef.fold_eq]
  simp only [List.flatMap_map]

theorem FunctionDef.mem_sites (definition : FunctionDef) (name : String)
    (enclosing : List (String × FunctionDef)) :
    ⟨name, definition, enclosing⟩ ∈ definition.sites name enclosing := by
  rw [FunctionDef.sites_eq]
  exact List.mem_cons_self

/-! ## Where sites stand

The sites are listed by the fold that also gives the capture sets. They can be told without it: a
function stands at the top level of a program, in the body of a class there, or in the control
flow of another site. What stands in a control flow is said by the blocks of statements alone.
-/

inductive Block.Holds (stmt : Stmt) : Block → Prop
  | here {block : Block} : stmt ∈ block → Holds stmt block
  | inside {block inner : Block} {outer : Stmt} : outer ∈ block → inner ∈ outer.blocks →
      Holds stmt inner → Holds stmt block

private theorem Stmt.sizeOf_lt_of_mem_blocks {stmt : Stmt} {block : Block}
    (member : block ∈ stmt.blocks) :
    sizeOf block < sizeOf stmt := by
  cases stmt with
  | ifElse _ body orelse | whileLoop _ body orelse | forLoop _ _ body orelse =>
      simp only [Stmt.blocks, List.mem_cons, List.not_mem_nil, or_false] at member
      simp only [Stmt.ifElse.sizeOf_spec, Stmt.whileLoop.sizeOf_spec, Stmt.forLoop.sizeOf_spec]
      rcases member with rfl | rfl <;> omega
  | tryExcept body handlers orelse finalbody =>
      simp only [Stmt.blocks, List.mem_cons, List.mem_append, List.mem_map, List.not_mem_nil,
        or_false] at member
      rw [Stmt.tryExcept.sizeOf_spec]
      rcases member with rfl | ⟨⟨exception, name, body⟩, isHandler, rfl⟩ | rfl | rfl
      · omega
      · have smaller := List.sizeOf_lt_of_mem isHandler
        rw [Handler.mk.sizeOf_spec] at smaller
        change sizeOf body < _
        omega
      · omega
      · omega
  | withBlock _ body =>
      rw [List.mem_singleton.mp member, Stmt.withBlock.sizeOf_spec]
      omega
  | _ => cases member

theorem Block.mem_statements_iff {stmt : Stmt} {block : Block} :
    stmt ∈ Block.statements block ↔ Block.Holds stmt block := by
  constructor
  · intro member
    -- The statements of a statement are the statement and those of its blocks, which are smaller.
    induction size : sizeOf block using Nat.strongRecOn generalizing block with
    | ind size induction =>
        subst size
        rw [Block.statements_eq_flatMap] at member
        rcases List.mem_flatMap.mp member with ⟨outer, inBlock, member⟩
        rw [Stmt.statements_eq] at member
        rcases List.mem_cons.mp member with rfl | member
        · exact .here inBlock
        · rcases List.mem_flatMap.mp member with ⟨inner, isBlock, member⟩
          have smaller := Nat.lt_trans (Stmt.sizeOf_lt_of_mem_blocks isBlock)
            (List.sizeOf_lt_of_mem inBlock)
          exact .inside inBlock isBlock (induction _ smaller member rfl)
  · intro holds
    induction holds with
    | here member =>
        rw [Block.statements_eq_flatMap]
        refine List.mem_flatMap.mpr ⟨stmt, member, ?_⟩
        rw [Stmt.statements_eq]
        exact List.mem_cons_self
    | @inside block inner outer inBlock isBlock _ induction =>
        rw [Block.statements_eq_flatMap]
        refine List.mem_flatMap.mpr ⟨outer, inBlock, ?_⟩
        rw [Stmt.statements_eq]
        exact List.mem_cons_of_mem _ (List.mem_flatMap.mpr ⟨inner, isBlock, induction⟩)

private theorem Stmt.functionDef?_eq_some_iff {stmt : Stmt} {definition : FunctionDef} :
    stmt.functionDef? = some definition ↔ stmt = .functionDef definition := by
  cases stmt <;> simp [Stmt.functionDef?]

theorem FunctionDef.mem_nested_iff {inner outer : FunctionDef} :
    inner ∈ outer.nested ↔ .functionDef inner ∈ Block.statements outer.body := by
  simp [FunctionDef.nested, Block.functions, Stmt.functionDef?_eq_some_iff]

theorem ClassDef.mem_methods_iff {definition : FunctionDef} {owner : ClassDef} :
    definition ∈ owner.methods ↔ .functionDef definition ∈ owner.body := by
  simp [ClassDef.methods, Stmt.functionDef?_eq_some_iff]

inductive Program.HasSite (program : Program) : Site → Prop
  | function {definition : FunctionDef} : .functionDef definition ∈ program.body →
      HasSite program ⟨definition.name, definition, []⟩
  | method {owner : ClassDef} {definition : FunctionDef} : .classDef owner ∈ program.body →
      .functionDef definition ∈ owner.body →
      HasSite program ⟨Dotted.join owner.name definition.name, definition, []⟩
  | nested {outer : Site} {inner : FunctionDef} : HasSite program outer →
      Block.Holds (.functionDef inner) outer.definition.body →
      HasSite program ⟨Dotted.join outer.name inner.name, inner,
        outer.enclosing ++ [(outer.name, outer.definition)]⟩

private theorem Program.HasSite.of_root {program : Program} {root : String × FunctionDef}
    (member : root ∈ program.rootFunctions) : program.HasSite ⟨root.1, root.2, []⟩ := by
  rcases List.mem_flatMap.mp member with ⟨stmt, standing, inside⟩
  cases stmt with
  | functionDef definition =>
      rw [List.mem_singleton.mp inside]
      exact .function standing
  | classDef owner =>
      rcases List.mem_map.mp inside with ⟨definition, isMethod, same⟩
      rw [← same]
      exact .method standing (ClassDef.mem_methods_iff.mp isMethod)
  | _ => cases inside

private theorem Program.HasSite.of_mem_sites {program : Program} (definition : FunctionDef)
    {name : String} {enclosing : List (String × FunctionDef)}
    (has : program.HasSite ⟨name, definition, enclosing⟩) :
    ∀ site ∈ definition.sites name enclosing, program.HasSite site := by
  induction definition using FunctionDef.nested_induction generalizing name enclosing with
  | step definition induction =>
  intro site member
  rw [FunctionDef.sites_eq] at member
  rcases List.mem_cons.mp member with same | inside
  · rw [same]
    exact has
  · rcases List.mem_flatMap.mp inside with ⟨inner, isNested, innerMember⟩
    have standing := Block.mem_statements_iff.mp (FunctionDef.mem_nested_iff.mp isNested)
    exact induction inner isNested (.nested has standing) site innerMember

private theorem FunctionDef.mem_sites_of_nested {definition : FunctionDef} {name : String}
    {enclosing : List (String × FunctionDef)} {site : Site}
    (member : site ∈ definition.sites name enclosing) {inner : FunctionDef}
    (isNested : inner ∈ site.definition.nested) :
    ⟨Dotted.join site.name inner.name, inner, site.enclosing ++ [(site.name, site.definition)]⟩ ∈
      definition.sites name enclosing := by
  induction definition using FunctionDef.nested_induction generalizing name enclosing with
  | step definition induction =>
  rw [FunctionDef.sites_eq] at member ⊢
  apply List.mem_cons_of_mem
  rcases List.mem_cons.mp member with same | inside
  · subst same
    exact List.mem_flatMap.mpr ⟨inner, isNested, inner.mem_sites _ _⟩
  · rcases List.mem_flatMap.mp inside with ⟨between, betweenNested, betweenMember⟩
    exact List.mem_flatMap.mpr
      ⟨between, betweenNested, induction between betweenNested betweenMember⟩

theorem Program.mem_sites_of_nested {program : Program} {site : Site}
    (member : site ∈ program.sites) {inner : FunctionDef}
    (isNested : inner ∈ site.definition.nested) :
    ⟨Dotted.join site.name inner.name, inner, site.enclosing ++ [(site.name, site.definition)]⟩ ∈
      program.sites := by
  rcases List.mem_flatMap.mp member with ⟨root, isRoot, inside⟩
  exact List.mem_flatMap.mpr ⟨root, isRoot, FunctionDef.mem_sites_of_nested inside isNested⟩

theorem Program.mem_sites_of_root {program : Program} {root : String × FunctionDef}
    (member : root ∈ program.rootFunctions) : ⟨root.1, root.2, []⟩ ∈ program.sites :=
  List.mem_flatMap.mpr ⟨root, member, root.2.mem_sites _ _⟩

/-- The fold over a program lists exactly its functions. -/
theorem Program.mem_sites_iff {program : Program} {site : Site} :
    site ∈ program.sites ↔ program.HasSite site := by
  constructor
  · intro member
    rcases List.mem_flatMap.mp member with ⟨root, isRoot, inside⟩
    exact Program.HasSite.of_mem_sites root.2 (.of_root isRoot) site inside
  · intro has
    induction has with
    | @function definition standing =>
        have isRoot : (definition.name, definition) ∈ program.rootFunctions :=
          List.mem_flatMap.mpr ⟨_, standing, List.mem_singleton_self _⟩
        exact Program.mem_sites_of_root isRoot
    | @method owner definition standing inside =>
        have isRoot : (Dotted.join owner.name definition.name, definition) ∈
            program.rootFunctions :=
          List.mem_flatMap.mpr
            ⟨_, standing, List.mem_map.mpr ⟨_, ClassDef.mem_methods_iff.mpr inside, rfl⟩⟩
        exact Program.mem_sites_of_root isRoot
    | nested _ standing induction =>
        apply Program.mem_sites_of_nested induction
        exact FunctionDef.mem_nested_iff.mpr (Block.mem_statements_iff.mpr standing)

structure Site.IsInside (site parent : Site) : Prop where
  name : site.name = Dotted.join parent.name site.definition.name
  enclosing : site.enclosing = parent.enclosing ++ [(parent.name, parent.definition)]
  nested : site.definition ∈ parent.definition.nested

theorem Program.mem_sites_cases {program : Program} {site : Site}
    (member : site ∈ program.sites) :
    site.enclosing = [] ∨ ∃ parent ∈ program.sites, site.IsInside parent := by
  cases Program.mem_sites_iff.mp member with
  | function _ | method _ _ => exact .inl rfl
  | @nested outer inner has standing =>
      have isNested := FunctionDef.mem_nested_iff.mpr (Block.mem_statements_iff.mpr standing)
      exact .inr ⟨outer, Program.mem_sites_iff.mpr has, rfl, rfl, isNested⟩

/-! ## Names flow outwards -/

private theorem FunctionDef.mem_localNames_of_nested {inner outer : FunctionDef}
    (nested : inner ∈ outer.nested) : inner.name ∈ outer.localNames.names := by
  have standing := FunctionDef.mem_nested_iff.mp nested
  rw [FunctionDef.localNames, localNamesOf, NameSet.mem_names_ofList]
  apply List.mem_append_right
  exact List.mem_flatMap.mpr ⟨_, standing, List.mem_singleton_self _⟩

mutual

private theorem Stmt.freeReads_subset_reads (stmt : Stmt) {inner : FunctionDef}
    (standing : inner ∈ stmt.statements.filterMap Stmt.functionDef?) :
    inner.freeReads ⊆ stmt.reads := by
  cases stmt with
  | functionDef definition =>
      have same : inner = definition := by
        simpa [Stmt.statements, Stmt.functionDef?] using standing
      rw [same, Stmt.reads]
      exact List.subset_append_right _ _
  | ifElse _ body orelse | whileLoop _ body orelse | forLoop _ _ body orelse =>
      simp only [Stmt.statements, Stmt.functionDef?, List.filterMap_cons, List.filterMap_append,
        List.mem_append] at standing
      rw [Stmt.reads]
      apply List.subset_append_of_subset_right
      rcases standing with inBody | inOrelse
      · exact List.subset_append_of_subset_left _ (Block.freeReads_subset_reads body inBody)
      · exact List.subset_append_of_subset_right _ (Block.freeReads_subset_reads orelse inOrelse)
  | tryExcept body handlers orelse finalbody =>
      simp only [Stmt.statements, Stmt.functionDef?, List.filterMap_cons, List.filterMap_append,
        List.mem_append] at standing
      rw [Stmt.reads]
      rcases standing with inBody | inHandlers | inOrelse | inFinal
      · exact List.subset_append_of_subset_left _ (Block.freeReads_subset_reads body inBody)
      · apply List.subset_append_of_subset_right
        exact List.subset_append_of_subset_left _
          (Block.freeReads_subset_handlerReads handlers inHandlers)
      · apply List.subset_append_of_subset_right
        apply List.subset_append_of_subset_right
        exact List.subset_append_of_subset_left _ (Block.freeReads_subset_reads orelse inOrelse)
      · apply List.subset_append_of_subset_right
        apply List.subset_append_of_subset_right
        exact List.subset_append_of_subset_right _
          (Block.freeReads_subset_reads finalbody inFinal)
  | withBlock items body =>
      simp only [Stmt.statements, Stmt.functionDef?, List.filterMap_cons] at standing
      rw [Stmt.reads]
      exact List.subset_append_of_subset_right _ (Block.freeReads_subset_reads body standing)
  | _ => simp [Stmt.statements, Stmt.functionDef?] at standing

private theorem Block.freeReads_subset_reads (body : List Stmt) {inner : FunctionDef}
    (standing : inner ∈ Block.functions body) : inner.freeReads ⊆ Block.reads body := by
  cases body with
  | nil => simp [Block.functions, Block.statements] at standing
  | cons stmt rest =>
      simp only [Block.functions, Block.statements, List.filterMap_append,
        List.mem_append] at standing
      rw [Block.reads]
      rcases standing with first | later
      · exact List.subset_append_of_subset_left _ (Stmt.freeReads_subset_reads stmt first)
      · exact List.subset_append_of_subset_right _ (Block.freeReads_subset_reads rest later)

private theorem Block.freeReads_subset_handlerReads (handlers : List Handler) {inner : FunctionDef}
    (standing : inner ∈ (handlerStatements handlers).filterMap Stmt.functionDef?) :
    inner.freeReads ⊆ handlerReads handlers := by
  cases handlers with
  | nil => simp [handlerStatements] at standing
  | cons handler rest =>
      rcases handler with ⟨exception, name, body⟩
      simp only [handlerStatements, List.filterMap_append, List.mem_append] at standing
      rw [handlerReads]
      rcases standing with first | later
      · exact List.subset_append_of_subset_left _ (Block.freeReads_subset_reads body first)
      · exact List.subset_append_of_subset_right _
          (Block.freeReads_subset_handlerReads rest later)

end

/-- What is free in a function is free in the function around it, unless that function
binds it. -/
theorem FunctionDef.mem_freeNames_of_nested {inner outer : FunctionDef} {name : String}
    (nested : inner ∈ outer.nested) (isFree : name ∈ inner.freeNames.names)
    (unbound : name ∉ outer.localNames.names) : name ∈ outer.freeNames.names := by
  rcases outer with ⟨outerName, params, returnHint, body, decorators, isAsync⟩
  rw [FunctionDef.freeNames, NameSet.mem_names_ofList] at isFree ⊢
  have isRead : name ∈ Block.reads body := Block.freeReads_subset_reads body nested isFree
  rw [FunctionDef.freeReads, freeAmong, List.mem_filter]
  refine ⟨isRead, ?_⟩
  have notBound : (localNamesOf params body).contains name = false := by
    simpa [NameSet.contains, FunctionDef.localNames] using unbound
  simp only [notBound, Bool.not_false, Bool.true_or]

/-! ## One pass over the sites -/

def boundBy (functions : List (String × FunctionDef)) : NameSet :=
  functions.foldl (fun names outer => names.insertMany outer.2.localNames.names) ∅

private theorem boundBy_append (functions : List (String × FunctionDef)) (name : String)
    (definition : FunctionDef) :
    boundBy (functions ++ [(name, definition)]) =
      (boundBy functions).insertMany definition.localNames.names :=
  List.foldl_append

private theorem mem_boundBy {functions : List (String × FunctionDef)} {name : String} :
    name ∈ (boundBy functions).names ↔
      ∃ outer ∈ functions, name ∈ outer.2.localNames.names := by
  induction functions using List.reverseRecOn with
  | nil =>
      have nothing : (boundBy []).names = [] := rfl
      simp [nothing]
  | append_singleton functions outer induction =>
      rw [boundBy_append, NameSet.mem_names_insertMany, induction]
      simp [or_and_right, exists_or]

def Site.captured? (site : Site) : Option NameSet :=
  if (boundBy site.enclosing).isEmpty then none
  else some (NameSet.ofList
    (site.definition.freeNames.names.filter (boundBy site.enclosing).contains))

def Site.record (found : Captures) (site : Site) : Captures :=
  match site.captured? with
  | some captured => found.insert site.name captured
  | none => found

private theorem FunctionDef.captures_eq (definition : FunctionDef) (name : String)
    (enclosing : List (String × FunctionDef)) (found : Captures) :
    definition.captures name (boundBy enclosing) found =
      definition.nested.foldl
        (fun found inner => inner.captures (Dotted.join name inner.name)
          (boundBy (enclosing ++ [(name, definition)])) found)
        (Site.record found ⟨name, definition, enclosing⟩) := by
  have own : Site.record found ⟨name, definition, enclosing⟩ =
      if (boundBy enclosing).isEmpty then found
      else found.insert name (NameSet.ofList
        (definition.freeNames.names.filter (boundBy enclosing).contains)) := by
    rw [Site.record, Site.captured?]
    split <;> simp_all
  rw [own, boundBy_append]
  simp only [FunctionDef.captures]
  rw [FunctionDef.fold_eq, List.foldl_map]

private theorem FunctionDef.captures_eq_foldl (definition : FunctionDef) (name : String)
    (enclosing : List (String × FunctionDef)) (found : Captures) :
    definition.captures name (boundBy enclosing) found =
      (definition.sites name enclosing).foldl Site.record found := by
  induction definition using FunctionDef.nested_induction
    generalizing name enclosing found with
  | step definition induction =>
  rw [FunctionDef.captures_eq, FunctionDef.sites_eq, List.foldl_cons, List.foldl_flatMap]
  apply List.foldl_ext
  intro found inner nested
  exact induction inner nested _ _ found

theorem Program.captures_eq_foldl (program : Program) :
    program.captures = program.sites.foldl Site.record ∅ := by
  rw [Program.captures, Program.sites, List.foldl_flatMap]
  apply List.foldl_ext
  intro found root _
  exact root.2.captures_eq_foldl root.1 [] found

/-! ## Distinct names -/

private theorem Site.get?_record_self (site : Site) {found : Captures}
    (fresh : found.get? site.name = none) :
    (site.record found).get? site.name = site.captured? := by
  rw [Site.record]
  cases site.captured? with
  | none => exact fresh
  | some captured => exact found.get?_insert_self site.name captured

private theorem Site.get?_record_of_ne {site : Site} {key : String} (different : key ≠ site.name)
    (found : Captures) : (site.record found).get? key = found.get? key := by
  rw [Site.record]
  cases site.captured? with
  | none => rfl
  | some captured => exact found.get?_insert_of_ne different captured

private theorem get?_foldl_record_of_not_mem {sites : List Site} {key : String}
    (absent : key ∉ sites.map Site.name) (found : Captures) :
    (sites.foldl Site.record found).get? key = found.get? key := by
  induction sites generalizing found with
  | nil => rfl
  | cons site rest induction =>
      rw [List.map_cons, List.mem_cons, not_or] at absent
      rw [List.foldl_cons, induction absent.2, Site.get?_record_of_ne absent.1]

private theorem get?_foldl_record {sites : List Site} (distinct : (sites.map Site.name).Nodup)
    {site : Site} (member : site ∈ sites) {found : Captures}
    (fresh : found.get? site.name = none) :
    (sites.foldl Site.record found).get? site.name = site.captured? := by
  induction sites generalizing found with
  | nil => cases member
  | cons first rest induction =>
      rw [List.map_cons, List.nodup_cons] at distinct
      rw [List.foldl_cons]
      rcases List.mem_cons.mp member with rfl | later
      · rw [get?_foldl_record_of_not_mem distinct.1, Site.get?_record_self site fresh]
      · have different : site.name ≠ first.name := by
          intro same
          exact distinct.1 (same ▸ List.mem_map_of_mem later)
        apply induction distinct.2 later
        rw [Site.get?_record_of_ne different, fresh]

theorem Program.get?_captures {program : Program}
    (distinct : (program.sites.map Site.name).Nodup) {site : Site}
    (member : site ∈ program.sites) :
    program.captures.get? site.name = site.captured? := by
  rw [Program.captures_eq_foldl]
  exact get?_foldl_record distinct member rfl

theorem Program.eq_of_name_eq {program : Program} {site other : Site}
    (distinct : (program.sites.map Site.name).Nodup) (member : site ∈ program.sites)
    (isOther : other ∈ program.sites) (same : other.name = site.name) : other = site :=
  List.inj_on_of_nodup_map distinct isOther member same

/-! ## What is captured -/

theorem Site.mem_captured {site : Site} {captured : NameSet}
    (found : site.captured? = some captured) {name : String} :
    name ∈ captured.names ↔ name ∈ site.definition.freeNames.names ∧
      ∃ outer ∈ site.enclosing, name ∈ outer.2.localNames.names := by
  rw [Site.captured?] at found
  split at found
  · cases found
  · cases found
    rw [NameSet.mem_names_ofList, List.mem_filter, NameSet.contains, List.contains_iff_mem,
      mem_boundBy]

/-- Around a nested function at least the function's own name is bound. -/
theorem Program.exists_captured {program : Program} {site : Site}
    (member : site ∈ program.sites) (nested : site.enclosing ≠ []) :
    ∃ captured, site.captured? = some captured := by
  rcases Program.mem_sites_cases member with isRoot | ⟨parent, _, isInside⟩
  · exact absurd isRoot nested
  · have bound : site.definition.name ∈ (boundBy site.enclosing).names := by
      rw [isInside.enclosing, boundBy_append, NameSet.mem_names_insertMany]
      exact .inr (FunctionDef.mem_localNames_of_nested isInside.nested)
    have nonempty : (boundBy site.enclosing).isEmpty = false := by
      rw [NameSet.isEmpty, List.isEmpty_eq_false_iff]
      exact List.ne_nil_of_mem bound
    exact ⟨_, if_neg (by simp [nonempty])⟩

/-- A name that is free in a function is free in every function around it, out to the
innermost one that binds the name. -/
theorem Program.isFree_between {program : Program} {name : String}
    {outer inner : List (String × FunctionDef)} {binder : String × FunctionDef} {site : Site}
    (member : site ∈ program.sites) (chain : site.enclosing = outer ++ binder :: inner)
    (isFree : name ∈ site.definition.freeNames.names)
    (unbound : ∀ between ∈ inner, name ∉ between.2.localNames.names) :
    ∀ between ∈ inner, ∃ middle ∈ program.sites, middle.name = between.1 ∧
      binder ∈ middle.enclosing ∧ name ∈ middle.definition.freeNames.names := by
  induction inner using List.reverseRecOn generalizing site with
  | nil =>
      intro between impossible
      cases impossible
  | append_singleton inner last induction =>
      rcases Program.mem_sites_cases member with isRoot | ⟨parent, parentMember, isInside⟩
      · simp [isRoot] at chain
      -- The last function of the chain is the parent; the others are around the parent.
      have split : parent.enclosing ++ [(parent.name, parent.definition)] =
          (outer ++ binder :: inner) ++ [last] := by
        rw [← isInside.enclosing, chain, List.append_assoc, List.cons_append]
      rcases List.append_singleton_inj.mp split with ⟨parentChain, rfl⟩
      have lastUnbound := unbound (parent.name, parent.definition) (by simp)
      have parentFree :=
        FunctionDef.mem_freeNames_of_nested isInside.nested isFree lastUnbound
      intro between inside
      rcases List.mem_append.mp inside with further | isLast
      · apply induction parentMember parentChain parentFree _ between further
        intro between further
        exact unbound between (List.mem_append_left _ further)
      · rw [List.mem_singleton] at isLast
        refine ⟨parent, parentMember, by rw [isLast], ?_, parentFree⟩
        rw [parentChain]
        exact List.mem_append_right _ List.mem_cons_self

/-- If the functions of a program have distinct dotted names, exactly the nested ones
have a capture set. It holds the names that are free in the function and bound in some
function around it, and each of them is also captured by every function between the
function and the innermost one that binds the name. -/
theorem Program.captures_exact (program : Program)
    (distinct : (program.sites.map Site.name).Nodup) (site : Site)
    (member : site ∈ program.sites) :
    (site.enclosing = [] → program.captures.get? site.name = none) ∧
    (site.enclosing ≠ [] → ∃ captured, program.captures.get? site.name = some captured ∧
      (∀ name, name ∈ captured.names ↔ name ∈ site.definition.freeNames.names ∧
        ∃ outer ∈ site.enclosing, name ∈ outer.2.localNames.names) ∧
      ∀ name ∈ captured.names, ∀ outer binder inner,
        site.enclosing = outer ++ binder :: inner → name ∈ binder.2.localNames.names →
        (∀ between ∈ inner, name ∉ between.2.localNames.names) →
        ∀ between ∈ inner, ∃ passed, program.captures.get? between.1 = some passed ∧
          name ∈ passed.names) := by
  rw [program.get?_captures distinct member]
  constructor
  · intro isRoot
    rw [Site.captured?, isRoot]
    rfl
  · intro nested
    rcases Program.exists_captured member nested with ⟨captured, found⟩
    refine ⟨captured, found, fun _ => Site.mem_captured found, ?_⟩
    intro name isCaptured outer binder inner chain bound unbound between inside
    have isFree := ((Site.mem_captured found).mp isCaptured).1
    rcases Program.isFree_between member chain isFree unbound between inside
        with ⟨middle, middleMember, named, around, middleFree⟩
    rcases Program.exists_captured middleMember (List.ne_nil_of_mem around)
        with ⟨passed, middleFound⟩
    refine ⟨passed, ?_, (Site.mem_captured middleFound).mpr ⟨middleFree, binder, around, bound⟩⟩
    rw [← named, program.get?_captures distinct middleMember, middleFound]

/-! Three functions inside each other: the innermost one reads a parameter of the
outermost one and a parameter of the middle one, which hides one of the outermost. -/

def FunctionDef.adding : FunctionDef where
  name := "adding"
  params := []
  returnHint := none
  decorators := []
  isAsync := false
  body := [.ret (some (.binary .add (.name "base") (.name "step")))]

def FunctionDef.stepping : FunctionDef where
  name := "stepping"
  params := [⟨"step", none, none⟩]
  returnHint := none
  decorators := []
  isAsync := false
  body := [.ifElse (.name "step") [.functionDef adding] []]

def FunctionDef.starting : FunctionDef where
  name := "starting"
  params := [⟨"base", none, none⟩, ⟨"step", none, none⟩]
  returnHint := none
  decorators := []
  isAsync := false
  body := [.functionDef stepping]

def Program.layered : Program where
  body := [.functionDef .starting]

def Site.adding : Site where
  name := "starting.stepping.adding"
  definition := .adding
  enclosing := [("starting", .starting), ("starting.stepping", .stepping)]

theorem Program.captures_exact_layered :
    ((layered.sites.map Site.name).Nodup ∧ Site.adding ∈ layered.sites ∧
      Site.adding.enclosing ≠ []) ∧
    ∃ captured, layered.captures.get? "starting.stepping.adding" = some captured ∧
      "base" ∈ captured.names ∧ "step" ∈ captured.names ∧
      ∃ passed, layered.captures.get? "starting.stepping" = some passed ∧
        "base" ∈ passed.names := by
  have distinct : (layered.sites.map Site.name).Nodup := by decide
  have member : Site.adding ∈ layered.sites := List.mem_of_getElem? (i := 2) rfl
  have nested : Site.adding.enclosing ≠ [] := List.cons_ne_nil _ _
  rcases (layered.captures_exact distinct Site.adding member).2 nested
      with ⟨captured, found, mem_iff, passes⟩
  have base : "base" ∈ captured.names :=
    (mem_iff "base").mpr ⟨by decide, ("starting", .starting), by simp [Site.adding], by decide⟩
  have step : "step" ∈ captured.names :=
    (mem_iff "step").mpr
      ⟨by decide, ("starting.stepping", .stepping), by simp [Site.adding], by decide⟩
  have passed := passes "base" base [] ("starting", .starting)
    [("starting.stepping", .stepping)] rfl (by decide)
    (fun between inside => by rw [List.mem_singleton.mp inside]; decide)
    ("starting.stepping", .stepping) List.mem_cons_self
  exact ⟨⟨distinct, member, nested⟩, captured, found, base, step, passed⟩

end NativeTyping
