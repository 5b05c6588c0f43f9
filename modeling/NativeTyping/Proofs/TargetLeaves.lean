import Mathlib.Data.List.Basic
import NativeTyping.Proofs.Writes
import NativeTyping.Surface.Lowering
/-!
Leaves of assignment targets.

A written target arranges its leaves by tuples, lists and stars. A leaf is known by its
path, the position that is taken at each level, so a name that is written twice counts
twice. Lowering keeps the leaves that can be stored to, and unpacking a value of any type
then reaches them from left to right, each once.
-/

namespace NativeTyping

private theorem Target.map_fst_unpackNames (target : Target) (type : Ty) :
    (target.unpackNames type).map Prod.fst = target.boundNames := by
  rw [boundNames, ← map_fst_unpack target type, unpackNames]
  induction target.unpack type with
  | nil => rfl
  | cons part rest induction =>
      rcases part with ⟨place, received⟩
      cases place <;> simpa [Place.boundNames] using induction

namespace Surface

namespace Expr

/-! ## Arrangements -/

def arranged : Expr → List Expr
  | .tuple items => items
  | .list items => items
  | .starred value => [value]
  | _ => []

def isLeaf : Expr → Bool
  | .tuple _ | .list _ | .starred _ => false
  | _ => true

private theorem sizeOf_lt_of_mem_arranged {tree part : Expr} (member : part ∈ tree.arranged) :
    sizeOf part < sizeOf tree := by
  cases tree with
  | tuple items | list items =>
      have smaller : sizeOf part < sizeOf items := List.sizeOf_lt_of_mem member
      simp only [tuple.sizeOf_spec, list.sizeOf_spec]
      omega
  | starred value =>
      rw [List.mem_singleton.mp member, starred.sizeOf_spec]
      omega
  | _ => cases member

private theorem arrangement_induction {motive : Expr → Prop}
    (leaf : ∀ tree, tree.isLeaf = true → motive tree)
    (arrangement : ∀ tree, tree.isLeaf = false → (∀ part ∈ tree.arranged, motive part) →
      motive tree) (tree : Expr) : motive tree := by
  induction size : sizeOf tree using Nat.strongRecOn generalizing tree with
  | ind size induction =>
      subst size
      cases kind : tree.isLeaf with
      | true => exact leaf tree kind
      | false =>
          exact arrangement tree kind fun part member =>
            induction _ (sizeOf_lt_of_mem_arranged member) part rfl

/-- The part at a path, which gives the position that is taken at each level. -/
def part? (tree : Expr) : List Nat → Option Expr
  | [] => some tree
  | position :: path => tree.arranged[position]?.bind fun part => part.part? path

def leafAt? (tree : Expr) (path : List Nat) : Option Expr :=
  (tree.part? path).filter isLeaf

private theorem leafAt?_eq_some_iff_of_leaf {tree leaf : Expr} (kind : tree.isLeaf = true)
    (path : List Nat) : tree.leafAt? path = some leaf ↔ path = [] ∧ leaf = tree := by
  have childless : tree.arranged = [] := by
    cases tree with
    | tuple _ | list _ | starred _ => cases kind
    | _ => rfl
  cases path with
  | nil =>
      rw [leafAt?, part?, Option.filter_some_pos kind]
      simp [eq_comm]
  | cons position path => simp [leafAt?, part?, childless]

private theorem leafAt?_eq_some_iff_of_arrangement {tree leaf : Expr} (kind : tree.isLeaf = false)
    (path : List Nat) : tree.leafAt? path = some leaf ↔
      ∃ position rest part, path = position :: rest ∧ tree.arranged[position]? = some part ∧
        part.leafAt? rest = some leaf := by
  cases path with
  | nil =>
      rw [leafAt?, part?, Option.filter_some_neg (Bool.not_eq_true _ ▸ kind)]
      simp
  | cons position path =>
      cases found : tree.arranged[position]? with
      | none => simp [leafAt?, part?, found]
      | some part => simp [leafAt?, part?, found]

/-! ## Leaves in order -/

def beneath (position : Nat) (leaf : List Nat × Expr) : List Nat × Expr :=
  (position :: leaf.1, leaf.2)

mutual

def leaves : Expr → List (List Nat × Expr)
  | .tuple items => leavesFrom 0 items
  | .list items => leavesFrom 0 items
  | .starred value => value.leaves.map (beneath 0)
  | leaf => [([], leaf)]
termination_by structural tree => tree

def leavesFrom (position : Nat) : List Expr → List (List Nat × Expr)
  | [] => []
  | part :: rest => part.leaves.map (beneath position) ++ leavesFrom (position + 1) rest
termination_by structural parts => parts

end

private theorem leavesFrom_eq_flatMap (position : Nat) (parts : List Expr) :
    leavesFrom position parts =
      (parts.zipIdx position).flatMap fun entry => entry.1.leaves.map (beneath entry.2) := by
  induction parts generalizing position with
  | nil => rfl
  | cons part rest induction =>
      rw [leavesFrom, induction, List.zipIdx_cons, List.flatMap_cons]

private theorem leaves_of_leaf {tree : Expr} (kind : tree.isLeaf = true) :
    tree.leaves = [([], tree)] := by
  cases tree with
  | tuple _ | list _ | starred _ => cases kind
  | _ => rfl

private theorem leaves_of_arrangement {tree : Expr} (kind : tree.isLeaf = false) :
    tree.leaves =
      tree.arranged.zipIdx.flatMap fun entry => entry.1.leaves.map (beneath entry.2) := by
  cases tree with
  | tuple items | list items => rw [leaves, leavesFrom_eq_flatMap, arranged]
  | starred value => simp [leaves, arranged]
  | _ => cases kind

private theorem map_snd_leaves_of_arrangement {tree : Expr} (kind : tree.isLeaf = false) :
    tree.leaves.map Prod.snd = tree.arranged.flatMap fun part => part.leaves.map Prod.snd := by
  have kept (position : Nat) : Prod.snd ∘ beneath position = Prod.snd := rfl
  rw [leaves_of_arrangement kind, List.map_flatMap]
  simp only [List.map_map, kept]
  have parts := List.flatMap_map Prod.fst (fun part : Expr => part.leaves.map Prod.snd)
    tree.arranged.zipIdx
  rw [← parts, List.zipIdx_map_fst]

/-- A list has every leaf of a tree exactly once, from left to right. -/
structure ListsLeaves (tree : Expr) (listed : List (List Nat × Expr)) : Prop where
  ordered : listed.Pairwise fun earlier later => List.Lex (· < ·) earlier.1 later.1
  complete (path : List Nat) (leaf : Expr) :
    (path, leaf) ∈ listed ↔ tree.leafAt? path = some leaf

private theorem mem_leaves_iff (tree : Expr) (path : List Nat) (leaf : Expr) :
    (path, leaf) ∈ tree.leaves ↔ tree.leafAt? path = some leaf := by
  induction tree using arrangement_induction generalizing path with
  | leaf tree kind =>
      rw [leaves_of_leaf kind, leafAt?_eq_some_iff_of_leaf kind, List.mem_singleton,
        Prod.mk.injEq]
  | arrangement tree kind induction =>
      rw [leaves_of_arrangement kind, leafAt?_eq_some_iff_of_arrangement kind]
      simp only [List.mem_flatMap, List.mem_map, List.mem_zipIdx_iff_getElem?]
      constructor
      · rintro ⟨⟨part, position⟩, found, ⟨rest, inner⟩, member, same⟩
        cases same
        have inside := List.mem_of_getElem? found
        exact ⟨position, rest, part, rfl, found, (induction part inside rest).mp member⟩
      · rintro ⟨position, rest, part, rfl, found, reached⟩
        have inside := List.mem_of_getElem? found
        exact ⟨(part, position), found, (rest, leaf), (induction part inside rest).mpr reached, rfl⟩

private theorem leaves_ordered (tree : Expr) :
    tree.leaves.Pairwise fun earlier later => List.Lex (· < ·) earlier.1 later.1 := by
  induction tree using arrangement_induction with
  | leaf tree kind =>
      rw [leaves_of_leaf kind]
      exact List.pairwise_singleton _ _
  | arrangement tree kind induction =>
      have ascending : tree.arranged.zipIdx.Pairwise fun before after => before.2 < after.2 := by
        rw [← List.pairwise_map, List.zipIdx_map_snd]
        exact List.pairwise_lt_range' 1
      rw [leaves_of_arrangement kind, List.pairwise_flatMap]
      refine ⟨?_, ascending.imp ?_⟩
      · -- Within one part the paths share their first position.
        intro entry member
        rw [List.pairwise_map]
        exact (induction entry.1 (List.fst_mem_of_mem_zipIdx member)).imp .cons
      · -- Between two parts the first positions decide.
        intro before after less left leftMember right rightMember
        rcases List.mem_map.mp leftMember with ⟨first, -, rfl⟩
        rcases List.mem_map.mp rightMember with ⟨second, -, rfl⟩
        exact .rel less

private theorem listsLeaves_leaves (tree : Expr) : tree.ListsLeaves tree.leaves where
  ordered := tree.leaves_ordered
  complete := tree.mem_leaves_iff

/-! ## Places of the leaves -/

def place? : Expr → Option Place
  | .name id => some (.name id)
  | .attribute value attr => some (.attribute value.lower attr)
  | .subscript value index => some (.subscript value.lower index.lower)
  | _ => none

def name? : Expr → Option String
  | .name id => some id
  | _ => none

private theorem toList_name? (leaf : Expr) :
    leaf.name?.toList = leaf.place?.toList.flatMap Place.boundNames := by
  cases leaf <;> rfl

private theorem lowerTargets_eq_flatMap (items : List Expr) :
    lowerTargets items = items.flatMap fun item => item.lowerTarget?.toList := by
  induction items with
  | nil => rfl
  | cons item rest induction => rw [lowerTargets, induction, List.flatMap_cons]

private theorem places_lowerTarget?_of_arrangement {tree : Expr} (kind : tree.isLeaf = false) :
    tree.lowerTarget?.toList.flatMap Target.places =
      tree.arranged.flatMap fun part => part.lowerTarget?.toList.flatMap Target.places := by
  cases tree with
  | tuple items | list items =>
      simp [lowerTarget?, Target.places, lowerTargets_eq_flatMap, List.flatMap_assoc, arranged]
  | starred value =>
      cases lowered : value.lowerTarget? <;>
        simp [lowerTarget?, lowered, Target.places, arranged]
  | _ => cases kind

/-- Lowering a target keeps the places that its leaves stand for, and nothing else. -/
theorem places_lowerTarget? (tree : Expr) :
    tree.lowerTarget?.toList.flatMap Target.places =
      tree.leaves.filterMap fun leaf => leaf.2.place? := by
  have apart (tree : Expr) : (tree.leaves.filterMap fun leaf => leaf.2.place?) =
      (tree.leaves.map Prod.snd).filterMap place? := by
    rw [List.filterMap_map]
    rfl
  induction tree using arrangement_induction with
  | leaf tree kind =>
      rw [leaves_of_leaf kind]
      cases tree with
      | tuple _ | list _ | starred _ => cases kind
      | _ => rfl
  | arrangement tree kind induction =>
      rw [places_lowerTarget?_of_arrangement kind, apart, map_snd_leaves_of_arrangement kind,
        List.filterMap_flatMap]
      refine List.flatMap_congr fun part member => ?_
      rw [induction part member, apart]

/-! ## Targets that can be stored to -/

inductive Storable : Expr → Prop where
  | name (id : String) : Storable (.name id)
  | attribute (value : Expr) (attr : String) : Storable (.attribute value attr)
  | subscript (value index : Expr) : Storable (.subscript value index)
  | tuple {items : List Expr} : (∀ item ∈ items, Storable item) → Storable (.tuple items)
  | list {items : List Expr} : (∀ item ∈ items, Storable item) → Storable (.list items)
  | starred {value : Expr} : Storable value → Storable (.starred value)

namespace Storable

variable {tree : Expr}

private theorem exists_target (storable : tree.Storable) :
    ∃ target, tree.lowerTarget? = some target := by
  induction storable with
  | starred _ induction =>
      rcases induction with ⟨target, lowered⟩
      exact ⟨.starred target, by rw [lowerTarget?, lowered, Option.map_some]⟩
  | _ => exact ⟨_, rfl⟩

private theorem arranged (storable : tree.Storable) : ∀ part ∈ tree.arranged, part.Storable := by
  cases storable with
  | tuple items | list items => exact items
  | starred value => exact List.forall_mem_singleton.mpr value
  | _ => exact List.forall_mem_nil _

private theorem part (storable : tree.Storable) {path : List Nat} {part : Expr}
    (reached : tree.part? path = some part) : part.Storable := by
  induction path generalizing tree with
  | nil =>
      cases reached
      exact storable
  | cons position path induction =>
      rcases Option.bind_eq_some_iff.mp reached with ⟨next, found, reached⟩
      exact induction (storable.arranged next (List.mem_of_getElem? found)) reached

private theorem exists_place (storable : tree.Storable) (kind : tree.isLeaf = true) :
    ∃ place, tree.place? = some place := by
  cases storable with
  | tuple _ | list _ | starred _ => cases kind
  | _ => exact ⟨_, rfl⟩

private theorem exists_place_of_mem_leaves (storable : tree.Storable) {leaf : List Nat × Expr}
    (member : leaf ∈ tree.leaves) : ∃ place, leaf.2.place? = some place := by
  have reached := Option.filter_eq_some_iff.mp ((tree.mem_leaves_iff leaf.1 leaf.2).mp member)
  exact (storable.part reached.1).exists_place reached.2

private theorem map_some_places (storable : tree.Storable) {target : Target}
    (lowered : tree.lowerTarget? = some target) :
    target.places.map some = tree.leaves.map fun leaf => leaf.2.place? := by
  have kept := tree.places_lowerTarget?
  rw [lowered, Option.toList_some, List.flatMap_singleton] at kept
  rw [kept, List.map_filterMap, List.filterMap_eq_map_iff_forall_eq_some]
  intro leaf member
  rcases storable.exists_place_of_mem_leaves member with ⟨place, stands⟩
  rw [stands, Option.map_some]

end Storable

private theorem boundNames_of_lowered {tree : Expr} {target : Target}
    (lowered : tree.lowerTarget? = some target) :
    target.boundNames = tree.leaves.filterMap fun leaf => leaf.2.name? := by
  have kept := tree.places_lowerTarget?
  rw [lowered, Option.toList_some, List.flatMap_singleton] at kept
  rw [Target.boundNames, kept, List.filterMap_eq_flatMap_toList, List.filterMap_eq_flatMap_toList,
    List.flatMap_assoc]
  simp only [toList_name?]

/-- Unpacking a value over a target loses and repeats nothing: whatever type the value has,
the places that receive a part of it are the leaves of the target as it is written, from left
to right and each once, and the names among them are those that the target binds. -/
theorem leaves_unpacked_once {tree : Expr} (storable : tree.Storable) :
    tree.ListsLeaves tree.leaves ∧
    ∃ target, tree.lowerTarget? = some target ∧ ∀ type : Ty,
      ((target.unpack type).map fun part => some part.1) =
        (tree.leaves.map fun leaf => leaf.2.place?) ∧
      (target.unpackNames type).map Prod.fst = target.boundNames ∧
      target.boundNames = tree.leaves.filterMap fun leaf => leaf.2.name? := by
  rcases storable.exists_target with ⟨target, lowered⟩
  refine ⟨tree.listsLeaves_leaves, target, lowered, fun type => ⟨?_, ?_, ?_⟩⟩
  · rw [← storable.map_some_places lowered, ← Target.map_fst_unpack target type, List.map_map]
    rfl
  · exact target.map_fst_unpackNames type
  · exact boundNames_of_lowered lowered

/-! The target `first, [shelf.size, *(rest, table[first:])], first`, with one name twice. -/

def nestedTarget : Expr :=
  .tuple [
    .name "first",
    .list [
      .attribute (.name "shelf") "size",
      .starred (.tuple [
        .name "rest",
        .subscript (.name "table") (.slice (some (.name "first")) none none)])],
    .name "first"]

theorem leaves_unpacked_once_nested :
    nestedTarget.Storable ∧
    nestedTarget.leaves.map Prod.fst = [[0], [1, 0], [1, 1, 0, 0], [1, 1, 0, 1], [2]] ∧
    ∃ target, nestedTarget.lowerTarget? = some target ∧ ∀ type : Ty,
      ((target.unpack type).map fun part => some part.1) =
        [some (.name "first"), some (.attribute (.name "shelf") "size"), some (.name "rest"),
          some (.subscript (.name "table") unresolved), some (.name "first")] ∧
      (target.unpackNames type).map Prod.fst = ["first", "rest", "first"] := by
  have inner : (Expr.tuple [.name "rest",
      .subscript (.name "table") (.slice (some (.name "first")) none none)]).Storable := by
    refine .tuple (List.forall_mem_cons.mpr ⟨.name _, List.forall_mem_singleton.mpr ?_⟩)
    exact .subscript _ _
  have storable : nestedTarget.Storable := by
    refine .tuple (List.forall_mem_cons.mpr ⟨.name _, List.forall_mem_cons.mpr
      ⟨.list (List.forall_mem_cons.mpr ⟨.attribute _ _, List.forall_mem_singleton.mpr ?_⟩),
        List.forall_mem_singleton.mpr (.name _)⟩⟩)
    exact .starred inner
  rcases leaves_unpacked_once storable with ⟨-, target, lowered, unpacked⟩
  refine ⟨storable, rfl, target, lowered, fun type => ?_⟩
  rcases unpacked type with ⟨places, names, bound⟩
  exact ⟨places, names.trans bound⟩

end Expr

end Surface

end NativeTyping
