import Mathlib.Data.List.TakeDrop
import NativeTyping.Text.Dotted
/-!
How dotted names stand to each other.

A name is under another if it continues it after a dot. The names that a dotted
name is nested in are those it is under, so from inside a scope nothing is reached
that stands apart from it.
-/

namespace NativeTyping

namespace Dotted

def isUnder (outer inner : String) : Bool :=
  (outer ++ ".").toList.isPrefixOf inner.toList

def isWithin (outer inner : String) : Bool :=
  inner = outer || isUnder outer inner

def Apart (left right : String) : Prop :=
  isWithin left right = false ∧ isWithin right left = false
deriving Decidable

theorem toList_join (left right : String) :
    (join left right).toList = left.toList ++ '.' :: right.toList := by
  simp [join]

theorem isUnder_iff {outer inner : String} :
    isUnder outer inner = true ↔ ∃ rest, inner = join outer rest := by
  rw [isUnder, List.isPrefixOf_iff_prefix]
  constructor
  · rintro ⟨rest, equal⟩
    refine ⟨String.ofList rest, String.toList_injective ?_⟩
    rw [toList_join, ← equal]
    simp
  · rintro ⟨rest, equal⟩
    refine ⟨rest.toList, ?_⟩
    rw [equal, toList_join]
    simp

theorem isWithin_iff {outer inner : String} :
    isWithin outer inner = true ↔ inner = outer ∨ ∃ rest, inner = join outer rest := by
  simp [isWithin, isUnder_iff]

theorem isWithin_self (name : String) : isWithin name name = true :=
  isWithin_iff.mpr (.inl rfl)

theorem not_isUnder_self (name : String) : isUnder name name = false := by
  rw [Bool.eq_false_iff]
  intro under
  rcases isUnder_iff.mp under with ⟨rest, continued⟩
  have lengths := congrArg (List.length ∘ String.toList) continued
  simp only [Function.comp_apply, toList_join, List.length_append, List.length_cons] at lengths
  omega

theorem join_right_cancel {left right name : String} (same : join left name = join right name) :
    left = right := by
  apply String.toList_injective
  have lists := congrArg String.toList same
  rw [toList_join, toList_join] at lists
  exact List.append_cancel_right lists

theorem join_ne_right (left right : String) : join left right ≠ right := by
  intro same
  have lengths := congrArg (List.length ∘ String.toList) same
  simp only [Function.comp_apply, toList_join, List.length_append, List.length_cons] at lengths
  omega

theorem join_ne_left (left right : String) : join left right ≠ left := by
  intro same
  have under : isUnder left left = true := isUnder_iff.mpr ⟨right, same.symm⟩
  rw [not_isUnder_self] at under
  cases under

theorem join_assoc (left middle right : String) :
    join (join left middle) right = join left (join middle right) := by
  simp [join, String.append_assoc]

theorem isWithin_join {outer inner : String} (within : isWithin outer inner = true)
    (name : String) : isWithin outer (join inner name) = true := by
  rw [isWithin_iff] at within ⊢
  rcases within with equal | ⟨rest, equal⟩
  · exact .inr ⟨name, by rw [equal]⟩
  · exact .inr ⟨join rest name, by rw [equal, join_assoc]⟩

/-! ## The first part of a name -/

private theorem forall_ne_dot {chars : List Char} (plain : '.' ∉ chars) :
    ∀ char ∈ chars, decide (char ≠ '.') = true := by
  intro char member
  rw [decide_eq_true_eq]
  rintro rfl
  exact plain member

private theorem splitFirst_of_plain {name : String} (plain : '.' ∉ name.toList) :
    splitFirst name = (name, none) := by
  have parted : name.toList.span (fun char => decide (char ≠ '.')) = (name.toList, []) := by
    rw [List.span_eq_takeWhile_dropWhile, ← List.append_nil name.toList,
      List.takeWhile_append_of_pos (forall_ne_dot plain),
      List.dropWhile_append_of_pos (forall_ne_dot plain)]
    rfl
  simp only [splitFirst, parted, String.ofList_toList]

private theorem splitFirst_join_of_plain {left : String} (plain : '.' ∉ left.toList)
    (right : String) :
    splitFirst (join left right) = (left, some right) := by
  have parted : (join left right).toList.span (fun char => decide (char ≠ '.')) =
      (left.toList, '.' :: right.toList) := by
    rw [List.span_eq_takeWhile_dropWhile, toList_join,
      List.takeWhile_append_of_pos (forall_ne_dot plain),
      List.dropWhile_append_of_pos (forall_ne_dot plain), List.takeWhile_cons_of_neg (by simp),
      List.dropWhile_cons_of_neg (by simp), List.append_nil]
  simp only [splitFirst, parted, String.ofList_toList]

private theorem exists_join_of_dotted {name : String} (dotted : '.' ∈ name.toList) :
    ∃ first rest, '.' ∉ first.toList ∧ name = join first rest := by
  obtain ⟨before, after, split, plain⟩ := List.eq_append_cons_of_mem dotted
  refine ⟨String.ofList before, String.ofList after, by rwa [String.toList_ofList], ?_⟩
  apply String.toList_injective
  rw [toList_join, String.toList_ofList, String.toList_ofList, split]

theorem splitFirst_join (left right : String) :
    splitFirst (join left right) =
      ((splitFirst left).1, some (((splitFirst left).2.map (join · right)).getD right)) := by
  by_cases dotted : '.' ∈ left.toList
  · obtain ⟨first, rest, plain, rfl⟩ := exists_join_of_dotted dotted
    rw [join_assoc, splitFirst_join_of_plain plain, splitFirst_join_of_plain plain]
    rfl
  · rw [splitFirst_join_of_plain dotted, splitFirst_of_plain dotted]
    rfl

theorem head_of_plain {name : String} (plain : '.' ∉ name.toList) : head name = name := by
  rw [head, splitFirst_of_plain plain]

theorem head_join (left right : String) : head (join left right) = head left := by
  rw [head, splitFirst_join, head]

/-! ## Names that a name is nested in -/

private theorem mem_beforeDots {before chars : List Char} :
    before ∈ beforeDots chars ↔ ∃ rest, chars = before ++ '.' :: rest := by
  induction chars generalizing before with
  | nil => simp [beforeDots]
  | cons char chars induction =>
      cases before with
      | nil => by_cases dot : char = '.' <;> simp [beforeDots, dot]
      | cons head tail =>
          have longer : head :: tail ∈ (beforeDots chars).map (char :: ·) ↔
              char = head ∧ tail ∈ beforeDots chars := by
            constructor
            · intro member
              rcases List.mem_map.mp member with ⟨before, inside, equal⟩
              rcases List.cons.inj equal with ⟨sameHead, sameTail⟩
              exact ⟨sameHead, sameTail ▸ inside⟩
            · rintro ⟨rfl, inside⟩
              exact List.mem_map.mpr ⟨tail, inside, rfl⟩
          have unfolded : head :: tail ∈ beforeDots (char :: chars) ↔
              head :: tail ∈ (beforeDots chars).map (char :: ·) := by
            by_cases dot : char = '.' <;> simp [beforeDots, dot]
          rw [unfolded, longer, induction]
          simp

theorem mem_ancestors {parent name : String} :
    parent ∈ ancestors name ↔ ∃ rest, name = join parent rest := by
  simp only [ancestors, List.mem_reverse, List.mem_map, mem_beforeDots]
  constructor
  · rintro ⟨before, ⟨rest, split⟩, rfl⟩
    refine ⟨String.ofList rest, String.toList_injective ?_⟩
    rw [toList_join, split, String.toList_ofList, String.toList_ofList]
  · rintro ⟨rest, rfl⟩
    exact ⟨parent.toList, ⟨rest.toList, toList_join parent rest⟩, String.ofList_toList⟩

private theorem beforeDots_append (before rest : List Char) :
    beforeDots (before ++ '.' :: rest) =
      beforeDots before ++ before :: (beforeDots rest).map (before ++ '.' :: ·) := by
  induction before with
  | nil => simp [beforeDots]
  | cons char before induction =>
      by_cases dot : char = '.' <;>
        simp [beforeDots, dot, induction, Function.comp_def]

/-- What a continued name is nested in: first what the continuation is nested in, then the
name that it continues, and then what that name is nested in. -/
theorem ancestors_join (outer inner : String) :
    ancestors (join outer inner) =
      (ancestors inner).map (join outer) ++ outer :: ancestors outer := by
  have continued (before : List Char) :
      String.ofList (outer.toList ++ '.' :: before) = join outer (String.ofList before) := by
    apply String.toList_injective
    rw [toList_join, String.toList_ofList, String.toList_ofList]
  simp [ancestors, toList_join, beforeDots_append, continued, Function.comp_def]

private theorem isWithin_of_split {outer inner : String} {middle rest after : List Char}
    (continued : inner.toList = outer.toList ++ middle)
    (dotted : '.' :: rest = middle ++ after) : isWithin outer inner = true := by
  rw [isWithin_iff]
  cases middle with
  | nil => exact .inl (String.toList_injective (by simpa using continued))
  | cons char middle =>
      rcases List.cons.inj dotted with ⟨rfl, -⟩
      refine .inr ⟨String.ofList middle, String.toList_injective ?_⟩
      rw [continued, toList_join, String.toList_ofList]

/-- Of two names that one name is within, one is within the other. -/
theorem within_or_around {root scope parent : String} (within : isWithin root scope = true)
    (nested : isWithin parent scope = true) :
    isWithin root parent = true ∨ isWithin parent root = true := by
  rcases isWithin_iff.mp within with rfl | ⟨rest, rfl⟩
  · exact .inr nested
  rcases isWithin_iff.mp nested with rfl | ⟨after, equal⟩
  · exact .inl within
  have split := congrArg String.toList equal
  rw [toList_join, toList_join] at split
  rcases List.append_eq_append_iff.mp split with
    ⟨middle, parentSplit, restSplit⟩ | ⟨middle, rootSplit, afterSplit⟩
  · exact .inl (isWithin_of_split parentSplit restSplit)
  · exact .inr (isWithin_of_split rootSplit afterSplit)

/-- Nothing within `root`, and nothing that is nested in, stands apart from it. -/
theorem ne_of_isWithin {root scope parent other : String} (within : isWithin root scope = true)
    (nested : isWithin parent scope = true) (apart : Apart other root) : parent ≠ other := by
  rintro rfl
  rcases within_or_around within nested with inside | around
  · rw [apart.2] at inside
    exact Bool.false_ne_true inside
  · rw [apart.1] at around
    exact Bool.false_ne_true around

end Dotted

end NativeTyping
