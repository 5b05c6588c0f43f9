import NativeTyping.Environment.Resolution
import NativeTyping.Proofs.Table
/-!
Allocators and closures.

A closure does not carry its result, so whether it needs an allocator is asked of the result
that is registered for it. That result can be a closure again, and results can lead back to a
closure that was met before. The question is put in the order in which it is passed on, with
the closures that were met so far, and it is shown to be answered in finitely many steps.

Main statement: no allocator is needed exactly if the way from a type through results and
registered closures ends at a type that needs none and meets no closure twice.
-/

namespace NativeTyping

namespace Ty

def isPassedOn : Ty → Bool
  | .function _ _ | .optional _ | .closure _ => true
  | _ => false

private theorem residue_cases (type : Ty) :
    (∃ name, type.residue = .closure name) ∨ type.residue.isPassedOn = false := by
  induction type using residue.induct with
  | case1 params result induction => exact induction
  | case2 inner induction => exact induction
  | case3 other notFunction notOptional =>
      cases other with
      | function params result => exact absurd rfl (notFunction params result)
      | optional inner => exact absurd rfl (notOptional inner)
      | closure name => exact .inl ⟨name, rfl⟩
      | _ => exact .inr rfl

end Ty

namespace Environment

/-- The question whether a type needs an allocator has an answer, where `met` are the
closures that it was passed on from. -/
inductive Answers (returns : Table Ty) : List String → Ty → Bool → Prop
  | result {met params result answer} : Answers returns met result answer →
      Answers returns met (.function params result) answer
  | inner {met inner answer} : Answers returns met inner answer →
      Answers returns met (.optional inner) answer
  | again {met name} : name ∈ met → Answers returns met (.closure name) true
  | unregistered {met name} : returns.get? name = none → Answers returns met (.closure name) true
  | registered {met name result answer} : name ∉ met → returns.get? name = some result →
      Answers returns (name :: met) result answer → Answers returns met (.closure name) answer
  | own {met type} : type.isPassedOn = false → Answers returns met type type.needsAllocator

/-- The way from a type to another: a function leads to its result, an optional to what it
holds, and a closure to its registered result. `closures` are the closures on the way. -/
inductive Leads (returns : Table Ty) : List String → Ty → Ty → Prop
  | here {type} : Leads returns [] type type
  | result {closures params result last} : Leads returns closures result last →
      Leads returns closures (.function params result) last
  | inner {closures inner last} : Leads returns closures inner last →
      Leads returns closures (.optional inner) last
  | closure {closures name result last} : returns.get? name = some result →
      Leads returns closures result last → Leads returns (name :: closures) (.closure name) last

variable {returns left : Table Ty} {met : List String} {name : String} {type : Ty}

/-! ## Answers -/

private theorem Answers.of_residue {answer : Bool}
    (answers : Answers returns met type.residue answer) :
    Answers returns met type answer := by
  induction type using Ty.residue.induct with
  | case1 params result induction => exact .result (induction answers)
  | case2 inner induction => exact .inner (induction answers)
  | case3 other notFunction notOptional =>
      rwa [Ty.residue.eq_3 _ notFunction notOptional] at answers

/-- Following closures gives the answer, as soon as there are more steps than results left.
A result that is left is that of a closure that was not met. -/
theorem answers_followClosures {steps : Nat} (enough : left.size < steps)
    (unmet : ∀ name, left.get? name = if name ∈ met then none else returns.get? name)
    (type : Ty) : Answers returns met type (followClosures steps left type) := by
  induction steps generalizing left met type with
  | zero => exact absurd enough (Nat.not_lt_zero _)
  | succ steps induction =>
      apply Answers.of_residue
      rw [followClosures]
      rcases type.residue_cases with ⟨name, isClosure⟩ | plain
      · rw [isClosure]
        have present := unmet name
        by_cases again : name ∈ met
        · rw [if_pos again] at present
          simp only [present]
          exact .again again
        rw [if_neg again] at present
        cases found : returns.get? name with
        | none =>
            simp only [present, found]
            exact .unregistered found
        | some result =>
            rw [found] at present
            simp only [present]
            refine .registered again found (induction ?_ ?_ result)
            · have fewer := Table.size_erase_lt present
              omega
            · intro other
              rw [Table.get?_erase, unmet other]
              by_cases same : other = name <;> simp [same]
      · have own : Answers returns met type.residue type.residue.needsAllocator := .own plain
        split
        · rename_i name isClosure
          rw [isClosure] at plain
          cases plain
        · exact own

private theorem answers_needsAllocator (env : Environment) (type : Ty) :
    Answers env.returns [] type (env.needsAllocator type) :=
  answers_followClosures (Nat.lt_succ_self _) (by simp) type

/-! ## Ways -/

/-- The way from a type ends at one that needs no allocator, past no closure twice and past
none of those that were met before. -/
def IsSpared (returns : Table Ty) (met : List String) (type : Ty) : Prop :=
  ∃ closures last, Leads returns closures type last ∧ closures.Nodup ∧
    (∀ name ∈ closures, name ∉ met) ∧ last.isPassedOn = false ∧ last.needsAllocator = false

private theorem isSpared_function {params : List Ty} {result : Ty} :
    IsSpared returns met (.function params result) ↔ IsSpared returns met result := by
  constructor
  · rintro ⟨closures, last, leads, distinct, unmet, plain, free⟩
    cases leads with
    | here => cases plain
    | result leads => exact ⟨closures, last, leads, distinct, unmet, plain, free⟩
  · rintro ⟨closures, last, leads, rest⟩
    exact ⟨closures, last, .result leads, rest⟩

private theorem isSpared_optional {inner : Ty} :
    IsSpared returns met (.optional inner) ↔ IsSpared returns met inner := by
  constructor
  · rintro ⟨closures, last, leads, distinct, unmet, plain, free⟩
    cases leads with
    | here => cases plain
    | inner leads => exact ⟨closures, last, leads, distinct, unmet, plain, free⟩
  · rintro ⟨closures, last, leads, rest⟩
    exact ⟨closures, last, .inner leads, rest⟩

private theorem isSpared_closure :
    IsSpared returns met (.closure name) ↔
      name ∉ met ∧ ∃ result, returns.get? name = some result ∧
        IsSpared returns (name :: met) result := by
  constructor
  · rintro ⟨closures, last, leads, distinct, unmet, plain, free⟩
    cases leads with
    | here => cases plain
    | closure found leads =>
        rw [List.nodup_cons] at distinct
        rw [List.forall_mem_cons] at unmet
        refine ⟨unmet.1, _, found, _, last, leads, distinct.2, ?_, plain, free⟩
        intro other later
        rw [List.mem_cons, not_or]
        exact ⟨fun same => distinct.1 (same ▸ later), unmet.2 other later⟩
  · rintro ⟨new, result, found, closures, last, leads, distinct, unmet, plain, free⟩
    refine ⟨name :: closures, last, .closure found leads, ?_, ?_, plain, free⟩
    · exact List.nodup_cons.mpr ⟨fun later => unmet name later List.mem_cons_self, distinct⟩
    · rw [List.forall_mem_cons]
      exact ⟨new, fun other later known => unmet other later (List.mem_cons_of_mem name known)⟩

private theorem isSpared_plain (plain : type.isPassedOn = false) :
    IsSpared returns met type ↔ type.needsAllocator = false := by
  constructor
  · rintro ⟨closures, last, leads, _, _, _, free⟩
    cases leads with
    | here => exact free
    | result | inner | closure => cases plain
  · intro free
    exact ⟨[], type, .here, List.nodup_nil, by simp, plain, free⟩

/-- The answer is no exactly if there is such a way. -/
theorem Answers.eq_false_iff {answer : Bool} (answers : Answers returns met type answer) :
    answer = false ↔ IsSpared returns met type := by
  induction answers with
  | result _ induction => rw [induction, isSpared_function]
  | inner _ induction => rw [induction, isSpared_optional]
  | again known => simp [isSpared_closure, known]
  | unregistered missing => simp [isSpared_closure, missing]
  | registered new found _ induction => simp [induction, isSpared_closure, new, found]
  | own plain => rw [isSpared_plain plain]

private theorem isSpared_of_needsAllocator (free : type.needsAllocator = false) :
    IsSpared returns met type := by
  induction type using Ty.residue.induct with
  | case1 params result induction => exact isSpared_function.mpr (induction free)
  | case2 inner induction => exact isSpared_optional.mpr (induction free)
  | case3 other notFunction notOptional =>
      have forms := other.residue_cases
      rw [Ty.residue.eq_3 other notFunction notOptional] at forms
      rcases forms with ⟨name, rfl⟩ | plain
      · cases free
      · exact (isSpared_plain plain).mpr free

/-- The question for an allocator has an answer in finitely many steps, whatever results are
registered. The answer is no exactly if the way from the type reaches, past registered
closures of which none is met twice, a type that is not passed on and needs no allocator. What
needs none by itself needs none in any environment. -/
theorem needsAllocator_follows_closures (env : Environment) (type : Ty) :
    Answers env.returns [] type (env.needsAllocator type) ∧
    (env.needsAllocator type = false ↔
      ∃ closures last, Leads env.returns closures type last ∧ closures.Nodup ∧
        last.isPassedOn = false ∧ last.needsAllocator = false) ∧
    (type.needsAllocator = false → env.needsAllocator type = false) := by
  have answers := env.answers_needsAllocator type
  refine ⟨answers, ?_, ?_⟩
  · rw [answers.eq_false_iff, IsSpared]
    simp
  · intro free
    exact answers.eq_false_iff.mpr (isSpared_of_needsAllocator free)

/-! A closure whose result leads to a number through another closure, and one whose results
lead back to it. -/

def handingOn : Environment where
  returns := Table.ofList [
    ("first", .optional (.closure "second")), ("second", .function [Ty.text] .int),
    ("there", .function [] (.closure "back")), ("back", .closure "there")]

theorem needsAllocator_follows_closures_handingOn :
    (Ty.closure "first").needsAllocator = true ∧
    handingOn.needsAllocator (.closure "first") = false ∧
    Answers handingOn.returns [] (.closure "there") true := by
  refine ⟨rfl, ?_, ?_⟩
  · apply (handingOn.needsAllocator_follows_closures (.closure "first")).2.1.mpr
    refine ⟨["first", "second"], .int, ?_, by decide, rfl, rfl⟩
    exact .closure rfl (.inner (.closure rfl (.result .here)))
  · have answered : handingOn.needsAllocator (.closure "there") = true := by decide
    exact answered ▸ (handingOn.needsAllocator_follows_closures (.closure "there")).1

end Environment

end NativeTyping
