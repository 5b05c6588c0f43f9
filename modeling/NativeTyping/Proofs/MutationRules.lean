import Mathlib.Data.List.Nodup
import NativeTyping.Mutation.Rule
/-!
What the rules for mutating methods can make of a receiver.

Every rule is for containers of one shape: it applies to no other receiver and keeps the
shape. No two rules for the same method are for the same shape, so at most one of them
applies to a call, and it does not matter in which order they are tried.
-/

namespace NativeTyping

/-- Whether a call can turn a receiver of one shape into a type of another: lists, sets
and dicts stay what they are, and a receiver of unknown type becomes one of them. -/
def Ty.Shape.refinesTo : Ty.Shape → Ty.Shape → Bool
  | .list, .list | .set, .set | .dict, .dict => true
  | .unknown, .list | .unknown, .set | .unknown, .dict => true
  | _, _ => false

namespace Mutation

/-! ## The shape that a rule is for -/

private def Rule.IsFor (shape : Ty.Shape) (rule : Rule) : Prop :=
  ∀ receiver args refined, rule.refine? receiver args = some refined →
    receiver.shape = shape ∧ refined.shape = shape

private def shapedRules : List (Ty.Shape × Rule) :=
  (List.replicate 8 Ty.Shape.list ++ List.replicate 8 Ty.Shape.set ++
    List.replicate 5 Ty.Shape.dict).zip rules

private theorem shapedRules_isFor : ∀ entry ∈ shapedRules, entry.2.IsFor entry.1 := by
  simp only [shapedRules, rules, List.replicate, List.cons_append, List.nil_append,
    List.zip_cons_cons, List.zip_nil_left, List.forall_mem_cons, List.not_mem_nil, false_imp_iff,
    implies_true, and_true]
  and_intros
  all_goals
    intro receiver args refined applied
    simp only [addToList, extendList, keepList, addToSet, extendSet, keepSet, extendDict,
      addToDict, keepDict] at applied
    split at applied <;> cases applied <;> exact ⟨rfl, rfl⟩

private theorem nodup_shapedRules :
    (shapedRules.map fun entry => (entry.1, entry.2.method)).Nodup := by
  decide +kernel

private theorem exists_shape {rule : Rule} (isRule : rule ∈ rules) :
    ∃ shape, (shape, rule) ∈ shapedRules ∧ Ty.Shape.unknown.refinesTo shape = true := by
  have paired : shapedRules.map Prod.snd = rules := rfl
  have containers : ∀ entry ∈ shapedRules, Ty.Shape.unknown.refinesTo entry.1 = true := by
    simp [shapedRules, rules, Ty.Shape.refinesTo]
  rw [← paired] at isRule
  rcases List.mem_map.mp isRule with ⟨⟨shape, _⟩, member, rfl⟩
  exact ⟨shape, member, containers _ member⟩

private theorem eq_of_applied {first second : Rule} (isFirst : first ∈ rules)
    (isSecond : second ∈ rules)
    (methods : first.method = second.method) {receiver left right : Ty} {args : List Ty}
    (byFirst : first.refine? receiver args = some left)
    (bySecond : second.refine? receiver args = some right) : first = second := by
  rcases exists_shape isFirst with ⟨firstShape, firstListed, _⟩
  rcases exists_shape isSecond with ⟨secondShape, secondListed, _⟩
  have firstApplies := (shapedRules_isFor _ firstListed receiver args left byFirst).1
  have secondApplies := (shapedRules_isFor _ secondListed receiver args right bySecond).1
  have shapes : firstShape = secondShape := firstApplies.symm.trans secondApplies
  have same := List.inj_on_of_nodup_map nodup_shapedRules firstListed secondListed
    (Prod.ext shapes methods)
  exact congrArg Prod.snd same

theorem refinesTo_of_applied {rule : Rule} (isRule : rule ∈ rules) {receiver refined : Ty}
    {args : List Ty} (applied : rule.refine? receiver args = some refined) :
    receiver.shape = refined.shape ∧ receiver.shape.refinesTo refined.shape = true := by
  rcases exists_shape isRule with ⟨shape, listed, container⟩
  rcases shapedRules_isFor _ listed receiver args refined applied with ⟨before, after⟩
  refine ⟨before.trans after.symm, ?_⟩
  rw [before, after]
  cases shape <;> first | rfl | cases container

theorem containerFor?_refinesTo {method : String} {args : List Ty} {container : Ty}
    (found : containerFor? method args = some container) :
    Ty.Shape.unknown.refinesTo container.shape = true := by
  unfold containerFor? at found
  dsimp only at found
  split at found
  case h_6 => split at found <;> exact Option.some.inj found ▸ rfl
  case h_7 => cases found
  all_goals exact Option.some.inj found ▸ rfl

theorem isArray_of_refinesTo {shape : Ty.Shape} {refined : Ty}
    (refines : shape.refinesTo refined.shape = true) : refined.isArray = false := by
  cases refined with
  | array element length => cases shape <;> cases refines
  | _ => rfl

/-! ## Some rules in any order -/

section Handlers

variable {handlers : List Rule} (listed : ∀ rule ∈ handlers, rule ∈ rules)
  {receiver : Ty} {method : String} {args : List Ty}

include listed

private theorem findSome?_eq_some_iff_applied {refined : Ty} :
    ((handlers.filter fun rule => rule.method = method).findSome? fun rule =>
        rule.refine? receiver args) = some refined ↔
      ∃ rule ∈ handlers, rule.method = method ∧ rule.refine? receiver args = some refined := by
  constructor
  · intro found
    rcases List.exists_of_findSome?_eq_some found with ⟨rule, member, applied⟩
    rcases List.mem_filter.mp member with ⟨isHandler, isMethod⟩
    exact ⟨rule, isHandler, of_decide_eq_true isMethod, applied⟩
  · rintro ⟨rule, isHandler, isMethod, applied⟩
    have member : rule ∈ handlers.filter fun rule => rule.method = method :=
      List.mem_filter.mpr ⟨isHandler, decide_eq_true isMethod⟩
    cases found : (handlers.filter fun rule => rule.method = method).findSome? fun rule =>
        rule.refine? receiver args with
    | none =>
        rw [List.findSome?_eq_none_iff.mp found rule member] at applied
        cases applied
    | some other =>
        rcases List.exists_of_findSome?_eq_some found with ⟨first, firstMember, firstApplied⟩
        rcases List.mem_filter.mp firstMember with ⟨firstHandler, firstMethod⟩
        -- The rule that is found first is the rule in question, as no other one applies.
        have same : first = rule := eq_of_applied (listed first firstHandler)
          (listed rule isHandler) ((of_decide_eq_true firstMethod).trans isMethod.symm)
          firstApplied applied
        rw [← firstApplied, same, applied]

/-- The answer is that of the one rule that applies, wherever it stands. Without one,
only a receiver of unknown type has an answer. -/
theorem refineBy?_eq_some_iff {refined : Ty} :
    refineBy? handlers receiver method args = some refined ↔
      (∃ rule ∈ handlers, rule.method = method ∧ rule.refine? receiver args = some refined) ∨
      (receiver = .unknown ∧ containerFor? method args = some refined) := by
  rw [refineBy?, Option.or_eq_some_iff, findSome?_eq_some_iff_applied listed]
  apply or_congr_right
  constructor
  · rintro ⟨_, made⟩
    split at made
    · rename_i isUnknown
      cases receiver <;> first | exact ⟨rfl, made⟩ | cases isUnknown
    · cases made
  · rintro ⟨rfl, made⟩
    refine ⟨?_, made⟩
    rw [List.findSome?_eq_none_iff]
    intro rule member
    by_contra applies
    rcases Option.ne_none_iff_exists'.mp applies with ⟨changed, applied⟩
    have isRule := listed rule (List.mem_of_mem_filter member)
    rcases refinesTo_of_applied isRule applied with ⟨shapes, refines⟩
    rw [← shapes] at refines
    cases refines

theorem refineBy?_refinesTo {refined : Ty}
    (answered : refineBy? handlers receiver method args = some refined) :
    receiver.shape.refinesTo refined.shape = true := by
  rcases (refineBy?_eq_some_iff listed).mp answered with ⟨rule, member, _, applied⟩ | ⟨rfl, made⟩
  · exact (refinesTo_of_applied (listed rule member) applied).2
  · exact containerFor?_refinesTo made

end Handlers

/-- The rules may be tried in any order. Whichever of them applies to a call decides it,
a list, set or dict stays one, a receiver of unknown type becomes one of them, and no
other receiver is refined. -/
theorem refineBy?_any_order (handlers : List Rule) (shuffled : handlers.Perm rules)
    (receiver : Ty) (method : String) (args : List Ty) :
    refineBy? handlers receiver method args = refine? receiver method args ∧
    (∀ rule ∈ handlers, rule.method = method → ∀ refined ∈ rule.refine? receiver args,
      refineBy? handlers receiver method args = some refined) ∧
    ∀ refined ∈ refineBy? handlers receiver method args,
      receiver.shape.refinesTo refined.shape = true := by
  have listed : ∀ rule ∈ handlers, rule ∈ rules := fun _ member => shuffled.mem_iff.mp member
  refine ⟨?_, ?_, fun refined answered => refineBy?_refinesTo listed answered⟩
  · apply Option.ext
    intro refined
    rw [refine?, refineBy?_eq_some_iff listed, refineBy?_eq_some_iff fun _ member => member]
    simp only [shuffled.mem_iff]
  · intro rule member isMethod refined applied
    exact (refineBy?_eq_some_iff listed).mpr (.inl ⟨rule, member, isMethod, applied⟩)

theorem refineBy?_any_order_reversed :
    rules.reverse.Perm rules ∧
    refineBy? rules.reverse (.set .int) "pop" [] = some (.set .int) ∧
    refineBy? rules.reverse (.set .int) "update" [.dict Ty.text .float] = some (.set Ty.text) ∧
    refineBy? rules.reverse (.array .int 2) "pop" [] = none := by
  have shuffled : rules.reverse.Perm rules := List.reverse_perm rules
  have popped := (refineBy?_any_order rules.reverse shuffled (.set .int) "pop" []).2.1
    (keepSet "pop") (by simp [rules]) rfl (.set .int) rfl
  have updated := (refineBy?_any_order rules.reverse shuffled (.set .int) "update"
    [.dict Ty.text .float]).2.1 (extendSet "update") (by simp [rules]) rfl (.set Ty.text) rfl
  have kept := (refineBy?_any_order rules.reverse shuffled (.array .int 2) "pop" []).1
  exact ⟨shuffled, popped, updated, kept.trans (by decide)⟩

end Mutation

end NativeTyping
