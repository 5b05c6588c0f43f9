import NativeTyping.Proofs.BareCall
import NativeTyping.Proofs.MethodDispatch
/-!
What a loop gives, and the type of what it goes over.

Loops see through calls that only rearrange what they are given, and through the views of a dict.
The type of such a call is found on another way: through the rules for builtin functions, which
own the strings of the lists that they make, or through the methods of a dict. Both ways give the
same items up to their storage form, at any depth of such calls.
-/

namespace NativeTyping

def Expr.isCall : Expr → Bool
  | .call _ _ _ | .methodCall _ _ _ _ => true
  | _ => false

namespace Context

/-! ## Iterables -/

def relisting : List String :=
  ["reversed", "sorted", "iter"]

/-- Whether a name means what the library has under it: the program does not define the name, and
imports nothing under it. -/
def isLibraryName (context : Context) (name : String) : Bool :=
  !context.isTaken name && (context.env.imports.get? name).isNone

/-- Expressions made of calls that loops see through, and of others that are no calls of a name or
a method. A variable whose name is spelled with a dot can be taken for a member of a module, and
its views count only if it is not. -/
inductive Iterable (context : Context) : Expr → Prop
  | plain {expr : Expr} : expr.isCall = false → Iterable context expr
  | view {id method : String} {key content : Ty} {keywords : List (String × Expr)} :
      context.isBound id = true → context.lookupName id = .dict key content →
      method ∈ ["items", "keys", "values"] →
      ('.' ∈ id.toList → context.dottedCall? id method [] [] = none) →
      Iterable context (.methodCall (.name id) method [] keywords)
  | enumerate {first : Expr} {rest : List Expr} {keywords : List (String × Expr)} :
      Iterable context first → Iterable context (.call "enumerate" (first :: rest) keywords)
  | zip {args : List Expr} {keywords : List (String × Expr)} :
      (∀ arg ∈ args, Iterable context arg) → Iterable context (.call "zip" args keywords)
  | relist {function : String} {first : Expr} {rest : List Expr}
      {keywords : List (String × Expr)} : function ∈ relisting →
      Iterable context first → Iterable context (.call function (first :: rest) keywords)

/-! ## Calls of the library -/

variable {context : Context}

private theorem infer_builtin_call {name : String} {rule : ReturnRule}
    (isLibrary : context.isLibraryName name = true)
    (builtin : Library.builtinFunction? name = some rule) (noSuper : name ≠ "super")
    (noDict : name ≠ "dict") (args : List Expr) (keywords : List (String × Expr)) :
    context.infer (.call name args keywords) = rule.apply (args.map context.infer) args := by
  simp only [isLibraryName, isTaken, Bool.and_eq_true, Bool.not_eq_true', Bool.or_eq_false_iff,
    Option.isNone_iff_eq_none, Option.isSome_eq_false_iff] at isLibrary
  obtain ⟨⟨⟨unbound, noFunction⟩, noClass⟩, notImported⟩ := isLibrary
  have noImport : context.importedFunction? name = none := by
    rw [importedFunction?, notImported]
    rfl
  rw [infer_call_of_unresolved args keywords unbound noClass noFunction]
  simp [libraryCall, calledSuper?, noSuper, noImport, keywordDict?, noDict, builtin,
    Ty.orUnknown]

private theorem infer_enumerate (isLibrary : context.isLibraryName "enumerate" = true)
    (first : Expr) (rest : List Expr) (keywords : List (String × Expr)) :
    context.infer (.call "enumerate" (first :: rest) keywords) =
      .list (.tuple [.index, (context.infer first).iterElement]) :=
  infer_builtin_call isLibrary rfl (by decide) (by decide) (first :: rest) keywords

private theorem infer_zip (isLibrary : context.isLibraryName "zip" = true) (args : List Expr)
    (keywords : List (String × Expr)) :
    context.infer (.call "zip" args keywords) =
      .list (.tuple ((args.map context.infer).map Ty.iterElement)) :=
  infer_builtin_call isLibrary rfl (by decide) (by decide) args keywords

private theorem infer_relisting {function : String} (isHelper : function ∈ relisting)
    (isLibrary : context.isLibraryName function = true) (first : Expr) (rest : List Expr)
    (keywords : List (String × Expr)) :
    context.infer (.call function (first :: rest) keywords) =
      .list (context.infer first).iterElement.owned := by
  have builtin : ∀ function ∈ relisting, Library.builtinFunction? function = some .listOfElements ∧
      function ≠ "super" ∧ function ≠ "dict" := by decide
  obtain ⟨rule, noSuper, noDict⟩ := builtin function isHelper
  exact infer_builtin_call isLibrary rule noSuper noDict (first :: rest) keywords

/-! ## Items -/

private theorem iterationItem_of_plain {expr : Expr} (plain : expr.isCall = false) :
    context.iterationItem expr = (context.infer expr).iterElement := by
  cases expr with
  | call function args keywords => cases plain
  | methodCall receiver method args keywords => cases plain
  | comprehension kind element generators => cases kind <;> rfl
  | _ => rfl

private theorem isTaken_of_library {name : String} (isLibrary : context.isLibraryName name = true) :
    context.isTaken name = false := by
  rw [isLibraryName, Bool.and_eq_true, Bool.not_eq_true'] at isLibrary
  exact isLibrary.1

private theorem iterationItem_enumerate (isLibrary : context.isLibraryName "enumerate" = true)
    (first : Expr) (rest : List Expr) (keywords : List (String × Expr)) :
    context.iterationItem (.call "enumerate" (first :: rest) keywords) =
      .tuple [.index, context.iterationItem first] := by
  simp [iterationItem, Expr.read, callItem, isTaken_of_library isLibrary, Expr.readEach,
    Ty.orUnknown]

private theorem iterationItem_zip (isLibrary : context.isLibraryName "zip" = true)
    (args : List Expr) (keywords : List (String × Expr)) :
    context.iterationItem (.call "zip" args keywords) =
      .tuple (args.map context.iterationItem) := by
  rw [iterationItem, Expr.read]
  simp [callItem, isTaken_of_library isLibrary]

private theorem iterationItem_relisting {function : String} (isHelper : function ∈ relisting)
    (isLibrary : context.isLibraryName function = true) (first : Expr) (rest : List Expr)
    (keywords : List (String × Expr)) :
    context.iterationItem (.call function (first :: rest) keywords) =
      context.iterationItem first := by
  simp only [relisting, List.mem_cons, List.not_mem_nil, or_false] at isHelper
  rcases isHelper with rfl | rfl | rfl <;>
    simp [iterationItem, Expr.read, callItem, isTaken_of_library isLibrary, Expr.readEach]

private theorem exists_viewItems {method : String} (isView : method ∈ ["items", "keys", "values"])
    (key content : Ty) :
    ∃ items, Library.builtinMethod? (.dict key content) method [] = some (.list items) ∧
      ∀ value, methodItem (.dict key content) method [] value = items := by
  simp only [List.mem_cons, List.not_mem_nil, or_false] at isView
  rcases isView with rfl | rfl | rfl
  · exact ⟨.tuple [key, content], rfl, fun _ => rfl⟩
  · exact ⟨key, rfl, fun _ => rfl⟩
  · exact ⟨content, rfl, fun _ => rfl⟩

private theorem iterationItem_view {id method : String} {key content : Ty}
    (bound : context.isBound id = true) (isDict : context.lookupName id = .dict key content)
    (isView : method ∈ ["items", "keys", "values"])
    (undecided : '.' ∈ id.toList → context.dottedCall? id method [] [] = none)
    (keywords : List (String × Expr)) :
    context.iterationItem (.methodCall (.name id) method [] keywords) =
      (context.infer (.methodCall (.name id) method [] keywords)).iterElement := by
  obtain ⟨items, found, isItem⟩ := exists_viewItems isView key content
  have inferred : context.infer (.name id) = .dict key content := isDict
  have listed : context.infer (.methodCall (.name id) method [] keywords) = .list items := by
    apply infer_methodCall_of_undecided rfl
    · rintro dotted ⟨⟩
      by_cases isDotted : '.' ∈ id.toList
      · exact undecided isDotted
      · apply dottedCall?_of_bound
        rwa [Dotted.head_of_plain isDotted]
    · rw [inferred]
      exact found
  rw [listed, iterationItem, Expr.read]
  exact (congrArg (methodItem · method [] _) inferred).trans (isItem _)

/-! ## Agreement -/

/-- If the functions that loops see through are those of the library, a loop over an iterable gives
what the type of the iterable says, up to storage form. The induction is on how the iterable is
built: each of the calls keeps the items of its arguments. -/
theorem iterationItem_agrees (context : Context)
    (areLibrary : ∀ name ∈ ["enumerate", "zip", "reversed", "sorted", "iter"],
      context.isLibraryName name = true)
    {expr : Expr} (iterable : context.Iterable expr) :
    (context.iterationItem expr).owned = (context.infer expr).iterElement.owned := by
  induction iterable with
  | plain plain => rw [iterationItem_of_plain plain]
  | view bound isDict isView undecided =>
      rw [iterationItem_view bound isDict isView undecided]
  | @enumerate first rest keywords _ induction =>
      have isLibrary := areLibrary "enumerate" (by decide)
      rw [iterationItem_enumerate isLibrary, infer_enumerate isLibrary, Ty.iterElement]
      simp only [Ty.owned, Ty.ownedEach, induction]
  | @zip args keywords _ induction =>
      have isLibrary := areLibrary "zip" (by decide)
      rw [iterationItem_zip isLibrary, infer_zip isLibrary, Ty.iterElement]
      have each : args.map (Ty.owned ∘ context.iterationItem) =
          args.map (Ty.owned ∘ Ty.iterElement ∘ context.infer) := List.map_congr_left induction
      simp only [Ty.owned, Ty.ownedEach_eq_map, List.map_map, each]
  | @relist function first rest keywords isHelper _ induction =>
      have isLibrary := areLibrary function
        (List.mem_append_right ["enumerate", "zip"] isHelper)
      rw [iterationItem_relisting isHelper isLibrary, infer_relisting isHelper isLibrary,
        Ty.iterElement, induction, Ty.owned_owned]

/-! Prices and notes are dicts, and the name of the second is spelled with a dot. -/

def priced : Context where
  config := {}
  env := { globals := .ofList [("prices", .dict Ty.text .int), ("math.notes", .dict Ty.text .int)] }

theorem iterationItem_agrees_priced :
    let labels := Expr.list [.literal (.str "low"), .literal (.str "high")]
    let pairs := Expr.call "enumerate"
      [.call "zip" [.methodCall (.name "prices") "items" [] [], .call "sorted" [labels] []] []] []
    priced.Iterable pairs ∧
    priced.iterationItem pairs = .tuple [.index, .tuple [.tuple [Ty.text, .int], .str .literal]] ∧
    (priced.iterationItem pairs).owned = (priced.infer pairs).iterElement.owned := by
  intro labels pairs
  have view : priced.Iterable (.methodCall (.name "prices") "items" [] []) :=
    .view rfl rfl (by decide) (by decide)
  have sorted : priced.Iterable (.call "sorted" [labels] []) :=
    .relist (by decide) (.plain rfl)
  have iterable : priced.Iterable pairs := by
    refine .enumerate (.zip ?_)
    simp [view, sorted]
  exact ⟨iterable, by decide, priced.iterationItem_agrees (by decide) iterable⟩

/-- The views of a dict under a name with a dot are taken for calls into a module, and loops do
not take them for that. -/
theorem iterationItem_dotted :
    let items := Expr.methodCall (.name "math.notes") "items" [] []
    priced.isBound "math.notes" = true ∧ priced.lookupName "math.notes" = .dict Ty.text .int ∧
    (∀ name ∈ ["enumerate", "zip", "reversed", "sorted", "iter"],
      priced.isLibraryName name = true) ∧
    priced.iterationItem items = .tuple [Ty.text, .int] ∧
    priced.infer items = .unknown ∧
    (priced.iterationItem items).owned ≠ (priced.infer items).iterElement.owned := by
  decide

end Context

end NativeTyping
