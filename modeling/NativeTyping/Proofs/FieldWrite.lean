import NativeTyping.Proofs.Hierarchy
import NativeTyping.Visit.Assignment
/-!
Writing a field of an instance and reading it back.

A write looks through the hierarchy of a class for the first class that has the field, and a
read looks for the first type of the field. Both walk in the same order. A write changes no
bases, and the class that it goes to is the first one with the field from then on. So what is
read back through the same class is what was written, whatever the hierarchy is.
-/

namespace NativeTyping

namespace Environment

def ownField? (env : Environment) (className field : String) : Option Ty :=
  (env.classes.get? className).bind fun info => info.fields.get? field

def NamesClasses (env : Environment) : Prop :=
  ∀ name info, env.classes.get? name = some info → info.name = name

private theorem namesClasses_of_empty {env : Environment} (empty : env.classes = ∅) :
    env.NamesClasses := by
  intro name info entry
  rw [empty] at entry
  cases entry

private theorem NamesClasses.registerClass {env : Environment} (named : env.NamesClasses)
    (info : ClassInfo) : (env.registerClass info).NamesClasses := by
  intro name found entry
  by_cases same : name = info.name
  · rw [same, Environment.registerClass, Table.get?_insert_self, Option.some_inj] at entry
    rw [← entry, same]
  · rw [Environment.registerClass, Table.get?_insert_of_ne _ same] at entry
    exact named name found entry

/-! ## The owner of a field -/

private theorem classField?_eq (env : Environment) (className field : String) :
    env.classField? className field =
      (visit env.classes [] [className]).1.findSome? fun name => env.ownField? name field := by
  rw [classField?, resolutionOrder_eq, findSome?_entries]
  rfl

private theorem fieldOwner_eq {env : Environment} (named : env.NamesClasses)
    (className field : String) :
    env.fieldOwner className field =
      ((visit env.classes [] [className]).1.find? fun name =>
        (env.ownField? name field).isSome).getD className := by
  have same : (fun name => (env.classes.get? name).any fun info => info.fields.contains field) =
      fun name => (env.ownField? name field).isSome := by
    funext name
    rw [ownField?]
    cases env.classes.get? name with
    | none => rfl
    | some info => rfl
  rw [fieldOwner, resolutionOrder_eq, List.find?_filterMap, same]
  cases found : (visit env.classes [] [className]).1.find? fun name =>
      (env.ownField? name field).isSome with
  | none => rfl
  | some name =>
      have has := List.find?_some found
      rw [ownField?] at has
      cases entry : env.classes.get? name with
      | none => simp [entry] at has
      | some info => simp [entry, named name info entry]

private theorem findSome?_passed {find : String → Option Ty} {earlier later : List String}
    {owner : String} {type : Ty} (passed : ∀ name ∈ earlier, find name = none)
    (found : find owner = some type) :
    (earlier ++ owner :: later).findSome? find = some type := by
  rw [List.findSome?_append, List.findSome?_eq_none_iff.mpr passed, Option.none_or,
    List.findSome?_cons, found]

/-- The owner of a field is registered and stands behind classes without the field, and a read
gives what the owner has on record. -/
theorem exists_fieldOwner {env : Environment} (named : env.NamesClasses) {className : String}
    (registered : env.isClass className = true) (field : String) :
    ∃ info earlier later,
      env.classes.get? (env.fieldOwner className field) = some info ∧
      (visit env.classes [] [className]).1 =
        earlier ++ env.fieldOwner className field :: later ∧
      (∀ name ∈ earlier, env.ownField? name field = none) ∧
      env.classField? className field = info.fields.get? field := by
  rw [classField?_eq, fieldOwner_eq named]
  cases found : (visit env.classes [] [className]).1.find? fun name =>
      (env.ownField? name field).isSome with
  | some owner =>
      obtain ⟨has, earlier, later, parted, without⟩ := List.find?_eq_some_iff_append.mp found
      have passed : ∀ name ∈ earlier, env.ownField? name field = none := by
        simpa using without
      obtain ⟨type, own⟩ := Option.isSome_iff_exists.mp has
      obtain ⟨info, entry, isField⟩ := Option.bind_eq_some_iff.mp own
      refine ⟨info, earlier, later, entry, parted, passed, ?_⟩
      rw [parted, findSome?_passed passed own, isField]
  | none =>
      have without : ∀ name ∈ (visit env.classes [] [className]).1,
          env.ownField? name field = none := by
        simpa using found
      have visited := subset_visit env.classes [] [className] List.mem_cons_self
      obtain ⟨earlier, later, parted⟩ := List.append_of_mem visited
      obtain ⟨info, entry⟩ := Option.isSome_iff_exists.mp registered
      have missing : info.fields.get? field = none := by
        have own := without className visited
        rwa [ownField?, entry] at own
      refine ⟨info, earlier, later, entry, parted, ?_, ?_⟩
      · intro name member
        apply without
        rw [parted]
        exact List.mem_append_left _ member
      · rw [List.findSome?_eq_none_iff.mpr without, missing]

/-! ## The write -/

private theorem ownField?_modifyClass (env : Environment) (owner : String)
    (change : ClassInfo → ClassInfo) (name field : String) :
    (env.modifyClass owner change).ownField? name field =
      (env.classes.get? name).bind fun info =>
        (if name = owner then change info else info).fields.get? field := by
  rw [ownField?, modifyClass, Table.get?_modify, Option.bind_map]
  rfl

/-- One field of one class holds a type now, and everything else is as before. -/
structure FieldWritten (before after : Environment) (owner field : String) (type : Ty) :
    Prop where
  registries : after = { before with classes := after.classes }
  keys : after.classes.keys = before.classes.keys
  elsewhere : ∀ name, name ≠ owner → after.classes.get? name = before.classes.get? name
  entry : ∃ old new, before.classes.get? owner = some old ∧
    after.classes.get? owner = some new ∧ new = { old with fields := new.fields } ∧
    new.fields.keys =
      (if field ∈ old.fields.keys then old.fields.keys else old.fields.keys ++ [field]) ∧
    ∀ other, new.fields.get? other = if other = field then some type else old.fields.get? other

private theorem fieldWritten_widenField {env : Environment} {owner : String} {info : ClassInfo}
    (entry : env.classes.get? owner = some info) (field : String) (type : Ty) :
    env.FieldWritten (env.modifyClass owner fun info => info.widenField field type) owner field
      (type.mergeInto (info.fields.get? field)) where
  registries := rfl
  keys := Table.keys_mapValues _ _
  elsewhere name different := by
    rw [modifyClass, Table.get?_modify]
    cases env.classes.get? name with
    | none => rfl
    | some info => rw [Option.map_some, if_neg different]
  entry := by
    refine ⟨info, info.widenField field type, entry, ?_, rfl, ?_, ?_⟩
    · rw [modifyClass, Table.get?_modify, entry, Option.map_some, if_pos rfl]
    · exact Table.keys_upsert _ _ _
    · exact fun other => Table.get?_upsert _ _ _ _

/-! ## Reading back -/

/-- After a write, a read through the same class finds what the owner of the field holds: the
classes before the owner do not have the field, and they are not changed. -/
theorem classField?_widenField {env : Environment} (named : env.NamesClasses) {className : String}
    (registered : env.isClass className = true) (field : String) (type : Ty) :
    (env.modifyClass (env.fieldOwner className field) fun info =>
        info.widenField field type).classField? className field =
      some (type.mergeInto (env.classField? className field)) := by
  obtain ⟨info, earlier, later, entry, parted, passed, current⟩ :=
    exists_fieldOwner named registered field
  have order : (visit (env.classes.modify (env.fieldOwner className field) fun info =>
      info.widenField field type) [] [className]).1 =
        earlier ++ env.fieldOwner className field :: later := by
    rw [← parted]
    apply visit_congr
    apply directBases_modify
    intro info
    rfl
  have before : env.fieldOwner className field ∉ earlier := by
    have distinct := nodup_visit env.classes [] [className] List.nodup_nil
    rw [parted, List.nodup_middle, List.nodup_cons] at distinct
    exact fun member => distinct.1 (List.mem_append_left _ member)
  rw [classField?_eq, current]
  refine (congrArg (List.findSome? _) order).trans (findSome?_passed ?_ ?_)
  · intro name member
    have different : name ≠ env.fieldOwner className field :=
      fun same => before (same ▸ member)
    rw [ownField?_modifyClass]
    simp only [if_neg different]
    exact passed name member
  · rw [ownField?_modifyClass, entry]
    simp [ClassInfo.widenField]

end Environment

/-- What is assigned to a field of an instance of a registered class is read back through that
class, merged with what was read before. The write goes to a single field of a single class. -/
theorem Setting.assign_attribute_readBack {setting : Setting} {env : Environment}
    (named : env.NamesClasses) {className : String} (registered : env.isClass className = true)
    {receiver : Expr} (isInstance : setting.infer env receiver = .object className)
    (attr : String) (type : Ty) :
    ∃ owner written,
      env.FieldWritten (setting.assign env (.place (.attribute receiver attr)) type) owner attr
        written ∧
      (setting.assign env (.place (.attribute receiver attr)) type).classField? className attr =
        some written ∧
      written = match env.classField? className attr with
        | some old => Ty.widen old type.owned
        | none => type.owned := by
  have assigned : setting.assign env (.place (.attribute receiver attr)) type =
      env.modifyClass (env.fieldOwner className attr) fun info =>
        info.widenField attr type.owned := by
    simp only [assign, Target.unpack, List.foldl_cons, List.foldl_nil, assignPlace, changeOwner,
      isInstance]
  obtain ⟨info, -, -, entry, -, -, current⟩ :=
    Environment.exists_fieldOwner named registered attr
  refine ⟨env.fieldOwner className attr, type.owned.mergeInto (env.classField? className attr),
    ?_, ?_, ?_⟩
  · rw [assigned, current]
    exact Environment.fieldWritten_widenField entry attr type.owned
  · rw [assigned]
    exact Environment.classField?_widenField named registered attr type.owned
  · cases env.classField? className attr with
    | none => rfl
    | some old => rfl

/-! A shelf has its store as a base on two ways, and the store has the shelf as a base. -/

def shelving : Environment :=
  ({ globals := .ofList [("shelf", .object "Shelf")] } : Environment)
    |>.registerClass { ClassInfo.ofName "Store" ["Shelf"] with
        fields := .ofList [("count", .int)] }
    |>.registerClass (.ofName "Rack" ["Store"])
    |>.registerClass (.ofName "Board" ["Missing", "Store"])
    |>.registerClass (.ofName "Shelf" ["Rack", "Board"])

theorem Setting.assign_attribute_readBack_shelving :
    shelving.NamesClasses ∧ shelving.isClass "Shelf" = true ∧
    Setting.infer { config := {} } shelving (.name "shelf") = .object "Shelf" ∧
    shelving.classField? "Shelf" "count" = some .int ∧
    ∃ owner written,
      shelving.FieldWritten (Setting.assign { config := {} } shelving
        (.place (.attribute (.name "shelf") "count")) .float) owner "count" written ∧
      (Setting.assign { config := {} } shelving
        (.place (.attribute (.name "shelf") "count")) .float).classField? "Shelf" "count" =
          some written ∧
      written = .float := by
  have named : shelving.NamesClasses :=
    ((((Environment.namesClasses_of_empty rfl).registerClass _).registerClass _).registerClass
      _).registerClass _
  have registered : shelving.isClass "Shelf" = true := by decide
  have isInstance : Setting.infer { config := {} } shelving (.name "shelf") = .object "Shelf" := by
    rfl
  have current : shelving.classField? "Shelf" "count" = some .int := by decide
  refine ⟨named, registered, isInstance, current, ?_⟩
  have holds := Setting.assign_attribute_readBack named registered isInstance "count" .float
  rw [current] at holds
  exact holds

end NativeTyping
