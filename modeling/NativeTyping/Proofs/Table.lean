import NativeTyping.Table
/-!
Laws of tables: which keys they hold and in which order, when two writes commute, what
changing all values does to a single entry, and how a property of all values is kept.
-/

namespace NativeTyping

namespace Table

variable {α β : Type}

/-! ## Keys -/

theorem contains_iff_mem_keys (table : Table α) (key : String) :
    table.contains key = true ↔ key ∈ table.keys := by
  rw [contains, get?, List.lookup_isSome_iff, keys, List.mem_map]
  constructor
  · rintro ⟨entry, member, equal⟩
    exact ⟨entry, member, (beq_iff_eq.mp equal).symm⟩
  · rintro ⟨entry, member, equal⟩
    exact ⟨entry, member, beq_iff_eq.mpr equal.symm⟩

theorem mem_keys_upsert (table : Table α) (key other : String) (update : Option α → α) :
    other ∈ (table.upsert key update).keys ↔ other ∈ table.keys ∨ other = key := by
  rw [keys_upsert]
  split
  · rename_i present
    constructor
    · exact Or.inl
    · rintro (member | rfl)
      · exact member
      · exact present
  · simp

/-! ## Reading after a write -/

theorem get?_upsert (table : Table α) (key other : String) (update : Option α → α) :
    (table.upsert key update).get? other =
      if other = key then some (update (table.get? key)) else table.get? other := by
  by_cases same : other = key
  · rw [same, if_pos rfl, get?_upsert_self]
  · rw [if_neg same, get?_upsert_of_ne table same]

theorem get?_foldl_insert {ι : Type} (key : ι → String) (value : ι → α) {name : String}
    {result : α} {items : List ι} {table : Table α}
    (agree : ∀ item ∈ items, key item = name → value item = result)
    (found : table.get? name = some result ∨ name ∈ items.map key) :
    (items.foldl (fun table item => table.insert (key item) (value item)) table).get? name =
      some result := by
  induction items generalizing table with
  | nil => exact found.resolve_right List.not_mem_nil
  | cons first rest induction =>
      rw [List.forall_mem_cons] at agree
      rw [List.map_cons, List.mem_cons] at found
      apply induction agree.2
      by_cases same : key first = name
      · have written : (table.insert (key first) (value first)).get? name = some result := by
          rw [agree.1 same, same, get?_insert_self]
        exact .inl written
      · have kept : (table.insert (key first) (value first)).get? name = table.get? name :=
          get?_insert_of_ne table (Ne.symm same) _
        rw [kept]
        exact found.imp_right fun later => later.resolve_left (Ne.symm same)

/-- After several writes, a key holds what the writes under it have made of it, in order. -/
theorem get?_foldl_upsert {ι : Type} (key : ι → String) (update : ι → Option α → α)
    (name : String) (items : List ι) (table : Table α) :
    (items.foldl (fun table item => table.upsert (key item) (update item)) table).get? name =
      (items.filter fun item => key item = name).foldl
        (fun present item => some (update item present)) (table.get? name) := by
  induction items generalizing table with
  | nil => rfl
  | cons first rest induction =>
      rw [List.foldl_cons, induction, get?_upsert]
      by_cases same : key first = name
      · simp [same]
      · simp [same, Ne.symm same]

/-! ## Writes to different keys -/

private theorem upsertEntries_comm {key other : String} (different : key ≠ other)
    (update change : Option α → α) {entries : List (String × α)}
    (present : key ∈ entries.map Prod.fst) :
    upsertEntries other change (upsertEntries key update entries) =
      upsertEntries key update (upsertEntries other change entries) := by
  induction entries with
  | nil => simp at present
  | cons entry rest induction =>
      rcases entry with ⟨name, value⟩
      by_cases isKey : name = key
      · simp [upsertEntries, isKey, different]
      · have later : key ∈ rest.map Prod.fst := by
          simpa [Ne.symm isKey] using present
        by_cases isOther : name = other
        · simp [upsertEntries, isOther, Ne.symm different]
        · simp [upsertEntries, isKey, isOther, induction later]

/-- A write under one key and a write under another that is present commute: neither
moves the entry of the other. -/
theorem upsert_comm (table : Table α) {key other : String} (different : key ≠ other)
    (present : key ∈ table.keys) (update change : Option α → α) :
    (table.upsert key update).upsert other change =
      (table.upsert other change).upsert key update :=
  Table.ext (upsertEntries_comm different update change present)

/-! ## Writes to new keys -/

private theorem upsertEntries_of_new {key : String} (update : Option α → α)
    {entries : List (String × α)} (new : key ∉ entries.map Prod.fst) :
    upsertEntries key update entries = entries ++ [(key, update none)] := by
  induction entries with
  | nil => rfl
  | cons entry rest induction =>
      rcases entry with ⟨name, value⟩
      rw [List.map_cons, List.mem_cons, not_or] at new
      rw [upsertEntries, if_neg (Ne.symm new.1), induction new.2, List.cons_append]

private theorem entries_foldl_insert {entries : List (String × α)} {table : Table α}
    (distinct : (entries.map Prod.fst).Nodup)
    (new : ∀ key ∈ entries.map Prod.fst, key ∉ table.keys) :
    (entries.foldl (fun table entry => table.insert entry.1 entry.2) table).entries =
      table.entries ++ entries := by
  induction entries generalizing table with
  | nil => simp
  | cons entry rest induction =>
      rcases entry with ⟨name, value⟩
      rw [List.map_cons, List.nodup_cons] at distinct
      rw [List.map_cons, List.forall_mem_cons] at new
      have added : (table.insert name value).entries = table.entries ++ [(name, value)] :=
        upsertEntries_of_new _ new.1
      have restNew : ∀ key ∈ rest.map Prod.fst, key ∉ (table.insert name value).keys := by
        intro key member present
        rcases (table.mem_keys_upsert name key _).mp present with known | rfl
        · exact new.2 key member known
        · exact distinct.1 member
      rw [List.foldl_cons, induction distinct.2 restNew, added, List.append_assoc,
        List.singleton_append]

theorem ofList_entries (table : Table α) : ofList table.entries = table :=
  Table.ext ((entries_foldl_insert table.distinct (by simp)).trans (List.nil_append _))

/-! ## Changing values in place -/

private theorem get?_mapValues (table : Table α) (transform : String → α → β) (key : String) :
    (table.mapValues transform).get? key = (table.get? key).map (transform key) := by
  simp only [get?, mapValues]
  induction table.entries with
  | nil => rfl
  | cons entry rest induction =>
      rcases entry with ⟨name, value⟩
      by_cases same : key = name
      · simp [same]
      · have miss : (key == name) = false := beq_eq_false_iff_ne.mpr same
        simpa only [List.map_cons, List.lookup_cons, miss] using induction

theorem get?_modify (table : Table α) (key other : String) (transform : α → α) :
    (table.modify key transform).get? other =
      (table.get? other).map fun value => if other = key then transform value else value :=
  table.get?_mapValues _ other

theorem exists_get?_of_keys_eq {before : Table α} {after : Table β} {key : String} {old : α}
    (sameKeys : after.keys = before.keys) (found : before.get? key = some old) :
    ∃ new, after.get? key = some new := by
  have member : key ∈ before.keys := by
    rw [← contains_iff_mem_keys, contains, found]
    rfl
  rw [← sameKeys, ← contains_iff_mem_keys, contains, Option.isSome_iff_exists] at member
  exact member

/-- Two tables have the same keys in the same order, and related values under each
of them. -/
structure Pointwise (relation : String → α → β → Prop) (before : Table α) (after : Table β) :
    Prop where
  keys : after.keys = before.keys
  values : ∀ {key : String} {old : α} {new : β}, before.get? key = some old →
    after.get? key = some new → relation key old new

namespace Pointwise

theorem exists_old {relation : String → α → β → Prop} {before : Table α} {after : Table β}
    (pointwise : Pointwise relation before after) {key : String} {new : β}
    (found : after.get? key = some new) :
    ∃ old, before.get? key = some old ∧ relation key old new := by
  rcases exists_get?_of_keys_eq pointwise.keys.symm found with ⟨old, known⟩
  exact ⟨old, known, pointwise.values known found⟩

theorem refl {relation : String → α → α → Prop} (holds : ∀ key value, relation key value value)
    (table : Table α) : Pointwise relation table table where
  keys := rfl
  values {key old new} found again := by
    cases found.symm.trans again
    exact holds key old

theorem mapValues {relation : String → α → β → Prop} {transform : String → α → β}
    (holds : ∀ key value, relation key value (transform key value)) (table : Table α) :
    Pointwise relation table (table.mapValues transform) where
  keys := table.keys_mapValues transform
  values {key old new} found again := by
    rw [get?_mapValues, found] at again
    cases again
    exact holds key old

theorem trans {γ : Type} {first : String → α → β → Prop} {second : String → β → γ → Prop}
    {both : String → α → γ → Prop}
    (compose : ∀ {key old middle new}, first key old middle → second key middle new →
      both key old new)
    {before : Table α} {between : Table β} {after : Table γ}
    (left : Pointwise first before between) (right : Pointwise second between after) :
    Pointwise both before after where
  keys := right.keys.trans left.keys
  values found again := by
    rcases exists_get?_of_keys_eq left.keys found with ⟨middle, passed⟩
    exact compose (left.values found passed) (right.values passed again)

end Pointwise

/-! ## Removing an entry -/

private theorem lookup_filter_ne (key other : String) (entries : List (String × α)) :
    (entries.filter fun entry => entry.1 ≠ key).lookup other =
      if other = key then none else entries.lookup other := by
  induction entries with
  | nil => simp
  | cons entry rest induction =>
      rcases entry with ⟨name, value⟩
      by_cases removed : name = key
      · subst removed
        rw [List.filter_cons_of_neg (by simp), induction]
        by_cases same : other = name
        · rw [if_pos same, if_pos same]
        · rw [if_neg same, if_neg same, List.lookup_cons, beq_eq_false_iff_ne.mpr same]
      · rw [List.filter_cons_of_pos (by simpa using removed), List.lookup_cons, List.lookup_cons,
          induction]
        by_cases same : other = name
        · subst same
          simp [removed]
        · simp [beq_eq_false_iff_ne.mpr same]

theorem get?_erase (table : Table α) (key other : String) :
    (table.erase key).get? other = if other = key then none else table.get? other :=
  lookup_filter_ne key other table.entries

theorem size_erase_lt {table : Table α} {key : String} {value : α}
    (found : table.get? key = some value) : (table.erase key).size < table.size := by
  rcases List.lookup_eq_some_iff.mp found with ⟨before, after, split, _⟩
  have present : (key, value) ∈ table.entries := by
    rw [split]
    simp
  exact List.length_filter_lt_length_iff_exists.mpr ⟨(key, value), present, by simp⟩

/-! ## Properties of all values -/

def All (holds : α → Prop) (table : Table α) : Prop :=
  ∀ value ∈ table.values, holds value

private theorem mem_values_of_get? {table : Table α} {key : String} {value : α}
    (found : table.get? key = some value) : value ∈ table.values := by
  rcases List.lookup_eq_some_iff.mp found with ⟨before, after, split, _⟩
  rw [values, split]
  simp

private theorem mem_values_upsertEntries {key : String} {update : Option α → α}
    {entries : List (String × α)} {value : α}
    (member : value ∈ (upsertEntries key update entries).map Prod.snd) :
    value ∈ entries.map Prod.snd ∨ value = update none ∨
      ∃ old ∈ entries.map Prod.snd, value = update (some old) := by
  induction entries with
  | nil => exact .inr (.inl (by simpa [upsertEntries] using member))
  | cons entry rest induction =>
      rcases entry with ⟨name, present⟩
      rw [upsertEntries] at member
      split at member
      · rcases List.mem_cons.mp member with changed | kept
        · exact .inr (.inr ⟨present, List.mem_cons_self, changed⟩)
        · exact .inl (List.mem_cons_of_mem present kept)
      · rcases List.mem_cons.mp member with kept | later
        · exact .inl (kept ▸ List.mem_cons_self)
        · rcases induction later with kept | added | ⟨old, known, changed⟩
          · exact .inl (List.mem_cons_of_mem present kept)
          · exact .inr (.inl added)
          · exact .inr (.inr ⟨old, List.mem_cons_of_mem present known, changed⟩)

namespace All

variable {holds : α → Prop} {table : Table α}

theorem empty : All holds (∅ : Table α) := by
  intro value member
  cases member

theorem getD_empty {present : Option (Table α)} (all : ∀ table ∈ present, All holds table) :
    All holds (present.getD ∅) := by
  cases present with
  | none => exact empty
  | some table => exact all table rfl

theorem get? (all : All holds table) (key : String) : ∀ value ∈ table.get? key, holds value :=
  fun value found => all value (mem_values_of_get? found)

theorem imp {weaker : α → Prop} (all : All holds table)
    (weaken : ∀ value, holds value → weaker value) : All weaker table :=
  fun value member => weaken value (all value member)

theorem upsert (all : All holds table) (key : String) {update : Option α → α}
    (step : ∀ present, (∀ old ∈ present, holds old) → holds (update present)) :
    All holds (table.upsert key update) := by
  intro value member
  rcases mem_values_upsertEntries member with kept | rfl | ⟨old, known, rfl⟩
  · exact all value kept
  · exact step none (by simp)
  · exact step (some old) (by simpa using all old known)

theorem insert (all : All holds table) (key : String) {value : α} (added : holds value) :
    All holds (table.insert key value) :=
  all.upsert key fun _ _ => added

theorem mapValues {changed : β → Prop} {transform : String → α → β} (all : All holds table)
    (step : ∀ key value, holds value → changed (transform key value)) :
    All changed (table.mapValues transform) := by
  intro value member
  simp only [values, Table.mapValues, List.map_map, List.mem_map, Function.comp_def] at member
  rcases member with ⟨entry, known, rfl⟩
  exact step entry.1 entry.2 (all entry.2 (List.mem_map_of_mem known))

theorem modify {transform : α → α} (all : All holds table) (key : String)
    (step : ∀ value, holds value → holds (transform value)) :
    All holds (table.modify key transform) := by
  refine All.mapValues all ?_
  intro name value known
  split
  · exact step value known
  · exact known

theorem mapValues_eq_self {transform : String → α → α}
    (all : All (fun value => ∀ key, transform key value = value) table) :
    table.mapValues transform = table := by
  have same : ∀ entry ∈ table.entries, (entry.1, transform entry.1 entry.2) = id entry := by
    intro entry member
    rw [all entry.2 (List.mem_map_of_mem member) entry.1]
    rfl
  apply Table.ext
  exact (List.map_congr_left same).trans (List.map_id table.entries)

theorem modify_eq_self {transform : α → α}
    (all : All (fun value => transform value = value) table) (key : String) :
    table.modify key transform = table := by
  apply mapValues_eq_self
  intro value member name
  rw [all value member, ite_self]

theorem erase (all : All holds table) (key : String) : All holds (table.erase key) := by
  intro value member
  rcases List.mem_map.mp member with ⟨entry, kept, rfl⟩
  exact all entry.2 (List.mem_map_of_mem (List.mem_filter.mp kept).1)

end All

end Table

/-! ## Keys in order -/

namespace NameSet

private theorem ext {left right : NameSet} (same : left.names = right.names) : left = right := by
  cases left
  cases right
  simpa using same

private theorem names_insert (set : NameSet) (name : String) :
    (set.insert name).names =
      if name ∈ set.names then set.names else set.names ++ [name] := by
  unfold insert
  split <;> rfl

theorem insertMany_append (set : NameSet) (first second : List String) :
    set.insertMany (first ++ second) = (set.insertMany first).insertMany second :=
  List.foldl_append

end NameSet

namespace Table

variable {α : Type}

def keySet (table : Table α) : NameSet where
  names := table.keys
  distinct := table.distinct

theorem keySet_insert (table : Table α) (key : String) (value : α) :
    (table.insert key value).keySet = table.keySet.insert key := by
  apply NameSet.ext
  rw [NameSet.names_insert]
  exact table.keys_upsert key _

end Table

end NativeTyping
