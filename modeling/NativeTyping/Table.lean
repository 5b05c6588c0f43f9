/-!
Tables keyed by name, in insertion order.

Everything that is learned about a compilation unit is kept in tables of this
kind. Writing to a key that is already present keeps its position, so the order
of a table is the order in which its keys were first written. The keys are
distinct by construction.
-/

namespace NativeTyping

structure Table (α : Type) where
  entries : List (String × α)
  distinct : (entries.map Prod.fst).Nodup
  deriving DecidableEq

namespace Table

variable {α β : Type}

def empty : Table α where
  entries := []
  distinct := List.nodup_nil

instance : EmptyCollection (Table α) := ⟨empty⟩

instance : Inhabited (Table α) := ⟨empty⟩

/-! ## Views -/

def keys (table : Table α) : List String :=
  table.entries.map Prod.fst

def values (table : Table α) : List α :=
  table.entries.map Prod.snd

def size (table : Table α) : Nat :=
  table.entries.length

def get? (table : Table α) (key : String) : Option α :=
  table.entries.lookup key

def contains (table : Table α) (key : String) : Bool :=
  (table.get? key).isSome

@[ext] theorem ext {left right : Table α} (equal : left.entries = right.entries) :
    left = right := by
  cases left
  cases right
  simpa using equal

/-! ## Writing

A write is described by what it makes of the present value, if there is one.
-/

/-- Replaces the value under `key` in place, or appends a new entry. -/
def upsertEntries (key : String) (update : Option α → α) :
    List (String × α) → List (String × α)
  | [] => [(key, update none)]
  | (name, value) :: rest =>
      if name = key then (name, update (some value)) :: rest
      else (name, value) :: upsertEntries key update rest

theorem map_fst_upsertEntries (key : String) (update : Option α → α)
    (entries : List (String × α)) :
    (upsertEntries key update entries).map Prod.fst =
      if key ∈ entries.map Prod.fst then entries.map Prod.fst
      else entries.map Prod.fst ++ [key] := by
  induction entries with
  | nil => simp [upsertEntries]
  | cons entry rest induction =>
      obtain ⟨name, value⟩ := entry
      by_cases same : name = key
      · simp [upsertEntries, same]
      · have other : key ≠ name := fun equal => same equal.symm
        by_cases member : key ∈ rest.map Prod.fst
        · simp only [upsertEntries, if_neg same, List.map_cons, induction, if_pos member,
            if_pos (List.mem_cons_of_mem name member)]
        · have missing : key ∉ name :: rest.map Prod.fst := by
            simp only [List.mem_cons, not_or]
            exact ⟨other, member⟩
          simp only [upsertEntries, if_neg same, List.map_cons, induction, if_neg member,
            if_neg missing, List.cons_append]

theorem nodup_map_fst_upsertEntries (key : String) (update : Option α → α)
    {entries : List (String × α)} (distinct : (entries.map Prod.fst).Nodup) :
    ((upsertEntries key update entries).map Prod.fst).Nodup := by
  rw [map_fst_upsertEntries]
  split
  · exact distinct
  · rename_i missing
    refine List.nodup_append.mpr ⟨distinct, by simp, ?_⟩
    intro present presentMember added addedMember equal
    rw [List.mem_singleton.mp addedMember] at equal
    exact missing (equal ▸ presentMember)

def upsert (table : Table α) (key : String) (update : Option α → α) : Table α where
  entries := upsertEntries key update table.entries
  distinct := nodup_map_fst_upsertEntries key update table.distinct

def insert (table : Table α) (key : String) (value : α) : Table α :=
  table.upsert key fun _ => value

def ofList (entries : List (String × α)) : Table α :=
  entries.foldl (fun table entry => table.insert entry.1 entry.2) empty

def mapValues (table : Table α) (transform : String → α → β) : Table β where
  entries := table.entries.map fun entry => (entry.1, transform entry.1 entry.2)
  distinct := by
    simpa [List.map_map, Function.comp_def] using table.distinct

def modify (table : Table α) (key : String) (transform : α → α) : Table α :=
  table.mapValues fun name value => if name = key then transform value else value

def erase (table : Table α) (key : String) : Table α where
  entries := table.entries.filter fun entry => entry.1 ≠ key
  distinct := table.distinct.sublist (List.filter_sublist.map Prod.fst)

/-! ## What a write does to the views -/

theorem lookup_upsertEntries_self (key : String) (update : Option α → α)
    (entries : List (String × α)) :
    (upsertEntries key update entries).lookup key = some (update (entries.lookup key)) := by
  induction entries with
  | nil => simp [upsertEntries]
  | cons entry rest induction =>
      obtain ⟨name, value⟩ := entry
      by_cases same : name = key
      · simp [upsertEntries, same]
      · have other : (key == name) = false :=
          beq_eq_false_iff_ne.mpr (fun equal => same equal.symm)
        simp [upsertEntries, same, List.lookup_cons, other, induction]

theorem lookup_upsertEntries_of_ne {key other : String} (different : other ≠ key)
    (update : Option α → α) (entries : List (String × α)) :
    (upsertEntries key update entries).lookup other = entries.lookup other := by
  have miss : (other == key) = false := beq_eq_false_iff_ne.mpr different
  induction entries with
  | nil => simp [upsertEntries, List.lookup_cons, miss]
  | cons entry rest induction =>
      obtain ⟨name, value⟩ := entry
      by_cases same : name = key
      · simp [upsertEntries, same, List.lookup_cons, miss]
      · simp [upsertEntries, same, List.lookup_cons, induction]

@[simp] theorem get?_empty (key : String) : (empty : Table α).get? key = none := rfl

@[simp] theorem keys_empty : (empty : Table α).keys = [] := rfl

@[simp] theorem get?_upsert_self (table : Table α) (key : String) (update : Option α → α) :
    (table.upsert key update).get? key = some (update (table.get? key)) :=
  lookup_upsertEntries_self key update table.entries

theorem get?_upsert_of_ne (table : Table α) {key other : String} (different : other ≠ key)
    (update : Option α → α) : (table.upsert key update).get? other = table.get? other :=
  lookup_upsertEntries_of_ne different update table.entries

theorem keys_upsert (table : Table α) (key : String) (update : Option α → α) :
    (table.upsert key update).keys =
      if key ∈ table.keys then table.keys else table.keys ++ [key] :=
  map_fst_upsertEntries key update table.entries

@[simp] theorem get?_insert_self (table : Table α) (key : String) (value : α) :
    (table.insert key value).get? key = some value :=
  get?_upsert_self table key _

theorem get?_insert_of_ne (table : Table α) {key other : String} (different : other ≠ key)
    (value : α) : (table.insert key value).get? other = table.get? other :=
  get?_upsert_of_ne table different _

@[simp] theorem keys_mapValues (table : Table α) (transform : String → α → β) :
    (table.mapValues transform).keys = table.keys := by
  simp [keys, mapValues, List.map_map, Function.comp_def]

end Table

/-! ## Sets of names

A set of names remembers the order in which its members were first added.
-/

structure NameSet where
  names : List String
  distinct : names.Nodup
  deriving DecidableEq

namespace NameSet

def empty : NameSet where
  names := []
  distinct := List.nodup_nil

instance : EmptyCollection NameSet := ⟨empty⟩

instance : Inhabited NameSet := ⟨empty⟩

def contains (set : NameSet) (name : String) : Bool :=
  set.names.contains name

def isEmpty (set : NameSet) : Bool :=
  set.names.isEmpty

def insert (set : NameSet) (name : String) : NameSet :=
  if member : name ∈ set.names then set
  else {
    names := set.names ++ [name]
    distinct := by
      refine List.nodup_append.mpr ⟨set.distinct, by simp, ?_⟩
      intro present presentMember added addedMember equal
      rw [List.mem_singleton.mp addedMember] at equal
      exact member (equal ▸ presentMember) }

def insertMany (set : NameSet) (names : List String) : NameSet :=
  names.foldl insert set

/-- The members of a list, each at the place of its first occurrence. -/
def ofList (names : List String) : NameSet :=
  empty.insertMany names

@[simp] theorem mem_names_insert (set : NameSet) (name other : String) :
    other ∈ (set.insert name).names ↔ other ∈ set.names ∨ other = name := by
  unfold insert
  split
  · rename_i member
    constructor
    · exact Or.inl
    · rintro (present | equal)
      · exact present
      · exact equal ▸ member
  · simp

@[simp] theorem mem_names_insertMany (set : NameSet) (names : List String) (other : String) :
    other ∈ (set.insertMany names).names ↔ other ∈ set.names ∨ other ∈ names := by
  unfold insertMany
  induction names generalizing set with
  | nil => simp
  | cons name rest induction => simp [induction, or_assoc]

@[simp] theorem mem_names_ofList (names : List String) (other : String) :
    other ∈ (ofList names).names ↔ other ∈ names := by
  simp [ofList, empty]

end NameSet

end NativeTyping
