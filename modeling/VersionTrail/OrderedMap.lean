/-
# Maps that remember the order of insertion

A map from texts to values is a list of entries whose keys are pairwise
distinct. Writing to a key that is present changes its value and keeps its
place; writing to a new key puts the entry at the end. Nothing here removes or
moves an entry, so the order of the keys is the order of their first insertion.
-/

namespace VersionTrail

universe u v

/-- Entries with pairwise distinct keys, in the order of first insertion. -/
structure OrderedMap (α : Type u) where
  /-- The entries in order. -/
  entries : List (String × α)
  /-- No key occurs twice. -/
  nodup : (entries.map Prod.fst).Nodup

namespace OrderedMap

variable {α : Type u} {β : Type v}

/-- Two maps with the same entries are equal. -/
@[ext]
theorem ext_entries {m n : OrderedMap α} (h : m.entries = n.entries) : m = n := by
  cases m; cases n; cases h; rfl

/-- The map without entries. -/
def empty : OrderedMap α :=
  ⟨[], List.nodup_nil⟩

instance : Inhabited (OrderedMap α) := ⟨empty⟩
instance : EmptyCollection (OrderedMap α) := ⟨empty⟩

instance [DecidableEq α] : DecidableEq (OrderedMap α) := fun m n =>
  decidable_of_iff (m.entries = n.entries) ⟨ext_entries, fun h => h ▸ rfl⟩

/-- The keys in order. -/
def keys (m : OrderedMap α) : List String :=
  m.entries.map Prod.fst

/-- The values in the order of their keys. -/
def values (m : OrderedMap α) : List α :=
  m.entries.map Prod.snd

/-- How many entries there are. -/
def size (m : OrderedMap α) : Nat :=
  m.entries.length

/-- Whether there is no entry. -/
def isEmpty (m : OrderedMap α) : Bool :=
  m.entries.isEmpty

/-- The value of a key. -/
def get? (m : OrderedMap α) (key : String) : Option α :=
  m.entries.lookup key

/-- Whether a key is present. -/
def contains (m : OrderedMap α) (key : String) : Bool :=
  m.keys.contains key

/-- Writes to the first entry with a key, or to a new entry at the end. -/
def put (key : String) (value : α) : List (String × α) → List (String × α)
  | [] => [(key, value)]
  | (k, v) :: rest => if k = key then (k, value) :: rest else (k, v) :: put key value rest

/-- The keys after a write: a present key keeps its place, a new one is last. -/
theorem map_fst_put (key : String) (value : α) (es : List (String × α)) :
    (put key value es).map Prod.fst =
      if key ∈ es.map Prod.fst then es.map Prod.fst else es.map Prod.fst ++ [key] := by
  induction es with
  | nil => simp [put]
  | cons e rest ih =>
    obtain ⟨k, v⟩ := e
    by_cases h : k = key
    · simp [put, h]
    · have h' : ¬ key = k := fun heq => h heq.symm
      by_cases hmem : key ∈ rest.map Prod.fst
      · simp only [put, if_neg h, List.map_cons, ih, if_pos hmem]
        rw [if_pos (List.mem_cons_of_mem _ hmem)]
      · simp only [put, if_neg h, List.map_cons, ih, if_neg hmem]
        rw [if_neg (by simp only [List.mem_cons, not_or]; exact ⟨h', hmem⟩)]
        rfl

/-- Writing keeps the keys distinct. -/
theorem nodup_put (key : String) (value : α) {es : List (String × α)}
    (h : (es.map Prod.fst).Nodup) : ((put key value es).map Prod.fst).Nodup := by
  rw [map_fst_put]
  split
  · exact h
  · rename_i hmem
    refine List.nodup_append.2 ⟨h, by simp, ?_⟩
    intro a ha b hb hab
    simp only [List.mem_singleton] at hb
    exact hmem (hb ▸ hab ▸ ha)

/-- Gives a key a value. -/
def insert (m : OrderedMap α) (key : String) (value : α) : OrderedMap α :=
  ⟨put key value m.entries, nodup_put key value m.nodup⟩

/-- Writes entries one after the other. -/
def insertAll (m : OrderedMap α) (es : List (String × α)) : OrderedMap α :=
  es.foldl (fun acc e => acc.insert e.1 e.2) m

/-- The map of a list of entries: a repeated key keeps its first place and
takes its last value. -/
def ofList (es : List (String × α)) : OrderedMap α :=
  empty.insertAll es

/-- The entries whose key and value pass a test, in order. -/
def filter (m : OrderedMap α) (keep : String → α → Bool) : OrderedMap α :=
  ⟨m.entries.filter fun e => keep e.1 e.2,
    (m.nodup.sublist ((List.filter_sublist (l := m.entries)).map Prod.fst))⟩

/-- The first entry whose key passes a test. -/
def find? (m : OrderedMap α) (test : String → Bool) : Option (String × α) :=
  m.entries.find? fun e => test e.1

end OrderedMap

end VersionTrail
