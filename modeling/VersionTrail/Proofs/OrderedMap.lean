/-
# Laws of ordered maps

A map is seen through its entries. A key has at most one value, so looking a
key up and finding its entry are the same; a write to a new key adds an entry
at the end, and any write gives its own key the new value and leaves the values
of all others alone. Of several writes to a key the first one gives it its place and
the last one its value, so a map can be written over another one entry by entry.
-/
import Mathlib.Data.List.Induction
import VersionTrail.OrderedMap

namespace VersionTrail.OrderedMap

universe u

variable {α : Type u}

attribute [local simp] put

/-- An entry is found under its own key, and hides no other key. -/
theorem lookup_cons_eq_ite (key k : String) (v : α) (es : List (String × α)) :
    ((k, v) :: es).lookup key = if k = key then some v else es.lookup key := by
  rw [List.lookup_cons]
  by_cases hk : k = key
  · rw [hk, beq_self_eq_true, if_pos rfl]
  · rw [beq_false_of_ne (Ne.symm hk), if_neg hk]

/-- As keys are distinct, a key has the value of any entry with it. -/
theorem get?_eq_some_iff {m : OrderedMap α} {key : String} {value : α} :
    m.get? key = some value ↔ (key, value) ∈ m.entries := by
  rw [get?, List.lookup_eq_some_iff]
  constructor
  · rintro ⟨front, back, hentries, -⟩
    rw [hentries]
    exact List.mem_append_cons_self
  · intro hmem
    obtain ⟨front, back, hentries⟩ := List.append_of_mem hmem
    have hnodup := m.nodup
    rw [hentries, List.map_append, List.map_cons] at hnodup
    have hdistinct := (List.nodup_append.mp hnodup).2.2
    refine ⟨front, back, hentries, fun e he => bne_iff_ne.mpr (Ne.symm ?_)⟩
    exact hdistinct e.1 (List.mem_map_of_mem he) key List.mem_cons_self

theorem get?_eq_none_iff {m : OrderedMap α} {key : String} :
    m.get? key = none ↔ key ∉ m.keys := by
  rw [get?, List.lookup_eq_none_iff, keys, List.mem_map, not_exists]
  refine forall_congr' fun e => ?_
  rw [bne_iff_ne, not_and, ne_comm]

theorem exists_get?_of_mem_keys {m : OrderedMap α} {key : String} (hmem : key ∈ m.keys) :
    ∃ value, m.get? key = some value := by
  cases hget : m.get? key with
  | some value => exact ⟨value, rfl⟩
  | none => exact absurd hmem (get?_eq_none_iff.mp hget)

theorem mem_keys_of_get? {m : OrderedMap α} {key : String} {value : α}
    (hget : m.get? key = some value) : key ∈ m.keys :=
  List.mem_map_of_mem (f := Prod.fst) (get?_eq_some_iff.mp hget)

@[simp]
theorem isSome_get?_iff {m : OrderedMap α} {key : String} :
    (m.get? key).isSome = true ↔ key ∈ m.keys := by
  constructor
  · intro hsome
    obtain ⟨value, hvalue⟩ := Option.isSome_iff_exists.mp hsome
    exact mem_keys_of_get? hvalue
  · intro hmem
    obtain ⟨value, hvalue⟩ := exists_get?_of_mem_keys hmem
    exact Option.isSome_iff_exists.mpr ⟨value, hvalue⟩

/-- The order of the entries has no part in the values. -/
theorem get?_of_perm {m n : OrderedMap α} (h : m.entries.Perm n.entries) (key : String) :
    n.get? key = m.get? key :=
  Option.ext fun value => by rw [get?_eq_some_iff, get?_eq_some_iff, h.mem_iff]

@[simp]
theorem contains_eq_true_iff {m : OrderedMap α} {key : String} :
    m.contains key = true ↔ key ∈ m.keys := by
  simp [contains]

/-- A write finds its own key changed and every other key as it was. -/
theorem lookup_put (key other : String) (value : α) (es : List (String × α)) :
    (put key value es).lookup other = if key = other then some value else es.lookup other := by
  induction es with
  | nil => exact lookup_cons_eq_ite other key value []
  | cons e rest ih =>
      obtain ⟨k, v⟩ := e
      by_cases hk : k = key
      · subst hk
        by_cases hother : k = other <;> simp [lookup_cons_eq_ite, hother]
      · by_cases hother : k = other
        · have hkey : ¬ key = other := fun heq => hk (hother.trans heq.symm)
          simp [hother, hkey, Ne.symm hkey]
        · simp [lookup_cons_eq_ite, hk, hother, ih]

/-- A write gives its key the new value and changes no other. -/
@[simp]
theorem get?_insert (m : OrderedMap α) (key other : String) (value : α) :
    (m.insert key value).get? other = if key = other then some value else m.get? other :=
  lookup_put key other value m.entries

/-- A present key keeps its place, and a new one is last. -/
@[simp]
theorem keys_insert (m : OrderedMap α) (key : String) (value : α) :
    (m.insert key value).keys = if key ∈ m.keys then m.keys else m.keys ++ [key] :=
  map_fst_put key value m.entries

theorem mem_keys_insert {m : OrderedMap α} {key other : String} (value : α) :
    other ∈ (m.insert key value).keys ↔ other ∈ m.keys ∨ other = key := by
  by_cases hkey : key ∈ m.keys
  · simpa [hkey] using fun heq => heq ▸ hkey
  · simp [hkey]

/-- An entry behind a write is the written one or was there before. -/
theorem mem_put {key : String} {value : α} {e : String × α} {es : List (String × α)}
    (hmem : e ∈ put key value es) : e = (key, value) ∨ e ∈ es := by
  induction es with
  | nil => exact Or.inl (by simpa using hmem)
  | cons first rest ih =>
      obtain ⟨k, v⟩ := first
      by_cases hk : k = key
      · rw [put, if_pos hk] at hmem
        rcases List.mem_cons.mp hmem with heq | hrest
        · exact Or.inl (by rw [heq, hk])
        · exact Or.inr (List.mem_cons_of_mem _ hrest)
      · rw [put, if_neg hk] at hmem
        rcases List.mem_cons.mp hmem with heq | hrest
        · exact Or.inr (by rw [heq]; exact List.mem_cons_self)
        · exact (ih hrest).imp_right (List.mem_cons_of_mem _)

/-- A new key gets its entry at the end. -/
theorem put_of_notMem {key : String} (value : α) {es : List (String × α)}
    (hkey : key ∉ es.map Prod.fst) : put key value es = es ++ [(key, value)] := by
  induction es with
  | nil => rfl
  | cons e rest ih =>
      obtain ⟨k, v⟩ := e
      rw [List.map_cons, List.mem_cons, not_or] at hkey
      rw [put, if_neg fun heq => hkey.1 heq.symm, ih hkey.2, List.cons_append]

theorem entries_insert_of_notMem {m : OrderedMap α} {key : String} (value : α)
    (hkey : key ∉ m.keys) : (m.insert key value).entries = m.entries ++ [(key, value)] :=
  put_of_notMem value hkey

theorem keys_insert_of_notMem {m : OrderedMap α} {key : String} (value : α)
    (hkey : key ∉ m.keys) : (m.insert key value).keys = m.keys ++ [key] := by
  simp [hkey]

theorem entries_insert_insert {m : OrderedMap α} {key key' : String} (hkey : key ∉ m.keys)
    (hkey' : key' ∉ m.keys) (hne : key ≠ key') (value value' : α) :
    ((m.insert key value).insert key' value').entries =
      m.entries ++ [(key, value), (key', value')] := by
  have hnew : key' ∉ (m.insert key value).keys := by
    rw [keys_insert_of_notMem value hkey]
    simp [hkey', hne.symm]
  rw [entries_insert_of_notMem value' hnew, entries_insert_of_notMem value hkey, List.append_assoc,
    List.singleton_append]

/-- Where keys are still to be written and all are distinct, the first one is new
and the others stay distinct from what is there. -/
theorem nodup_insert {m : OrderedMap α} {key : String} {later : List String}
    (hnodup : (m.keys ++ key :: later).Nodup) (value : α) :
    key ∉ m.keys ∧ ((m.insert key value).keys ++ later).Nodup := by
  have hkey : key ∉ m.keys := fun hmem =>
    (List.nodup_append.mp hnodup).2.2 _ hmem _ List.mem_cons_self rfl
  refine ⟨hkey, ?_⟩
  rwa [keys_insert_of_notMem value hkey, List.append_assoc]

section Writes

variable {key other : String} {es : List (String × α)}

/-- The second of two writes to a key counts. -/
@[simp]
theorem put_put_self (key : String) (value written : α) (es : List (String × α)) :
    put key written (put key value es) = put key written es := by
  induction es with
  | nil => simp
  | cons e rest ih =>
      obtain ⟨k, v⟩ := e
      by_cases hk : k = key
      · simp [hk]
      · simp [hk, ih]

/-- A write to a key that is present and one to another key can change places. -/
theorem put_put_comm (hkey : key ∈ es.map Prod.fst) (hne : key ≠ other) (value written : α) :
    put key value (put other written es) = put other written (put key value es) := by
  induction es with
  | nil => simp at hkey
  | cons e rest ih =>
      obtain ⟨k, v⟩ := e
      by_cases hk : k = key
      · subst hk
        simp [hne]
      · have hrest : key ∈ rest.map Prod.fst := by simpa [Ne.symm hk] using hkey
        by_cases hother : k = other
        · subst hother
          simp [hk]
        · simp [hk, hother, ih hrest]

@[simp]
theorem insert_insert_self (m : OrderedMap α) (key : String) (value written : α) :
    (m.insert key value).insert key written = m.insert key written :=
  ext_entries (put_put_self key value written m.entries)

theorem insert_insert_comm {m : OrderedMap α} (hkey : key ∈ m.keys) (hne : key ≠ other)
    (value written : α) :
    (m.insert other written).insert key value = (m.insert key value).insert other written :=
  ext_entries (put_put_comm hkey hne value written)

@[simp]
theorem insertAll_append (m : OrderedMap α) (es later : List (String × α)) :
    m.insertAll (es ++ later) = (m.insertAll es).insertAll later :=
  List.foldl_append

theorem ofList_append (es later : List (String × α)) :
    ofList (es ++ later) = (ofList es).insertAll later :=
  insertAll_append empty es later

@[simp]
theorem ofList_concat (es : List (String × α)) (e : String × α) :
    ofList (es ++ [e]) = (ofList es).insert e.1 e.2 :=
  ofList_append es [e]

/-- A write to a key that is present can be put off behind writes to other keys. -/
theorem insertAll_insert {m : OrderedMap α} (hkey : key ∈ m.keys) (hes : key ∉ es.map Prod.fst)
    (value : α) : (m.insert key value).insertAll es = (m.insertAll es).insert key value := by
  induction es generalizing m with
  | nil => rfl
  | cons e rest ih =>
      rw [List.map_cons, List.mem_cons, not_or] at hes
      have hpresent : key ∈ (m.insert e.1 e.2).keys := (mem_keys_insert e.2).mpr (Or.inl hkey)
      have hlate := ih hpresent hes.2
      rw [insert_insert_comm hkey hes.1] at hlate
      exact hlate

/-- What is written to one of several entries is written behind them as well. -/
theorem insertAll_put (m : OrderedMap α) (hnodup : (es.map Prod.fst).Nodup) (value : α) :
    m.insertAll (put key value es) = (m.insertAll es).insert key value := by
  induction es generalizing m with
  | nil => rfl
  | cons e rest ih =>
      obtain ⟨k, v⟩ := e
      rw [List.map_cons, List.nodup_cons] at hnodup
      by_cases hk : k = key
      · subst hk
        rw [put, if_pos rfl]
        -- The late write passes over the entries behind this one, and only it counts.
        have hpresent : k ∈ (m.insert k v).keys := (mem_keys_insert v).mpr (Or.inr rfl)
        have hlate := insertAll_insert hpresent hnodup.1 value
        rw [insert_insert_self] at hlate
        exact hlate
      · rw [put, if_neg hk]
        exact ih (m.insert k v) hnodup.2

/-- To write the map of some entries over another map is to write the entries. -/
@[simp]
theorem insertAll_entries_ofList (m : OrderedMap α) (es : List (String × α)) :
    m.insertAll (ofList es).entries = m.insertAll es := by
  induction es using List.reverseRecOn with
  | nil => rfl
  | append_singleton es e ih =>
      calc
        m.insertAll (ofList (es ++ [e])).entries
            = m.insertAll (put e.1 e.2 (ofList es).entries) := by
          rw [ofList_concat]
          rfl
        _ = (m.insertAll es).insert e.1 e.2 := by rw [insertAll_put m (ofList es).nodup, ih]
        _ = m.insertAll (es ++ [e]) := (insertAll_append m es [e]).symm

/-- The keys of a map stand in the order in which they occur first. -/
theorem keys_ofList (es : List (String × α)) : (ofList es).keys = (es.map Prod.fst).eraseDups := by
  induction es using List.reverseRecOn with
  | nil => rfl
  | append_singleton es e ih =>
      rw [List.map_append, List.eraseDups_append]
      by_cases hkey : e.1 ∈ es.map Prod.fst
      · simp [ih, List.removeAll, List.mem_eraseDups, hkey]
      · simp [ih, List.removeAll, List.mem_eraseDups, List.eraseDups_cons, hkey]

/-- The value of a key is the last one that is given for it. -/
theorem get?_ofList (es : List (String × α)) (key : String) :
    (ofList es).get? key = ((es.filter fun e => e.1 = key).getLast?).map Prod.snd := by
  induction es using List.reverseRecOn with
  | nil => rfl
  | append_singleton es e ih =>
      by_cases hkey : e.1 = key
      · simp [hkey]
      · simp [hkey, ih]

end Writes

/-- The first entries of a map. -/
def take (m : OrderedMap α) (n : Nat) : OrderedMap α :=
  ⟨m.entries.take n, m.nodup.sublist ((List.take_sublist n m.entries).map Prod.fst)⟩

theorem take_of_append {m : OrderedMap α} {front back : List (String × α)}
    (hentries : m.entries = front ++ back) : (m.take front.length).entries = front := by
  show m.entries.take front.length = front
  rw [hentries, List.take_left]

/-- Whether a map has one entry more than another one and is the same otherwise. -/
def Extends (key : String) (value : α) (m n : OrderedMap α) : Prop :=
  ∃ front back, m.entries = front ++ back ∧ n.entries = front ++ (key, value) :: back

theorem extends_insert {m : OrderedMap α} {key : String} (hkey : key ∉ m.keys) (value : α) :
    m.Extends key value (m.insert key value) :=
  ⟨m.entries, [], (List.append_nil _).symm, entries_insert_of_notMem value hkey⟩

namespace Extends

variable {m n : OrderedMap α} {key other : String} {value : α}

theorem get?_self (h : m.Extends key value n) : n.get? key = some value := by
  obtain ⟨front, back, -, hn⟩ := h
  rw [get?_eq_some_iff, hn]
  exact List.mem_append_cons_self

theorem get?_of_ne (h : m.Extends key value n) (hne : key ≠ other) :
    n.get? other = m.get? other := by
  obtain ⟨front, back, hm, hn⟩ := h
  rw [get?, get?, hm, hn]
  clear hm hn
  induction front with
  | nil =>
      rw [List.nil_append, List.nil_append, lookup_cons_eq_ite, if_neg hne]
  | cons e front ih =>
      obtain ⟨k, v⟩ := e
      rw [List.cons_append, List.cons_append, lookup_cons_eq_ite, lookup_cons_eq_ite, ih]

theorem find?_of_not {test : String → Bool} (h : m.Extends key value n)
    (htest : test key = false) : n.find? test = m.find? test := by
  obtain ⟨front, back, hm, hn⟩ := h
  rw [find?, find?, hm, hn, List.find?_append, List.find?_append,
    List.find?_cons_of_neg (by simp [htest])]

theorem filter_of_not {keep : String → α → Bool} (h : m.Extends key value n)
    (hkeep : keep key value = false) : n.filter keep = m.filter keep := by
  obtain ⟨front, back, hm, hn⟩ := h
  refine ext_entries ?_
  show n.entries.filter _ = m.entries.filter _
  rw [hm, hn, List.filter_append, List.filter_append,
    List.filter_cons_of_neg (by simp [hkeep])]

/-- A write to another key changes both maps alike. -/
theorem insert (h : m.Extends key value n) (hne : key ≠ other) (written : α) :
    (m.insert other written).Extends key value (n.insert other written) := by
  obtain ⟨front, back, hm, hn⟩ := h
  show ∃ front' back', put other written m.entries = front' ++ back' ∧
    put other written n.entries = front' ++ (key, value) :: back'
  rw [hm, hn]
  clear hm hn
  induction front with
  | nil => exact ⟨[], put other written back, rfl, if_neg hne⟩
  | cons e front ih =>
      obtain ⟨k, v⟩ := e
      rw [List.cons_append, List.cons_append, put, put]
      split
      · exact ⟨(k, written) :: front, back, rfl, rfl⟩
      · obtain ⟨front', back', hm, hn⟩ := ih
        exact ⟨(k, v) :: front', back', by rw [hm, List.cons_append],
          by rw [hn, List.cons_append]⟩

end Extends

end VersionTrail.OrderedMap
