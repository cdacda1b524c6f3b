/-!
# Tables keyed by text

Normative source: SPEC_FULL.md, section 3, for the maps of the cache:

    `blocks: map[BlockNumber]Block` (write-once per key)

A table is a map with text keys that remembers the order in which the keys came.  `alter` is the one
way to change a value; storing (`insert`), storing once (`insertNew`) and collecting are instances.
Every lemma about look-ups and keys after a change follows from those about `alter`.
-/

set_option autoImplicit false

namespace BlockWatch

/-- Values under text keys, in the order in which the keys came. -/
structure Table (α : Type) where
  /-- the keys with their values -/
  entries : List (String × α) := []
  deriving DecidableEq, Repr, Inhabited

namespace Table

variable {α : Type}

/-- The value under a key. -/
def find? (table : Table α) (key : String) : Option α := table.entries.lookup key

/-- Whether there is a value under a key. -/
def contains (table : Table α) (key : String) : Bool := (table.find? key).isSome

/-- The keys, in the order in which they came. -/
def keys (table : Table α) : List String := table.entries.map (·.1)

/-- The values, in the order in which their keys came. -/
def values (table : Table α) : List α := table.entries.map (·.2)

/-- Give `key` the value that `f` makes of its present one; a new key comes last. -/
def alterEntries (key : String) (f : Option α → α) : List (String × α) → List (String × α)
  | [] => [(key, f none)]
  | (other, value) :: rest =>
      if key = other then (other, f (some value)) :: rest
      else (other, value) :: alterEntries key f rest

/-- Give `key` the value that `f` makes of its present one. -/
def alter (table : Table α) (key : String) (f : Option α → α) : Table α :=
  ⟨alterEntries key f table.entries⟩

/-- Store a value; one that is there already is replaced. -/
def insert (table : Table α) (key : String) (value : α) : Table α :=
  table.alter key fun _ => value

/-- Store a value unless there is one already: the first value under a key stays. -/
def insertNew (table : Table α) (key : String) (value : α) : Table α :=
  table.alter key fun present => present.getD value

/-- Take a key and what is under it away. -/
def erase (table : Table α) (key : String) : Table α :=
  ⟨table.entries.filter fun entry => entry.1 ≠ key⟩

/-- Store every entry of another table; on a common key the other table wins. -/
def merge (table other : Table α) : Table α :=
  other.entries.foldl (fun t entry => t.insert entry.1 entry.2) table

theorem find?_empty (key : String) : (⟨[]⟩ : Table α).find? key = none := rfl

theorem lookup_cons_ne {k key : String} (h : ¬ k = key) (value : α) (rest : List (String × α)) :
    ((key, value) :: rest).lookup k = rest.lookup k := by
  have hb : (k == key) = false := by simpa using h
  rw [List.lookup_cons, hb]

theorem lookup_cons (k : String) (entry : String × α) (rest : List (String × α)) :
    (entry :: rest).lookup k = if k = entry.1 then some entry.2 else rest.lookup k := by
  obtain ⟨key, value⟩ := entry
  by_cases h : k = key
  · rw [if_pos h, h, List.lookup_cons_self]
  · rw [if_neg h, lookup_cons_ne h]

theorem lookup_alterEntries (key : String) (f : Option α → α) (k : String)
    (entries : List (String × α)) :
    (alterEntries key f entries).lookup k =
      if k = key then some (f (entries.lookup key)) else entries.lookup k := by
  induction entries with
  | nil =>
      unfold alterEntries
      by_cases h : k = key
      · rw [if_pos h, h, List.lookup_cons_self, List.lookup_nil]
      · rw [if_neg h, lookup_cons_ne h]
  | cons entry rest ih =>
      obtain ⟨other, value⟩ := entry
      unfold alterEntries
      by_cases ho : key = other
      · rw [if_pos ho, ho]
        by_cases hk : k = other
        · rw [if_pos hk, hk, List.lookup_cons_self, List.lookup_cons_self]
        · rw [if_neg hk, lookup_cons_ne hk, lookup_cons_ne hk]
      · rw [if_neg ho]
        by_cases hk : k = other
        · have hne : ¬ k = key := fun e => ho (e.symm.trans hk)
          rw [if_neg hne, hk, List.lookup_cons_self, List.lookup_cons_self]
        · rw [lookup_cons_ne hk, lookup_cons_ne hk, lookup_cons_ne ho]
          exact ih

theorem find?_alter (table : Table α) (key : String) (f : Option α → α) (k : String) :
    (table.alter key f).find? k =
      if k = key then some (f (table.find? key)) else table.find? k :=
  lookup_alterEntries key f k table.entries

/-- Storing once leaves a present value and stores an absent one. -/
theorem find?_insertNew (table : Table α) (key : String) (value : α) (k : String) :
    (table.insertNew key value).find? k =
      if k = key then some ((table.find? key).getD value) else table.find? k :=
  find?_alter table key _ k

theorem find?_insertNew_eq_or (table : Table α) (key : String) (value : α) (k : String) :
    (table.insertNew key value).find? k =
      (table.find? k).or (if key = k then some value else none) := by
  rw [find?_insertNew]
  by_cases hk : k = key
  · subst hk
    rw [if_pos rfl, if_pos rfl]
    cases table.find? k <;> rfl
  · rw [if_neg hk, if_neg (Ne.symm hk), Option.or_none]

theorem find?_insertNew_of_find? {table : Table α} {k : String} {present : α}
    (h : table.find? k = some present) (key : String) (value : α) :
    (table.insertNew key value).find? k = some present := by
  rw [find?_insertNew]
  split
  · rename_i hk
    rw [← hk, h, Option.getD_some]
  · exact h

theorem contains_insertNew (table : Table α) (key : String) (value : α) (k : String) :
    (table.insertNew key value).contains k = true ↔ k = key ∨ table.contains k = true := by
  unfold contains
  rw [find?_insertNew]
  by_cases hk : k = key
  · simp [hk]
  · simp [hk]

theorem find?_erase (table : Table α) (key : String) (k : String) :
    (table.erase key).find? k = if k = key then none else table.find? k := by
  unfold find? erase
  induction table.entries with
  | nil => simp
  | cons entry rest ih =>
      obtain ⟨other, value⟩ := entry
      by_cases ho : other = key
      · rw [List.filter_cons_of_neg (by simpa using ho), ih]
        by_cases hk : k = key
        · rw [if_pos hk, if_pos hk]
        · rw [if_neg hk, if_neg hk, lookup_cons_ne (fun e => hk (e.trans ho))]
      · rw [List.filter_cons_of_pos (by simpa using ho)]
        by_cases hk : k = other
        · rw [hk, List.lookup_cons_self, List.lookup_cons_self, if_neg ho]
        · rw [lookup_cons_ne hk, lookup_cons_ne hk, ih]

/-- A present key keeps its place, and a new one comes last. -/
theorem keys_alterEntries (key : String) (f : Option α → α) (entries : List (String × α)) :
    (alterEntries key f entries).map (·.1) =
      if key ∈ entries.map (·.1) then entries.map (·.1) else entries.map (·.1) ++ [key] := by
  induction entries with
  | nil => rfl
  | cons entry rest ih =>
      obtain ⟨other, value⟩ := entry
      unfold alterEntries
      by_cases ho : key = other
      · simp [ho]
      · rw [if_neg ho]
        simp only [List.map_cons, ih, List.mem_cons, ho, false_or]
        split
        · rfl
        · rw [List.cons_append]

theorem nodup_keys_alter {table : Table α} (nodup : table.keys.Nodup) (key : String)
    (f : Option α → α) : (table.alter key f).keys.Nodup := by
  rw [keys, alter, keys_alterEntries]
  split
  · exact nodup
  · rename_i hnew
    refine List.nodup_append.mpr ⟨nodup, List.nodup_cons.mpr ⟨List.not_mem_nil, List.nodup_nil⟩, ?_⟩
    rintro k hk other hother rfl
    exact hnew (List.mem_singleton.mp hother ▸ hk)

theorem mem_entries_iff {table : Table α} (nodup : table.keys.Nodup) {key : String} {value : α} :
    (key, value) ∈ table.entries ↔ table.find? key = some value := by
  unfold find? keys at *
  generalize table.entries = entries at nodup
  induction entries with
  | nil => simp
  | cons entry rest ih =>
      obtain ⟨hnew, hrest⟩ := List.nodup_cons.mp nodup
      rw [List.mem_cons, lookup_cons, ih hrest]
      by_cases hkey : key = entry.1
      · have habsent : rest.lookup key ≠ some value := fun hfound =>
          hnew (List.mem_map.mpr ⟨(key, value), (ih hrest).mpr hfound, hkey⟩)
        rw [if_pos hkey, Option.some.injEq, or_iff_left habsent, Prod.ext_iff]
        exact ⟨fun h => h.2.symm, fun h => ⟨hkey, h.symm⟩⟩
      · rw [if_neg hkey, or_iff_right fun h => hkey (congrArg (·.1) h)]

end Table

end BlockWatch
