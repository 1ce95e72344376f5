namespace Hati

/-!
# Tables that remember the order of their keys

A table lists its entries in the order in which their keys first came in.
Writing to a key that is already there replaces the value and keeps the
position, so the order of the keys only ever grows at the end.
-/

/-- Entries by key, in order of first insertion. -/
structure Dict (α : Type) where
  entries : List (String × α) := []
deriving Inhabited

namespace Dict

variable {α β : Type}

def empty : Dict α := {}

def keys (dict : Dict α) : List String :=
  dict.entries.map Prod.fst

def size (dict : Dict α) : Nat :=
  dict.entries.length

def isEmpty (dict : Dict α) : Bool :=
  dict.entries.isEmpty

def get? (dict : Dict α) (key : String) : Option α :=
  dict.entries.lookup key

def contains (dict : Dict α) (key : String) : Bool :=
  dict.entries.any fun entry => entry.1 == key

/-- Replace the first value under the key, or add the entry at the end. -/
def insertEntry (key : String) (value : α) : List (String × α) → List (String × α)
  | [] => [(key, value)]
  | entry :: rest =>
    if entry.1 == key then (key, value) :: rest else entry :: insertEntry key value rest

def insert (dict : Dict α) (key : String) (value : α) : Dict α :=
  ⟨insertEntry key value dict.entries⟩

def ofList (entries : List (String × α)) : Dict α :=
  entries.foldl (fun dict entry => dict.insert entry.1 entry.2) empty

def map (f : α → β) (dict : Dict α) : Dict β :=
  ⟨dict.entries.map fun entry => (entry.1, f entry.2)⟩

/-! ## Looking up after a write -/

private theorem lookup_insertEntry_self (key : String) (value : α)
    (entries : List (String × α)) :
    (insertEntry key value entries).lookup key = some value := by
  induction entries with
  | nil => simp [insertEntry]
  | cons entry rest ih =>
    obtain ⟨name, old⟩ := entry
    by_cases same : name = key
    · simp [insertEntry, same]
    · have different : (key == name) = false := by
        simpa using fun equal => same equal.symm
      simp [insertEntry, same, List.lookup_cons, different, ih]

private theorem lookup_insertEntry_of_ne {key other : String} (distinct : other ≠ key)
    (value : α) (entries : List (String × α)) :
    (insertEntry key value entries).lookup other = entries.lookup other := by
  have miss : (other == key) = false := by simpa using distinct
  induction entries with
  | nil => simp [insertEntry, List.lookup_cons, miss]
  | cons entry rest ih =>
    obtain ⟨name, old⟩ := entry
    by_cases same : name = key
    · simp [insertEntry, same, List.lookup_cons, miss]
    · simp [insertEntry, same, List.lookup_cons, ih]

/-- A key reads as what was last written to it. -/
@[simp]
theorem get?_insert_self (dict : Dict α) (key : String) (value : α) :
    (dict.insert key value).get? key = some value :=
  lookup_insertEntry_self key value dict.entries

/-- A write leaves every other key as it was. -/
theorem get?_insert_of_ne {key other : String} (distinct : other ≠ key) (dict : Dict α)
    (value : α) : (dict.insert key value).get? other = dict.get? other :=
  lookup_insertEntry_of_ne distinct value dict.entries

private theorem keys_insertEntry (key : String) (value : α) (entries : List (String × α)) :
    (insertEntry key value entries).map Prod.fst =
      if (entries.any fun entry => entry.1 == key) then entries.map Prod.fst
      else entries.map Prod.fst ++ [key] := by
  induction entries with
  | nil => simp [insertEntry]
  | cons entry rest ih =>
    by_cases same : entry.1 = key
    · simp [insertEntry, same]
    · simp only [insertEntry, beq_iff_eq, same, if_false, List.map_cons, ih, List.any_cons]
      have miss : (entry.1 == key) = false := by simpa using same
      rw [miss, Bool.false_or]
      split <;> simp

/-- A write keeps the order of the keys and adds a new key at the end. -/
theorem keys_insert (dict : Dict α) (key : String) (value : α) :
    (dict.insert key value).keys =
      if dict.contains key then dict.keys else dict.keys ++ [key] :=
  keys_insertEntry key value dict.entries

/-- A key is present exactly if it reads as something. -/
theorem contains_eq_isSome_get? (dict : Dict α) (key : String) :
    dict.contains key = (dict.get? key).isSome := by
  obtain ⟨entries⟩ := dict
  simp only [contains, get?]
  induction entries with
  | nil => rfl
  | cons entry rest ih =>
    rw [List.any_cons, List.lookup_cons, ih, Bool.beq_comm]
    cases key == entry.1 <;> rfl

/-- What reads under a key is an entry of the table. -/
theorem mem_of_get? {dict : Dict α} {key : String} {value : α}
    (found : dict.get? key = some value) : (key, value) ∈ dict.entries := by
  obtain ⟨before, after, split, -⟩ := List.lookup_eq_some_iff.mp found
  rw [split]
  exact List.mem_append_right before List.mem_cons_self

private theorem mem_insertEntry {key : String} {value : α} {entry : String × α} :
    ∀ {entries : List (String × α)}, entry ∈ insertEntry key value entries →
      entry = (key, value) ∨ entry ∈ entries
  | [], member => .inl (List.mem_singleton.mp member)
  | other :: rest, member => by
      unfold insertEntry at member
      split at member
      · exact (List.mem_cons.mp member).imp_right (List.mem_cons_of_mem other)
      · rcases List.mem_cons.mp member with rfl | inRest
        · exact .inr List.mem_cons_self
        · exact (mem_insertEntry inRest).imp_right (List.mem_cons_of_mem other)

/-- After a write there is no entry but the written one and those of before. -/
theorem mem_entries_insert {dict : Dict α} {key : String} {value : α} {entry : String × α}
    (member : entry ∈ (dict.insert key value).entries) :
    entry = (key, value) ∨ entry ∈ dict.entries :=
  mem_insertEntry member

/-! ## Collecting entries -/

private theorem entries_insert_of_not_mem {dict : Dict α} {key : String} {value : α}
    (fresh : key ∉ dict.keys) :
    (dict.insert key value).entries = dict.entries ++ [(key, value)] := by
  obtain ⟨entries⟩ := dict
  show insertEntry key value entries = _
  induction entries with
  | nil => rfl
  | cons entry entries ih =>
      have apart : entry.1 ≠ key := fun same => fresh (same ▸ List.mem_cons_self)
      have further : key ∉ keys ⟨entries⟩ := fun member => fresh (List.mem_cons_of_mem _ member)
      rw [insertEntry, if_neg (by simpa using apart), ih further]
      rfl

/-- Entries with distinct keys are kept as they are. -/
theorem entries_ofList {entries : List (String × α)} (distinct : (entries.map Prod.fst).Nodup) :
    (ofList entries).entries = entries := by
  have collected : ∀ (more : List (String × α)) (dict : Dict α),
      (dict.keys ++ more.map Prod.fst).Nodup →
      (more.foldl (fun dict entry => dict.insert entry.1 entry.2) dict).entries =
        dict.entries ++ more := by
    intro more
    induction more with
    | nil => exact fun dict _ => (List.append_nil dict.entries).symm
    | cons entry more ih =>
        intro dict distinct
        have fresh : entry.1 ∉ dict.keys := fun member =>
          (List.nodup_append.mp distinct).2.2 entry.1 member entry.1 List.mem_cons_self rfl
        have longer : (dict.insert entry.1 entry.2).entries = dict.entries ++ [entry] :=
          entries_insert_of_not_mem fresh
        rw [List.foldl_cons, ih]
        · rw [longer, List.append_assoc]
          rfl
        · rw [keys, longer, List.map_append, List.append_assoc]
          exact distinct
  rw [ofList, collected entries empty distinct]
  rfl

end Dict

end Hati
