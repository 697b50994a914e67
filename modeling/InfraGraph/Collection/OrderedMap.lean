/-!
# OrderedMap — text keys in order of first insertion

A schema keeps its lambdas, its environment variables and the fields of a resource in the order in
which they were written, and the digest of a resource depends on that order.  This file defines:

* `OrderedMap α` — entries in insertion order, with pairwise distinct keys;
* `OrderedMap.insert` — a new key goes to the end, a known key keeps its place and takes the new
  value;
* `OrderedMap.ofList` — repeated keys collapse to the first position and the last value.
-/

namespace InfraGraph

/-! ## Entries as a plain list -/

namespace Entries

variable {α : Type}

/-- Set the value of `key`: in place if it is present, at the end otherwise. -/
def insert (key : String) (value : α) : List (String × α) → List (String × α)
  | [] => [(key, value)]
  | entry :: rest =>
      if entry.1 = key then (key, value) :: rest else entry :: insert key value rest

/-- A key that is there keeps its place; a new one goes to the end. -/
theorem keys_insert (key : String) (value : α) (entries : List (String × α)) :
    (insert key value entries).map Prod.fst =
      if key ∈ entries.map Prod.fst then entries.map Prod.fst
      else entries.map Prod.fst ++ [key] := by
  induction entries with
  | nil => simp [insert]
  | cons entry rest ih =>
      by_cases h : entry.1 = key
      · simp [insert, h]
      · have h' : ¬key = entry.1 := fun e => h e.symm
        rw [insert, if_neg h, List.map_cons, ih]
        by_cases hm : key ∈ rest.map Prod.fst
        · rw [if_pos hm, if_pos (by simp only [List.map_cons]; exact List.mem_cons_of_mem _ hm)]
          rfl
        · rw [if_neg hm, if_neg (by
            simp only [List.map_cons, List.mem_cons, not_or]
            exact ⟨h', hm⟩)]
          rfl

theorem nodup_keys_insert (key : String) (value : α) {entries : List (String × α)}
    (h : (entries.map Prod.fst).Nodup) : ((insert key value entries).map Prod.fst).Nodup := by
  rw [keys_insert]
  by_cases hm : key ∈ entries.map Prod.fst
  · rw [if_pos hm]
    exact h
  · rw [if_neg hm]
    refine List.nodup_append.mpr ⟨h, by simp, ?_⟩
    intro a ha b hb hab
    rcases List.mem_singleton.mp hb with rfl
    exact hm (hab ▸ ha)

/-- Inserting brings in nothing but the pair. -/
theorem mem_of_mem_insert {key : String} {value : α} {entries : List (String × α)}
    {entry : String × α} (h : entry ∈ insert key value entries) :
    entry = (key, value) ∨ entry ∈ entries := by
  induction entries with
  | nil => exact Or.inl (List.mem_singleton.mp h)
  | cons first rest ih =>
      unfold insert at h
      split at h
      · rcases List.mem_cons.mp h with h | h
        · exact Or.inl h
        · exact Or.inr (List.mem_cons_of_mem _ h)
      · rcases List.mem_cons.mp h with h | h
        · exact Or.inr (h ▸ List.mem_cons_self)
        · rcases ih h with h | h
          · exact Or.inl h
          · exact Or.inr (List.mem_cons_of_mem _ h)

def get? (key : String) : List (String × α) → Option α
  | [] => none
  | entry :: rest => if entry.1 = key then some entry.2 else get? key rest

theorem get?_eq_none_iff {key : String} {entries : List (String × α)} :
    get? key entries = none ↔ ¬key ∈ entries.map Prod.fst := by
  induction entries with
  | nil => simp [get?]
  | cons entry rest ih =>
      by_cases h : entry.1 = key
      · simp [get?, h]
      · have h' : ¬key = entry.1 := fun e => h e.symm
        simp [get?, h, h', ih]

theorem mem_of_get?_eq_some {key : String} {value : α} {entries : List (String × α)}
    (h : get? key entries = some value) : (key, value) ∈ entries := by
  induction entries with
  | nil => simp [get?] at h
  | cons entry rest ih =>
      by_cases he : entry.1 = key
      · have hv : entry.2 = value := by simpa [get?, he] using h
        subst he hv
        exact List.mem_cons_self
      · have hrest : get? key rest = some value := by simpa [get?, he] using h
        exact List.mem_cons_of_mem _ (ih hrest)

theorem get?_insert_self {key : String} {value : α} {entries : List (String × α)} :
    get? key (insert key value entries) = some value := by
  induction entries with
  | nil => simp [insert, get?]
  | cons entry rest ih =>
      by_cases h : entry.1 = key
      · simp [insert, get?, h]
      · simp [insert, get?, h, ih]

/-- Setting a value leaves what stands under other keys. -/
theorem get?_insert_of_ne {key other : String} {value : α} {entries : List (String × α)}
    (hne : other ≠ key) : get? key (insert other value entries) = get? key entries := by
  induction entries with
  | nil => simp [insert, get?, hne]
  | cons entry rest ih =>
      by_cases h : entry.1 = other
      · simp [insert, get?, h, hne]
      · rw [insert, if_neg h]
        simp only [get?, ih]

/-- Of two lists of entries the first one decides, where it has the key. -/
theorem get?_append {key : String} {xs ys : List (String × α)} :
    get? key (xs ++ ys) = (get? key xs).or (get? key ys) := by
  induction xs with
  | nil => rfl
  | cons entry rest ih =>
      by_cases h : entry.1 = key
      · simp [get?, h]
      · simp [get?, h, ih]

/-- Where keys are distinct, an entry is found under its key. -/
theorem get?_eq_some_of_mem {key : String} {value : α} {entries : List (String × α)}
    (hdistinct : (entries.map Prod.fst).Nodup) (h : (key, value) ∈ entries) :
    get? key entries = some value := by
  induction entries with
  | nil => simp at h
  | cons entry rest ih =>
      have hrest := List.nodup_cons.mp hdistinct
      rcases List.mem_cons.mp h with rfl | h
      · simp [get?]
      · have hne : ¬entry.1 = key := fun e => hrest.1 (e ▸ List.mem_map_of_mem h)
        simp [get?, hne, ih hrest.2 h]

end Entries

/-! ## The map -/

/-- Entries in insertion order with pairwise distinct keys. -/
structure OrderedMap (α : Type) where
  entries : List (String × α)
  distinct : (entries.map Prod.fst).Nodup

namespace OrderedMap

variable {α β : Type}

@[ext]
theorem ext {m n : OrderedMap α} (h : m.entries = n.entries) : m = n := by
  cases m
  cases n
  cases h
  rfl

instance [DecidableEq α] : DecidableEq (OrderedMap α) := fun m n =>
  if h : m.entries = n.entries then .isTrue (ext h)
  else .isFalse fun e => h (congrArg entries e)

def empty : OrderedMap α := ⟨[], by simp⟩

instance : EmptyCollection (OrderedMap α) := ⟨empty⟩

instance : Inhabited (OrderedMap α) := ⟨empty⟩

def keys (m : OrderedMap α) : List String := m.entries.map Prod.fst

def values (m : OrderedMap α) : List α := m.entries.map Prod.snd

def size (m : OrderedMap α) : Nat := m.entries.length

def isEmpty (m : OrderedMap α) : Bool := m.entries.isEmpty

def get? (m : OrderedMap α) (key : String) : Option α := Entries.get? key m.entries

def contains (m : OrderedMap α) (key : String) : Bool := (m.get? key).isSome

/-- Keys are distinct, so a value is found under a key iff the two are an entry. -/
theorem get?_eq_some_iff {m : OrderedMap α} {key : String} {value : α} :
    m.get? key = some value ↔ (key, value) ∈ m.entries :=
  ⟨Entries.mem_of_get?_eq_some, Entries.get?_eq_some_of_mem m.distinct⟩

theorem contains_iff {m : OrderedMap α} {key : String} : m.contains key = true ↔ key ∈ m.keys := by
  cases h : m.get? key with
  | none =>
      have habsent : ¬key ∈ m.keys := Entries.get?_eq_none_iff.mp h
      simp [contains, h, habsent]
  | some value =>
      have hpresent : key ∈ m.keys := List.mem_map_of_mem (f := Prod.fst) (get?_eq_some_iff.mp h)
      simp [contains, h, hpresent]

/-- Set the value of `key`: in place if it is present, at the end otherwise. -/
def insert (m : OrderedMap α) (key : String) (value : α) : OrderedMap α :=
  ⟨Entries.insert key value m.entries, Entries.nodup_keys_insert key value m.distinct⟩

/-- Insert every pair in order; the last value of a repeated key stands at its first position. -/
def ofList (pairs : List (String × α)) : OrderedMap α :=
  pairs.foldl (fun m pair => m.insert pair.1 pair.2) empty

/-- A key that is not there goes to the end. -/
theorem entries_insert_of_not_mem {m : OrderedMap α} {key : String} (value : α)
    (h : ¬key ∈ m.keys) : (m.insert key value).entries = m.entries ++ [(key, value)] := by
  have hinsert : ∀ entries : List (String × α), ¬key ∈ entries.map Prod.fst →
      Entries.insert key value entries = entries ++ [(key, value)] := by
    intro entries
    induction entries with
    | nil => exact fun _ => rfl
    | cons entry rest ih =>
        intro hnot
        simp only [List.map_cons, List.mem_cons, not_or] at hnot
        rw [Entries.insert, if_neg (Ne.symm hnot.1), ih hnot.2, List.cons_append]
  exact hinsert m.entries h

/-- Pairs with distinct keys are the entries of their map. -/
theorem entries_ofList {pairs : List (String × α)} (h : (pairs.map Prod.fst).Nodup) :
    (ofList pairs).entries = pairs := by
  have hfold : ∀ (pairs : List (String × α)) (m : OrderedMap α),
      ((m.entries ++ pairs).map Prod.fst).Nodup →
        (pairs.foldl (fun m pair => m.insert pair.1 pair.2) m).entries = m.entries ++ pairs := by
    intro pairs
    induction pairs with
    | nil => simp
    | cons pair rest ih =>
        intro m hnodup
        have hnew : ¬pair.1 ∈ m.keys := by
          intro hmem
          rw [List.map_append, List.nodup_append] at hnodup
          exact hnodup.2.2 _ hmem _ (by simp) rfl
        have hinsert := entries_insert_of_not_mem pair.2 hnew
        rw [List.foldl_cons, ih, hinsert, List.append_assoc]
        · rfl
        · rwa [hinsert, List.append_assoc]
  exact hfold pairs empty h

/-- A map is made of its entries. -/
@[simp]
theorem ofList_entries (m : OrderedMap α) : ofList m.entries = m :=
  ext (entries_ofList m.distinct)

/-- A map of pairs holds none but these. -/
theorem mem_of_mem_ofList {pairs : List (String × α)} {entry : String × α}
    (h : entry ∈ (ofList pairs).entries) : entry ∈ pairs := by
  have hfold : ∀ (pairs : List (String × α)) (m : OrderedMap α),
      entry ∈ (pairs.foldl (fun m pair => m.insert pair.1 pair.2) m).entries →
        entry ∈ pairs ∨ entry ∈ m.entries := by
    intro pairs
    induction pairs with
    | nil => exact fun m h => Or.inr h
    | cons pair rest ih =>
        intro m h
        rcases ih _ h with h | h
        · exact Or.inl (List.mem_cons_of_mem _ h)
        · rcases Entries.mem_of_mem_insert h with h | h
          · exact Or.inl (h ▸ List.mem_cons_self)
          · exact Or.inr h
  exact (hfold pairs empty h).resolve_right List.not_mem_nil

/-- The entries of a map are among the pairs that it was made from. -/
theorem forall_mem_ofList {pairs : List (String × α)} {p : String × α → Prop}
    (h : ∀ pair ∈ pairs, p pair) : ∀ entry ∈ (ofList pairs).entries, p entry :=
  fun entry hentry => h entry (mem_of_mem_ofList hentry)

/-- A map of pairs has their keys. -/
theorem mem_keys_ofList {pairs : List (String × α)} {key : String} :
    key ∈ (ofList pairs).keys ↔ key ∈ pairs.map Prod.fst := by
  have hfold : ∀ (pairs : List (String × α)) (m : OrderedMap α),
      key ∈ (pairs.foldl (fun m pair => m.insert pair.1 pair.2) m).keys ↔
        key ∈ pairs.map Prod.fst ∨ key ∈ m.keys := by
    intro pairs
    induction pairs with
    | nil => simp
    | cons pair rest ih =>
        intro m
        have hinsert : key ∈ (m.insert pair.1 pair.2).keys ↔ key = pair.1 ∨ key ∈ m.keys := by
          unfold keys insert
          rw [Entries.keys_insert]
          split
          · next hmem =>
            constructor
            · exact Or.inr
            · rintro (rfl | hold)
              · exact hmem
              · exact hold
          · simp [or_comm]
        rw [List.foldl_cons, ih, hinsert, List.map_cons, List.mem_cons]
        exact or_left_comm.trans or_assoc.symm
  exact (hfold pairs empty).trans (or_iff_left List.not_mem_nil)

/-- Of the pairs with a key the last one is found. -/
theorem get?_ofList {key : String} {pairs : List (String × α)} :
    (ofList pairs).get? key = Entries.get? key pairs.reverse := by
  have hinsert : ∀ (m : OrderedMap α) (pair : String × α),
      (m.insert pair.1 pair.2).get? key = (Entries.get? key [pair]).or (m.get? key) := by
    intro m pair
    by_cases h : pair.1 = key
    · have hself : (m.insert pair.1 pair.2).get? pair.1 = some pair.2 := Entries.get?_insert_self
      simp [Entries.get?, ← h, hself]
    · have hother : (m.insert pair.1 pair.2).get? key = m.get? key := Entries.get?_insert_of_ne h
      simp [Entries.get?, h, hother]
  have hfold : ∀ (pairs : List (String × α)) (m : OrderedMap α),
      (pairs.foldl (fun m pair => m.insert pair.1 pair.2) m).get? key =
        (Entries.get? key pairs.reverse).or (m.get? key) := by
    intro pairs
    induction pairs with
    | nil => exact fun m => rfl
    | cons pair rest ih =>
        intro m
        rw [List.foldl_cons, ih, hinsert, List.reverse_cons, Entries.get?_append, Option.or_assoc]
  exact (hfold pairs empty).trans (Option.or_none ..)

/-- The first pair of a list is found under its key, unless the key comes again. -/
theorem get?_ofList_cons {key : String} {value : α} {rest : List (String × α)}
    (h : ¬key ∈ rest.map Prod.fst) : (ofList ((key, value) :: rest)).get? key = some value := by
  have hrest : Entries.get? key rest.reverse = none :=
    Entries.get?_eq_none_iff.mpr (by simpa using h)
  rw [get?_ofList, List.reverse_cons, Entries.get?_append, hrest]
  simp [Entries.get?]

end OrderedMap
end InfraGraph
