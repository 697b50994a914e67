import InfraGraph.Decode.Fields

/-!
# Records are read field by field

A field takes the one entry with its name and passes over all others, so what a record is read as
can be told from its fields one by one, in whatever order the entries stand.  Main statements:

* `Fields.Takes` — entries that are taken without a fault, and what is known after them;
* `Fields.Reads` — entries that a record is read from;
* `Fields.reads_required`, `Fields.reads_withDefault`, `Fields.reads_default` — a single field;
* `Fields.Reads.map`, `Fields.Reads.seq` — a record with a further field.
-/

namespace InfraGraph
namespace Decode

/-! ## Decoded values -/

namespace Decoded

variable {α : Type}

@[simp]
theorem under_pure (step : Step) (a : α) : (pure a : Decoded α).under step = pure a := rfl

@[simp]
theorem here_pure (a : α) : (pure a : Decoded α).here = pure a := rfl

@[simp]
theorem result_pure (a : α) : (pure a : Decoded α).result = .ok a := rfl

end Decoded

/-- Items that are decoded one by one. -/
theorem listFrom_map {α ν : Type} {decode : ν → Decoded α} {tree : α → ν} {as : List α}
    (h : ∀ a ∈ as, decode (tree a) = pure a) (n : Nat) :
    listFrom decode n (as.map tree) = pure as := by
  induction as generalizing n with
  | nil => rfl
  | cons a rest ih =>
      obtain ⟨hfirst, hrest⟩ := List.forall_mem_cons.mp h
      rw [List.map_cons, listFrom, hfirst, Decoded.under_pure, pure_bind, ih hrest, pure_bind]

/-- Entries that are decoded one by one. -/
theorem entries_map {α ν : Type} {decode : ν → Decoded α} {member : String × α → Member ν}
    {entries : List (String × α)} (hkey : ∀ e ∈ entries, (member e).key = pure e.1)
    (hvalue : ∀ e ∈ entries, decode (member e).value = pure e.2) :
    Decode.entries decode (entries.map member) = pure entries := by
  induction entries with
  | nil => rfl
  | cons e rest ih =>
      obtain ⟨hkeyFirst, hkeyRest⟩ := List.forall_mem_cons.mp hkey
      obtain ⟨hfirst, hrest⟩ := List.forall_mem_cons.mp hvalue
      rw [List.map_cons, Decode.entries, hkeyFirst, pure_bind, hfirst, Decoded.under_pure,
        pure_bind, ih hkeyRest hrest, pure_bind]

namespace Fields

variable {ν α β : Type}

/-! ## Entries that are taken -/

/-- Entries are taken without a fault, from what is known before to what is known after them. -/
inductive Takes (fields : Fields ν α) : fields.Slots → List (String × ν) → fields.Slots → Prop where
  | nil (slots : fields.Slots) : Takes fields slots [] slots
  | own {key : String} {v : ν} {rest : List (String × ν)} {slots next last : fields.Slots} :
      fields.fill key v slots = some (pure next) → Takes fields next rest last →
        Takes fields slots ((key, v) :: rest) last
  | pass {key : String} {v : ν} {rest : List (String × ν)} {slots last : fields.Slots} :
      fields.fill key v slots = none → Takes fields slots rest last →
        Takes fields slots ((key, v) :: rest) last

/-- Entries with a key are none of the fields. -/
def Passes (fields : Fields ν α) (key : String) : Prop :=
  ∀ v slots, fields.fill key v slots = none

/-- A record with fields of some names is read from entries. -/
structure Reads (fields : Fields ν α) (names : List String) (entries : List (String × ν))
    (a : α) : Prop where
  passes : ∀ key, ¬key ∈ names → fields.Passes key
  takes : ∃ slots, Takes fields fields.blank entries slots ∧ fields.finish slots = pure a

section Members

variable [Format ν] (member : String × ν → Member ν)

/-- Members of a mapping are taken as its entries are. -/
theorem takeMembers_of_takes {fields : Fields ν α} {slots last : fields.Slots}
    {entries : List (String × ν)} (h : Takes fields slots entries last)
    (hkey : ∀ e, (member e).key = pure e.1) (hvalue : ∀ e, (member e).value = e.2)
    (hskip : ∀ e ∈ entries, Format.skip e.2 = pure ()) :
    fields.takeMembers slots (entries.map member) = pure last := by
  induction h with
  | nil => rfl
  | own hfill _ ih =>
      rw [List.map_cons, takeMembers, hkey, pure_bind, hvalue, take, hfill]
      simp only [Decoded.under_pure, pure_bind, ih (List.forall_mem_cons.mp hskip).2]
  | pass hfill _ ih =>
      obtain ⟨hfirst, hrest⟩ := List.forall_mem_cons.mp hskip
      rw [List.map_cons, takeMembers, hkey, pure_bind, hvalue, take, hfill]
      simp only [hfirst, pure_bind, ih hrest]

/-- The record of the members of a mapping that it is read from. -/
theorem ofMembers_of_reads {fields : Fields ν α} {names : List String}
    {entries : List (String × ν)} {a : α} (h : fields.Reads names entries a)
    (hkey : ∀ e, (member e).key = pure e.1) (hvalue : ∀ e, (member e).value = e.2)
    (hskip : ∀ e ∈ entries, Format.skip e.2 = pure ()) :
    fields.ofMembers (entries.map member) = pure a := by
  obtain ⟨slots, htakes, hfinish⟩ := h.takes
  rw [ofMembers, takeMembers_of_takes member htakes hkey hvalue hskip, pure_bind, hfinish]

end Members

/-! ## A single field -/

variable {name : String} {decode : ν → Decoded α} {missing : Decoded α}
  {tooShort : Cause → Decoded α} {entries : List (String × ν)}

theorem passes_field {key : String} (h : key ≠ name) :
    (field name decode missing tooShort).Passes key :=
  fun _ _ => if_neg h

/-- A field that is not there leaves what is known. -/
theorem takes_of_not_mem (h : ¬name ∈ entries.map Prod.fst) (slot : Option α) :
    Takes (field name decode missing tooShort) slot entries slot := by
  induction entries with
  | nil => exact Takes.nil _
  | cons e rest ih =>
      simp only [List.map_cons, List.mem_cons, not_or] at h
      exact .pass (passes_field (Ne.symm h.1) _ _) (ih h.2)

/-- A field that is there once is taken. -/
theorem takes_of_mem (hnodup : (entries.map Prod.fst).Nodup) {v : ν} (hmem : (name, v) ∈ entries)
    {a : α} (hdecode : decode v = pure a) :
    Takes (field name decode missing tooShort) none entries (some a) := by
  induction entries with
  | nil => cases hmem
  | cons e rest ih =>
      obtain ⟨hfirst, hrest⟩ := List.nodup_cons.mp hnodup
      rcases List.mem_cons.mp hmem with rfl | hmem
      · -- the name does not come again, so the value is not told twice
        refine .own ?_ (takes_of_not_mem hfirst (some a))
        simp [field, hdecode]
      · have hne : e.1 ≠ name := by
          rintro rfl
          exact hfirst (List.mem_map.mpr ⟨_, hmem, rfl⟩)
        exact .pass (passes_field hne _ _) (ih hrest hmem)

theorem passes_of_not_mem {key : String} (h : ¬key ∈ [name]) :
    (field name decode missing tooShort).Passes key :=
  passes_field fun heq => h (heq ▸ List.mem_singleton_self name)

/-- A required field is read from its entry. -/
theorem reads_required (hnodup : (entries.map Prod.fst).Nodup) {v : ν}
    (hmem : (name, v) ∈ entries) {a : α} (hdecode : decode v = pure a) :
    (required name decode).Reads [name] entries a :=
  ⟨fun _ => passes_of_not_mem, some a, takes_of_mem hnodup hmem hdecode, rfl⟩

/-- A field with a default is read from its entry. -/
theorem reads_withDefault (hnodup : (entries.map Prod.fst).Nodup) {v : ν}
    (hmem : (name, v) ∈ entries) {a : α} (hdecode : decode v = pure a) (default : α) :
    (withDefault name default decode).Reads [name] entries a :=
  ⟨fun _ => passes_of_not_mem, some a, takes_of_mem hnodup hmem hdecode, rfl⟩

/-- A field with a default need not be there. -/
theorem reads_default (hmissing : ¬name ∈ entries.map Prod.fst) (default : α) :
    (withDefault name default decode).Reads [name] entries default :=
  ⟨fun _ => passes_of_not_mem, none, takes_of_not_mem hmissing none, rfl⟩

/-! ## Several fields -/

variable {fields : Fields ν α} {names more : List String} {a : α}

/-- What is made of the fields does not matter to taking them. -/
theorem takes_map {slots last : fields.Slots} (h : Takes fields slots entries last) (f : α → β) :
    Takes (f <$> fields) slots entries last := by
  induction h with
  | nil slots => exact Takes.nil _
  | own hfill _ ih => exact .own hfill ih
  | pass hfill _ ih => exact .pass hfill ih

theorem Reads.map (h : fields.Reads names entries a) (f : α → β) :
    (f <$> fields).Reads names entries (f a) := by
  obtain ⟨hpasses, slots, htakes, hfinish⟩ := h
  refine ⟨hpasses, slots, takes_map htakes f, ?_⟩
  show f <$> fields.finish slots = pure (f a)
  rw [hfinish, map_pure]

variable {first : Fields ν (α → β)} {x : Fields ν α} {g : α → β}

/-- Of two lists of fields, the first one that knows the key takes the entry. -/
theorem fill_seq (key : String) (v : ν) (s₁ : first.Slots) (s₂ : x.Slots) :
    (first <*> x).fill key v (s₁, s₂) = match first.fill key v s₁ with
      | some d => some ((·, s₂) <$> d)
      | none => (x.fill key v s₂).map fun d => (s₁, ·) <$> d := rfl

/-- Two sets of fields take what each of them takes, where no entry belongs to both. -/
theorem takes_seq {s₁ t₁ : first.Slots} {s₂ t₂ : x.Slots} (hfirst : Takes first s₁ entries t₁)
    (hx : Takes x s₂ entries t₂) (hapart : ∀ key, first.Passes key ∨ x.Passes key) :
    Takes (first <*> x) (s₁, s₂) entries (t₁, t₂) := by
  induction entries generalizing s₁ s₂ with
  | nil =>
      cases hfirst
      cases hx
      exact .nil _
  | cons e rest ih =>
      cases hfirst with
      | own hown hrest =>
          cases hx with
          | own hown' _ =>
              -- an entry that both take would belong to both
              rcases hapart _ with hpass | hpass
              · rw [hpass] at hown
                cases hown
              · rw [hpass] at hown'
                cases hown'
          | pass _ hrest' =>
              refine .own ?_ (ih hrest hrest')
              rw [fill_seq, hown]
              rfl
      | pass hpass hrest =>
          cases hx with
          | own hown' hrest' =>
              refine .own ?_ (ih hrest hrest')
              rw [fill_seq, hpass, hown']
              rfl
          | pass hpass' hrest' =>
              refine .pass ?_ (ih hrest hrest')
              rw [fill_seq, hpass, hpass']
              rfl

/-- A record with further fields, whose names are others. -/
theorem Reads.seq (hfirst : first.Reads names entries g) (hx : x.Reads more entries a)
    (hapart : ∀ name ∈ more, ¬name ∈ names) :
    (first <*> x).Reads (names ++ more) entries (g a) := by
  obtain ⟨hpasses₁, s₁, htakes₁, hfinish₁⟩ := hfirst
  obtain ⟨hpasses₂, s₂, htakes₂, hfinish₂⟩ := hx
  refine ⟨fun key hkey v slots => ?_, (s₁, s₂), takes_seq htakes₁ htakes₂ fun key => ?_, ?_⟩
  · rw [List.mem_append, not_or] at hkey
    refine (fill_seq key v slots.1 slots.2).trans ?_
    rw [hpasses₁ key hkey.1, hpasses₂ key hkey.2]
    rfl
  · by_cases hkey : key ∈ more
    · exact Or.inl (hpasses₁ key (hapart key hkey))
    · exact Or.inr (hpasses₂ key hkey)
  · show (do
      let g ← first.finish s₁
      let a ← x.finish s₂
      return g a) = pure (g a)
    rw [hfinish₁, hfinish₂, pure_bind, pure_bind]

end Fields
end Decode
end InfraGraph
