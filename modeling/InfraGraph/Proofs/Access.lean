import InfraGraph.Access.Aggregate
import InfraGraph.Access.Policy
import InfraGraph.Proofs.Distinct

/-!
# When grants can be computed, and what they hold

* `mapM_eq_ok_iff`, `mapM_eq_error_iff` — steps over a list that may fail;
* `Declaration.aggregate_eq_ok_iff`, `Declaration.aggregate_eq_error_iff` — declarations of the
  platform alone are granted, with the baseline, and the first other one is refused;
* `Schema.grants_eq_ok_iff`, `Schema.grants_eq_error_iff` — grants are computed lambda by lambda, up
  to the first that has none;
* `Schema.exists_grants`, `Schema.grants_error`, `Schema.grants_of_mem`, `Schema.mem_grants` — what
  follows for a schema;
* `RoleAssignment.assigned`, `Schema.role_of_grants` — the roles that grants can lead to.
-/

namespace InfraGraph

/-! ## Steps over a list -/

/-- Steps over a list succeed with a result for each element, in order. -/
theorem mapM_eq_ok_iff {ε α β : Type} {f : α → Except ε β} {xs : List α} {ys : List β} :
    xs.mapM f = .ok ys ↔ List.Forall₂ (fun x y => f x = .ok y) xs ys := by
  induction xs generalizing ys with
  | nil => cases ys <;> simp [pure, Except.pure]
  | cons a rest ih =>
      rw [List.mapM_cons]
      cases hfirst : f a with
      | error e => cases ys <;> simp [bind, Except.bind, hfirst]
      | ok b =>
          cases hrest : rest.mapM f with
          | error e => cases ys <;> simp [bind, Except.bind, hfirst, ← ih, hrest]
          | ok bs =>
              cases ys <;> simp [bind, Except.bind, pure, Except.pure, hfirst, ← ih, hrest]

/-- Where elements before some element are to have a property, the first element is that one, or it
has the property. -/
theorem exists_first_cons {α : Type} {P Q : α → Prop} {a : α} {rest : List α} :
    (∃ before c after, a :: rest = before ++ c :: after ∧ (∀ b ∈ before, P b) ∧ Q c) ↔
      Q a ∨ P a ∧ ∃ before c after, rest = before ++ c :: after ∧ (∀ b ∈ before, P b) ∧ Q c := by
  constructor
  · rintro ⟨before, c, after, hsplit, hbefore, hc⟩
    cases before with
    | nil =>
        obtain ⟨rfl, rfl⟩ := List.cons.inj hsplit
        exact Or.inl hc
    | cons first before =>
        obtain ⟨rfl, rfl⟩ := List.cons.inj hsplit
        obtain ⟨ha, hbefore⟩ := List.forall_mem_cons.mp hbefore
        exact Or.inr ⟨ha, before, c, after, rfl, hbefore, hc⟩
  · rintro (ha | ⟨ha, before, c, after, rfl, hbefore, hc⟩)
    · exact ⟨[], a, rest, rfl, List.forall_mem_nil _, ha⟩
    · exact ⟨a :: before, c, after, rfl, List.forall_mem_cons.mpr ⟨ha, hbefore⟩, hc⟩

/-- Steps over a list fail with the error of the first one that does. -/
theorem mapM_eq_error_iff {ε α β : Type} {f : α → Except ε β} {xs : List α} {e : ε} :
    xs.mapM f = .error e ↔ ∃ before a after, xs = before ++ a :: after ∧
      (∀ b ∈ before, ∃ y, f b = .ok y) ∧ f a = .error e := by
  induction xs with
  | nil => simp [pure, Except.pure]
  | cons a rest ih =>
      rw [exists_first_cons, ← ih, List.mapM_cons]
      cases hfirst : f a with
      | error e' => simp [bind, Except.bind]
      | ok b =>
          cases hrest : rest.mapM f <;> simp [bind, Except.bind, pure, Except.pure]

/-! ## The grants of declarations -/

namespace Declaration

variable {ds : List Declaration} {platform : Platform} {e : GenerationError}

/-- Nothing is foreign iff every declaration is of the platform. -/
theorem foreign?_eq_none_iff :
    foreign? platform ds = none ↔ ∀ d ∈ ds, d.resource.platform = platform := by
  simp [foreign?]

/-- The declaration that is refused is the first one of another platform. -/
theorem foreign?_eq_some_iff : foreign? platform ds = some e ↔
    ∃ before d after, ds = before ++ d :: after ∧
      (∀ b ∈ before, b.resource.platform = platform) ∧ d.resource.platform ≠ platform ∧
      e = .invalidDeclaration d.resource.kind platform d.location := by
  simp only [foreign?, Option.map_eq_some_iff, List.find?_eq_some_iff_append]
  constructor
  · rintro ⟨d, ⟨hforeign, before, after, hsplit, hbefore⟩, rfl⟩
    exact ⟨before, d, after, hsplit, fun b hb => by simpa using hbefore b hb,
      by simpa using hforeign,
      rfl⟩
  · rintro ⟨before, d, after, hsplit, hbefore, hforeign, rfl⟩
    exact ⟨d, ⟨by simpa using hforeign, before, after, hsplit, fun b hb => by simp [hbefore b hb]⟩,
      rfl⟩

/-- Declarations of the platform are all granted, behind the baseline. -/
theorem aggregate_eq_ok (h : ∀ d ∈ ds, d.resource.platform = platform) :
    aggregate ds platform = .ok (.ofList (Grant.baseline platform :: ds.flatMap grants)) := by
  rw [aggregate, foreign?_eq_none_iff.mpr h]

/-- Declarations of the platform alone are granted, together with the baseline. -/
theorem aggregate_eq_ok_iff {set : OrderedSet Grant} : aggregate ds platform = .ok set ↔
    (∀ d ∈ ds, d.resource.platform = platform) ∧
      ∀ g, g ∈ set ↔ g = Grant.baseline platform ∨ ∃ d ∈ ds, g ∈ d.grants := by
  constructor
  · intro h
    have hplatform : ∀ d ∈ ds, d.resource.platform = platform := by
      rw [← foreign?_eq_none_iff]
      unfold aggregate at h
      cases hforeign : foreign? platform ds with
      | none => rfl
      | some e =>
          rw [hforeign] at h
          cases h
    rw [aggregate_eq_ok hplatform] at h
    cases h
    exact ⟨hplatform, fun g => by simp⟩
  · rintro ⟨hplatform, hset⟩
    rw [aggregate_eq_ok hplatform]
    congr 1
    ext g
    simp [hset]

/-- The first declaration of another platform is refused. -/
theorem aggregate_eq_error_iff : aggregate ds platform = .error e ↔
    ∃ before d after, ds = before ++ d :: after ∧
      (∀ b ∈ before, b.resource.platform = platform) ∧ d.resource.platform ≠ platform ∧
      e = .invalidDeclaration d.resource.kind platform d.location := by
  rw [← foreign?_eq_some_iff, aggregate]
  cases foreign? platform ds <;> simp

end Declaration

/-- The roles that are ever assigned. -/
def RoleAssignment.assigned : List String :=
  ["Reader", "Contributor", "Monitoring Metrics Publisher"]

/-- Metrics are granted as the baseline alone; no declaration asks for them. -/
theorem Declaration.ne_insights_of_grants {d : Declaration} {g : Grant} (hg : g ∈ d.grants)
    {service : AzureService} (hs : g.service = .azure service) : service ≠ .insights := by
  have hkinds : ∀ (level : AccessLevel) (r : DeclaredResource), ∀ g ∈ r.expand level,
      g.service ≠ .azure .insights := by
    intro level r
    cases r <;> simp [DeclaredResource.expand, Grant.aws, Grant.azure]
  rintro rfl
  exact hkinds d.level d.resource g hg hs

namespace Schema

variable {s : Schema} {library : List Declaration} {all : Grants}

/-! ## The grants of a schema -/

theorem named_eq_ok_iff {α : Type} {id : String} {r : Except GenerationError α}
    {named : String × α} :
    (do return (id, ← r)) = Except.ok named ↔ id = named.1 ∧ r = .ok named.2 := by
  rcases named with ⟨name, a⟩
  cases r <;> simp [bind, Except.bind, pure, Except.pure]

theorem named_eq_error_iff {α : Type} {id : String} {r : Except GenerationError α}
    {e : GenerationError} :
    (do return (id, ← r)) = (Except.error e : Except GenerationError (String × α)) ↔
      r = .error e := by
  cases r <;> simp [bind, Except.bind, pure, Except.pure]

/-- The grants of the lambdas, in their order. -/
def grantSteps (s : Schema) (library : List Declaration) :
    Except GenerationError (List (String × OrderedSet Grant)) :=
  s.lambdas.entries.mapM fun entry => do return (entry.1, ← s.lambdaGrants library entry.2)

/-- Grants are computed step by step, and collected at the end. -/
theorem grants_eq_map_steps : s.grants library =
    (s.grantSteps library).map fun entries => ⟨OrderedMap.ofList entries⟩ := by
  have hsteps : s.grants library = (s.grantSteps library >>= fun entries =>
      return ⟨OrderedMap.ofList entries⟩) := rfl
  rw [hsteps]
  cases s.grantSteps library <;> rfl

/-- The steps succeed iff each lambda by itself has grants. -/
theorem grantSteps_eq_ok_iff {entries : List (String × OrderedSet Grant)} :
    s.grantSteps library = .ok entries ↔
      List.Forall₂ (fun (entry : String × Lambda) (granted : String × OrderedSet Grant) =>
        entry.1 = granted.1 ∧ s.lambdaGrants library entry.2 = .ok granted.2)
        s.lambdas.entries entries := by
  simp only [grantSteps, mapM_eq_ok_iff, named_eq_ok_iff]

/-- Every lambda has the grants that were computed for it, under its id. -/
theorem grants_eq_ok_iff : s.grants library = .ok all ↔
    List.Forall₂ (fun (entry : String × Lambda) (granted : String × OrderedSet Grant) =>
      entry.1 = granted.1 ∧ s.lambdaGrants library entry.2 = .ok granted.2)
      s.lambdas.entries all.byLambda.entries := by
  rw [grants_eq_map_steps]
  constructor
  · intro h
    cases hentries : s.grantSteps library with
    | error e =>
        rw [hentries] at h
        cases h
    | ok entries =>
        rw [hentries] at h
        cases h
        have hrelated := grantSteps_eq_ok_iff.mp hentries
        -- ids of lambdas are distinct, so none of the entries replaces another one
        have hkeys : s.lambdas.entries.map Prod.fst = entries.map Prod.fst :=
          Distinct.map_eq_of_forall₂ (hrelated.imp fun _ _ hentry => hentry.1)
        have hdistinct : (entries.map Prod.fst).Nodup := hkeys ▸ s.lambdas.distinct
        rwa [OrderedMap.entries_ofList hdistinct]
  · intro h
    rw [grantSteps_eq_ok_iff.mpr h]
    exact congrArg (fun m => Except.ok (Grants.mk m)) (OrderedMap.ofList_entries all.byLambda)

/-- No grants are computed beyond the first lambda that is refused. -/
theorem grants_eq_error_iff {e : GenerationError} : s.grants library = .error e ↔
    ∃ before entry after, s.lambdas.entries = before ++ entry :: after ∧
      (∀ b ∈ before, ∃ set, s.lambdaGrants library b.2 = .ok set) ∧
      s.lambdaGrants library entry.2 = .error e := by
  have hsteps : s.grants library = .error e ↔ s.grantSteps library = .error e := by
    rw [grants_eq_map_steps]
    cases s.grantSteps library <;> simp [Except.map]
  rw [hsteps, grantSteps]
  simp only [mapM_eq_error_iff, named_eq_ok_iff, named_eq_error_iff, Prod.exists,
    exists_and_left, exists_eq_left']

/-- Declarations of the schema's platform alone are never refused. -/
theorem exists_grants
    (hown : ∀ entry ∈ s.lambdas.entries, ∀ d ∈ entry.2.permissions,
      d.resource.platform = s.platform)
    (hlibrary : ∀ d ∈ library, d.resource.platform = s.platform) :
    ∃ grants, s.grants library = .ok grants := by
  cases h : s.grants library with
  | ok all => exact ⟨all, rfl⟩
  | error e =>
      obtain ⟨before, entry, after, hsplit, -, hentry⟩ := grants_eq_error_iff.mp h
      have hmem : entry ∈ s.lambdas.entries := hsplit ▸ List.mem_append_cons_self
      have hplatform : ∀ d ∈ entry.2.permissions ++ library, d.resource.platform = s.platform := by
        intro d hd
        -- a lambda is granted what it declares and what the library declares
        rcases List.mem_append.mp hd with hd | hd
        · exact hown entry hmem d hd
        · exact hlibrary d hd
      rw [lambdaGrants, Declaration.aggregate_eq_ok hplatform] at hentry
      cases hentry

/-- The only error is that of a declaration of another platform. -/
theorem grants_error {e : GenerationError} (h : s.grants library = .error e) :
    ∃ kind location, e = .invalidDeclaration kind s.platform location := by
  obtain ⟨_, _, _, _, _, hentry⟩ := grants_eq_error_iff.mp h
  obtain ⟨_, _, _, _, _, _, rfl⟩ := Declaration.aggregate_eq_error_iff.mp hentry
  exact ⟨_, _, rfl⟩

/-! ## What grants hold -/

/-- A lambda has the grants that were computed for it. -/
theorem grants_of_mem (h : s.grants library = .ok all) {id : String} {l : Lambda}
    (hl : (id, l) ∈ s.lambdas.entries) : s.lambdaGrants library l = .ok (all.of id) := by
  obtain ⟨⟨id', own⟩, hmem, hid, hown⟩ :=
    (Distinct.exists_of_forall₂ (grants_eq_ok_iff.mp h)).1 _ hl
  subst hid
  rw [hown, Grants.of, OrderedMap.get?_eq_some_iff.mpr hmem]
  rfl

/-- Every grant is the baseline of the platform or declared. -/
theorem mem_grants (h : s.grants library = .ok all) {id : String} {g : Grant}
    (hg : g ∈ all.of id) :
    g = Grant.baseline s.platform ∨ ∃ d : Declaration, g ∈ d.grants := by
  unfold Grants.of at hg
  cases hget : all.byLambda.get? id with
  | none =>
      simp only [hget, Option.getD_none] at hg
      exact absurd hg OrderedSet.not_mem_empty
  | some granted =>
      simp only [hget, Option.getD_some] at hg
      obtain ⟨_, _, _, hown⟩ := (Distinct.exists_of_forall₂ (grants_eq_ok_iff.mp h)).2 _
        (OrderedMap.get?_eq_some_iff.mp hget)
      exact ((Declaration.aggregate_eq_ok_iff.mp hown).2 g).mp hg |>.imp_right
        fun ⟨d, _, hd⟩ => ⟨d, hd⟩

/-- Only the assigned roles come from grants; metrics are never granted for reading. -/
theorem role_of_grants (h : s.grants library = .ok all) {id : String}
    {a : RoleAssignment} (ha : a ∈ RoleAssignment.ofGrants (all.of id) s.account) :
    a.role ∈ RoleAssignment.assigned := by
  obtain ⟨g, hg, hrole⟩ := List.mem_flatMap.mp (OrderedSet.mem_ofList.mp ha)
  -- what a service is granted is the baseline or the level that was declared
  have hservice : ∀ service : AzureService, g.service = .azure service →
      service.role g.level ∈ RoleAssignment.assigned := by
    intro service hs
    rcases mem_grants h hg with rfl | ⟨d, hd⟩
    · cases hplatform : s.platform with
      | aws =>
          rw [hplatform] at hs
          cases hs
      | azure =>
          rw [hplatform] at hs
          cases hs
          simp [Grant.baseline, Grant.azure, AzureService.role, RoleAssignment.assigned]
    · have hne := Declaration.ne_insights_of_grants hd hs
      cases service <;> cases g.level <;> simp [AzureService.role, RoleAssignment.assigned] at hne ⊢
  unfold RoleAssignment.ofGrant at hrole
  cases hs : g.service with
  | aws service =>
      rw [hs] at hrole
      cases hrole
  | azure service =>
      rw [hs] at hrole
      obtain ⟨p, _, rfl⟩ := List.mem_map.mp hrole
      exact hservice service hs

end Schema
end InfraGraph
