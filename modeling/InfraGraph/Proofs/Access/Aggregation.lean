import InfraGraph.Proofs.Access
import InfraGraph.Proofs.Schema.Acceptance

/-!
# Grants depend on what is declared, not on how

Grants are a set: order, repetition and sources of declarations leave no trace in it, and the grants
of two lists together are those of both.  Declarations of another platform are refused here just as
they are reported when the schema is checked.  Main statements:

* `Declaration.toOption_aggregate_congr`, `Declaration.aggregate_append` — grants as a function of
  what is declared;
* `Violation.IsUnsupported`, `Schema.exists_isUnsupported_iff` — the violations that tell of another
  platform;
* `Schema.exists_grants_error_iff` — grants are refused iff such a violation is reported;
* `Schema.grants_exact` — the grants of declarations and of schemas, and every error.
-/

namespace InfraGraph

/-! ## Lists of declarations -/

namespace Declaration

variable {ds es : List Declaration} {platform : Platform}

/-- The same resources are declared with the same levels. -/
def SameAccess (ds es : List Declaration) : Prop :=
  ∀ (r : DeclaredResource) (level : AccessLevel),
    (∃ d ∈ ds, d.resource = r ∧ d.level = level) ↔ ∃ e ∈ es, e.resource = r ∧ e.level = level

/-- Declarations of the same access agree on all that depends on resource and level. -/
theorem SameAccess.exists_iff (h : SameAccess ds es) (p : DeclaredResource → AccessLevel → Prop) :
    (∃ d ∈ ds, p d.resource d.level) ↔ ∃ e ∈ es, p e.resource e.level := by
  constructor
  · rintro ⟨d, hd, hp⟩
    obtain ⟨e, he, hresource, hlevel⟩ := (h d.resource d.level).mp ⟨d, hd, rfl, rfl⟩
    exact ⟨e, he, by rwa [hresource, hlevel]⟩
  · rintro ⟨e, he, hp⟩
    obtain ⟨d, hd, hresource, hlevel⟩ := (h e.resource e.level).mpr ⟨e, he, rfl, rfl⟩
    exact ⟨d, hd, by rwa [hresource, hlevel]⟩

/-- Order, repetition and sources of declarations leave no trace in their grants. -/
theorem toOption_aggregate_congr (h : SameAccess ds es) :
    (aggregate ds platform).toOption = (aggregate es platform).toOption := by
  have hplatform : (∀ d ∈ ds, d.resource.platform = platform) ↔
      ∀ e ∈ es, e.resource.platform = platform := by
    have hforeign := h.exists_iff fun r _ => r.platform ≠ platform
    simpa using not_congr hforeign
  have hok : ∀ set, aggregate ds platform = .ok set ↔ aggregate es platform = .ok set := by
    intro set
    have hgrants : ∀ g : Grant, (∃ d ∈ ds, g ∈ d.grants) ↔ ∃ e ∈ es, g ∈ e.grants := fun g =>
      h.exists_iff fun r level => g ∈ r.expand level
    simp only [aggregate_eq_ok_iff, hplatform, hgrants]
  cases hds : aggregate ds platform with
  | ok set => rw [(hok set).mp hds]
  | error e =>
      cases hes : aggregate es platform with
      | ok set =>
          rw [(hok set).mpr hes] at hds
          cases hds
      | error e' => rfl

/-- Declarations together are granted what they are granted apart; the first list is refused before
the second. -/
theorem aggregate_append (ds es : List Declaration) (platform : Platform) :
    aggregate (ds ++ es) platform = (do
      let first ← aggregate ds platform
      let second ← aggregate es platform
      return first.insertAll second.toList) := by
  have hforeign : foreign? platform (ds ++ es) =
      (foreign? platform ds).or (foreign? platform es) := by
    rw [foreign?, List.find?_append, Option.map_or]
    rfl
  simp only [aggregate, hforeign]
  cases foreign? platform ds with
  | some e => rfl
  | none =>
      cases foreign? platform es with
      | some e => rfl
      | none =>
          refine congrArg Except.ok (OrderedSet.ext fun g => ?_)
          simp only [OrderedSet.mem_insertAll, ← OrderedSet.mem_def, OrderedSet.mem_ofList,
            List.flatMap_append, List.mem_cons, List.mem_append]
          tauto

end Declaration

/-! ## Violations that tell of another platform -/

/-- A violation says that a declaration is not supported on the platform. -/
def Violation.IsUnsupported : Violation → Prop
  | .foreignPermission .. => True
  | .foreignLibraryPermission .. => True
  | _ => False

/-- What holds of a violation holds of a rule that may report it. -/
@[simp]
theorem forall_mem_violates {condition : Bool} {v : Violation} {p : Violation → Prop} :
    (∀ w ∈ violates condition v, p w) ↔ (condition = true → p v) := by
  cases condition <;> simp [violates]

theorem not_isUnsupported_collisions {family : NameFamily} {names : List (String × String)} :
    ∀ v ∈ collisions family names, ¬v.IsUnsupported := by
  have hfrom : ∀ taken : List (String × String), ∀ v ∈ collisionsFrom family taken names,
      ¬v.IsUnsupported := by
    induction names with
    | nil => simp [collisionsFrom]
    | cons entry rest ih =>
        intro taken
        rw [collisionsFrom]
        split
        · simp only [List.forall_mem_append, forall_mem_violates]
          exact ⟨fun _ => id, ih _⟩
        · exact ih _
  exact hfrom []

namespace Schema

variable {s : Schema}

theorem not_isUnsupported_header : ∀ v ∈ s.headerViolations, ¬v.IsUnsupported := by
  simp only [headerViolations, List.forall_mem_append, forall_mem_violates]
  simp [Violation.IsUnsupported]

theorem not_isUnsupported_route : ∀ v ∈ s.routeViolations, ¬v.IsUnsupported := by
  have hdynamic : ∀ (routes : List DynamicRoute) (seen : List (HttpMethod × UriPath)),
      ∀ v ∈ s.dynamicViolations seen routes, ¬v.IsUnsupported := by
    intro routes
    induction routes with
    | nil => simp [dynamicViolations]
    | cons r rest ih =>
        intro seen
        simp only [dynamicViolations, List.forall_mem_append, forall_mem_violates]
        exact ⟨⟨fun _ => id, fun _ => id⟩, ih _⟩
  have hstatic : ∀ (routes : List StaticRoute) (seen : List UriPath),
      ∀ v ∈ s.staticViolations seen routes, ¬v.IsUnsupported := by
    intro routes
    induction routes with
    | nil => simp [staticViolations]
    | cons r rest ih =>
        intro seen
        simp only [staticViolations, List.forall_mem_append, forall_mem_violates]
        exact ⟨⟨⟨⟨fun _ => id, fun _ => id⟩, fun _ => id⟩, fun _ => id⟩, ih _⟩
  simp only [routeViolations, List.forall_mem_append, forall_mem_violates]
  exact ⟨⟨fun _ => id, hdynamic _ _⟩, hstatic _ _⟩

theorem not_isUnsupported_timer {seen : List String} {timers : List Timer} :
    ∀ v ∈ s.timerViolations seen timers, ¬v.IsUnsupported := by
  induction timers generalizing seen with
  | nil => simp [timerViolations]
  | cons t rest ih =>
      simp only [timerViolations, List.forall_mem_append, forall_mem_violates]
      exact ⟨⟨⟨fun _ => id, fun _ => id⟩, fun _ => id⟩, ih⟩

theorem not_isUnsupported_feature : ∀ v ∈ s.featureViolations, ¬v.IsUnsupported := by
  unfold featureViolations
  split
  · simp only [List.forall_mem_append, forall_mem_violates]
    exact ⟨fun _ => id, fun _ => id⟩
  · exact List.forall_mem_nil _

/-- No declaration is reported as unsupported iff those of lambdas and of the library are all of the
schema's platform. -/
theorem forall_not_isUnsupported_iff : (∀ v ∈ s.violations, ¬v.IsUnsupported) ↔
    (∀ entry ∈ s.lambdas.entries, ∀ d ∈ entry.2.permissions, d.resource.platform = s.platform) ∧
      ∀ d ∈ s.libraryPermissions, d.resource.platform = s.platform := by
  have hlambda : ∀ (id : String) (l : Lambda), (∀ v ∈ s.lambdaViolations id l, ¬v.IsUnsupported) ↔
      ∀ d ∈ l.permissions, d.resource.platform = s.platform := by
    intro id l
    simp only [lambdaViolations, List.forall_mem_append, List.forall_mem_flatMap,
      forall_mem_violates]
    simp [Violation.IsUnsupported]
  have hlibrary : (∀ v ∈ s.libraryViolations, ¬v.IsUnsupported) ↔
      ∀ d ∈ s.libraryPermissions, d.resource.platform = s.platform := by
    simp only [libraryViolations, List.forall_mem_flatMap, forall_mem_violates]
    simp [Violation.IsUnsupported]
  have hidentifier : ∀ v ∈ s.identifierViolations, ¬v.IsUnsupported := by
    simp only [identifierViolations, List.forall_mem_append]
    exact ⟨⟨⟨⟨not_isUnsupported_collisions, not_isUnsupported_collisions⟩,
      not_isUnsupported_collisions⟩, not_isUnsupported_collisions⟩, not_isUnsupported_collisions⟩
  simp only [violations, List.forall_mem_append, List.forall_mem_flatMap, hlambda, hlibrary]
  constructor
  · rintro ⟨⟨⟨⟨⟨⟨-, hown⟩, hshared⟩, -⟩, -⟩, -⟩, -⟩
    exact ⟨hown, hshared⟩
  · rintro ⟨hown, hshared⟩
    exact ⟨⟨⟨⟨⟨⟨not_isUnsupported_header, hown⟩, hshared⟩, not_isUnsupported_route⟩,
      not_isUnsupported_timer⟩, hidentifier⟩, not_isUnsupported_feature⟩

/-- Where there are lambdas, their grants are refused iff a declaration is reported as
unsupported. -/
theorem exists_grants_error_iff (h : s.lambdas.entries ≠ []) :
    (∃ e, s.grants s.libraryPermissions = .error e) ↔ ∃ v ∈ s.violations, v.IsUnsupported := by
  constructor
  · rintro ⟨e, he⟩
    by_contra hnone
    obtain ⟨hown, hshared⟩ :=
      forall_not_isUnsupported_iff.mp fun v hv hunsupported => hnone ⟨v, hv, hunsupported⟩
    obtain ⟨all, hall⟩ := exists_grants hown hshared
    rw [he] at hall
    cases hall
  · rintro ⟨v, hv, hunsupported⟩
    cases hgrants : s.grants s.libraryPermissions with
    | error e => exact ⟨e, rfl⟩
    | ok all =>
        -- every lambda is granted what the library declares, so there has to be one
        have hplatform : ∀ entry ∈ s.lambdas.entries,
            ∀ d ∈ entry.2.permissions ++ s.libraryPermissions, d.resource.platform = s.platform :=
          fun entry hentry =>
            (Declaration.aggregate_eq_ok_iff.mp (grants_of_mem hgrants hentry)).1
        obtain ⟨first, hfirst⟩ := List.exists_mem_of_ne_nil _ h
        have hnone := forall_not_isUnsupported_iff.mpr
          ⟨fun entry hentry d hd => hplatform entry hentry d (List.mem_append_left _ hd),
            fun d hd => hplatform first hfirst d (List.mem_append_right _ hd)⟩
        exact absurd hunsupported (hnone v hv)

/-- Declarations are granted iff all of them are of the platform; their grants are the baseline and
what they stand for, so these depend on the resources and levels alone, and two lists together have
those of both.  Otherwise the first declaration of another platform is refused.  For a schema the
grants of every lambda are those of its own declarations and the library's, up to the first lambda
that is refused, and with the schema's own library that happens iff a declaration is reported as
unsupported. -/
theorem grants_exact :
    (∀ (ds : List Declaration) (platform : Platform),
      (∀ set, Declaration.aggregate ds platform = .ok set ↔
        (∀ d ∈ ds, d.resource.platform = platform) ∧
          ∀ g, g ∈ set ↔ g = Grant.baseline platform ∨ ∃ d ∈ ds, g ∈ d.grants) ∧
      (∀ e, Declaration.aggregate ds platform = .error e ↔
        ∃ before d after, ds = before ++ d :: after ∧
          (∀ b ∈ before, b.resource.platform = platform) ∧ d.resource.platform ≠ platform ∧
          e = .invalidDeclaration d.resource.kind platform d.location) ∧
      ∀ es,
        (Declaration.SameAccess ds es →
          (Declaration.aggregate ds platform).toOption =
            (Declaration.aggregate es platform).toOption) ∧
        Declaration.aggregate (ds ++ es) platform = (do
          let first ← Declaration.aggregate ds platform
          let second ← Declaration.aggregate es platform
          return first.insertAll second.toList)) ∧
    ∀ (s : Schema) (library : List Declaration),
      (∀ all, s.grants library = .ok all ↔
        List.Forall₂ (fun (entry : String × Lambda) (granted : String × OrderedSet Grant) =>
          entry.1 = granted.1 ∧
            Declaration.aggregate (entry.2.permissions ++ library) s.platform = .ok granted.2)
          s.lambdas.entries all.byLambda.entries) ∧
      (∀ e, s.grants library = .error e ↔
        ∃ before entry after, s.lambdas.entries = before ++ entry :: after ∧
          (∀ b ∈ before, ∃ set,
            Declaration.aggregate (b.2.permissions ++ library) s.platform = .ok set) ∧
          Declaration.aggregate (entry.2.permissions ++ library) s.platform = .error e) ∧
      (s.lambdas.entries ≠ [] →
        ((∃ e, s.grants s.libraryPermissions = .error e) ↔
         ∃ v ∈ s.violations, v.IsUnsupported)) := by
  refine ⟨fun ds platform => ⟨fun set => Declaration.aggregate_eq_ok_iff,
    fun e => Declaration.aggregate_eq_error_iff, fun es => ⟨?_, ?_⟩⟩,
    fun s library => ⟨fun all => grants_eq_ok_iff, fun e => grants_eq_error_iff,
      exists_grants_error_iff⟩⟩
  · exact Declaration.toOption_aggregate_congr
  · exact Declaration.aggregate_append ds es platform

/-- An application on AWS that links a library written for Azure. -/
def linking : Schema :=
  { shop with
    libraryPermissions :=
      [⟨.sqsQueue "jobs", .write, none⟩, ⟨.azureResource "vault", .read, some "Vault.kt:7"⟩,
        ⟨.azureStorageAccount "media" "shop", .read, none⟩] }

/-- The first foreign declaration of the library is refused, with its source, and reported; the
order of declarations leaves no trace in what is granted. -/
theorem grants_exact_linking :
    linking.lambdas.entries ≠ [] ∧
      linking.grants linking.libraryPermissions =
        .error (.invalidDeclaration .azureResource .aws "Vault.kt:7") ∧
      (∃ v ∈ linking.violations, v.IsUnsupported) ∧
      (Declaration.aggregate [⟨.cognito "pool", .read, none⟩, ⟨.sqsQueue "jobs", .write, none⟩]
          .aws).toOption =
        (Declaration.aggregate [⟨.sqsQueue "jobs", .write, some "Jobs.kt:3"⟩,
          ⟨.cognito "pool", .read, none⟩, ⟨.sqsQueue "jobs", .write, none⟩] .aws).toOption := by
  obtain ⟨hdeclarations, hschemas⟩ := grants_exact
  obtain ⟨-, hrefused, hreported⟩ := hschemas linking linking.libraryPermissions
  have hlambdas : linking.lambdas.entries ≠ [] := List.cons_ne_nil _ _
  have haggregate := (hdeclarations linking.libraryPermissions .aws).2.1
    (.invalidDeclaration .azureResource .aws "Vault.kt:7")
  have hgrants := (hrefused _).mpr ⟨[], _, [], rfl, List.forall_mem_nil _,
    haggregate.mpr ⟨[_], _, [_], rfl, List.forall_mem_singleton.mpr rfl, by decide, rfl⟩⟩
  refine ⟨hlambdas, hgrants, (hreported hlambdas).mp ⟨_, hgrants⟩, ?_⟩
  refine ((hdeclarations _ .aws).2.2 _).1 fun r level => ?_
  simp only [List.exists_mem_cons_iff, List.not_mem_nil, false_and, exists_false, or_false]
  tauto

end Schema
end InfraGraph
