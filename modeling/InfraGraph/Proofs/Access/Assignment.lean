import InfraGraph.Proofs.Access
import InfraGraph.Proofs.Marker
import Mathlib.Data.Set.Lattice

/-!
# What is assigned on Azure

Declarations become role assignments by way of grants.  The grant of a storage account holds its
resource group and its name as one text with a slash between them, and the first slash of this text
is taken for that one.  So the assigned roles are those that the declarations ask for as long as no
resource group holds a slash itself.

* `Declaration.asksFor`, `Declaration.receives` — what a declaration asks for, and what comes of it;
* `AzureService.accountScope_injOn` — scopes tell resource groups without a slash apart;
* `Declaration.exists_roles` — the assignments of a list of declarations;
* `Declaration.roles_exact` — when exactly what is asked for is assigned;
* `Declaration.not_asked_nested` — a resource group that is cut at its slash.
-/

namespace InfraGraph

/-! ## Storage accounts -/

/-- Role that a level gives on whatever is declared. -/
def AccessLevel.role : AccessLevel → String
  | read => "Reader"
  | _ => "Contributor"

namespace AzureService

/-- Every service but the one for metrics is assigned the role of the level. -/
theorem role_of_ne_insights {service : AzureService} (h : service ≠ .insights)
    (level : AccessLevel) : service.role level = level.role := by
  cases service with
  | insights => exact absurd rfl h
  | resource | storageAccount => cases level <;> rfl

/-- Scope of a storage account in a resource group of a subscription. -/
def accountScope (subscription group name : String) : String :=
  "/subscriptions/" ++ subscription ++ "/resourceGroups/" ++ group ++
    "/providers/Microsoft.Storage/storageAccounts/" ++ name

/-- A text is split at its first slash. -/
theorem groupAndName_of_not_mem {group : String} (name : String) (h : ¬ '/' ∈ group.toList) :
    groupAndName (group ++ "/" ++ name) = (group, name) := by
  have hgroup : ∀ c ∈ group.toList, (c != '/') = true := by
    intro c hc
    simp only [bne_iff_ne]
    rintro rfl
    exact h hc
  have htext : (group ++ "/" ++ name).toList = group.toList ++ '/' :: name.toList := by simp
  have hboundary : ∀ c ∈ ('/' :: name.toList).head?, (c != '/') = false := by simp
  simp only [groupAndName, htext, Marker.dropWhile_of_boundary hgroup hboundary,
    Marker.takeWhile_of_boundary hgroup hboundary, String.ofList_toList]

/-- A group without a slash is read as it was written. -/
theorem scope_storageAccount {group name : String} (h : ¬ '/' ∈ group.toList)
    (subscription : String) :
    storageAccount.scope (group ++ "/" ++ name) subscription =
      accountScope subscription group name := by
  unfold scope
  rw [groupAndName_of_not_mem name h]
  rfl

/-- Group and name with a slash between them have a first slash. -/
theorem exists_first_slash (group name : String) :
    ∃ first rest, ¬ '/' ∈ first.toList ∧ first ++ "/" ++ rest = group ++ "/" ++ name := by
  by_cases h : '/' ∈ group.toList
  · obtain ⟨front, back, hgroup, hfront⟩ := List.eq_append_cons_of_mem h
    refine ⟨.ofList front, .ofList (back ++ '/' :: name.toList), by simpa using hfront, ?_⟩
    apply String.toList_injective
    simp [hgroup]
  · exact ⟨group, name, h, rfl⟩

/-- Resource groups without a slash are told apart by the scopes of their accounts, and so are the
accounts. -/
theorem accountScope_injOn {subscription group group' name name' : String}
    (h : ¬ '/' ∈ group.toList) (h' : ¬ '/' ∈ group'.toList)
    (he : accountScope subscription group name = accountScope subscription group' name') :
    group = group' ∧ name = name' := by
  -- what stands behind a group begins with a slash
  have hslash : "/providers/Microsoft.Storage/storageAccounts/".toList =
      '/' :: "providers/Microsoft.Storage/storageAccounts/".toList := rfl
  exact Marker.texts_eq_of_between hslash h h' he

end AzureService

namespace RoleAssignment

variable {subscription : String} {a b : RoleAssignment}

/-- Assignments are ordered by role, then scope. -/
theorem compare_eq_lt_iff :
    compare a b = .lt ↔ a.role < b.role ∨ a.role = b.role ∧ a.scope < b.scope := by
  have hthen : compare a b = (compare a.role b.role).then (compare a.scope b.scope) := rfl
  rw [hthen, Ordering.then_eq_lt, Std.compare_eq_iff_eq]
  exact or_congr compareOfLessAndEq_eq_lt (and_congr_right fun _ => compareOfLessAndEq_eq_lt)

/-- An Azure grant asks for one role on the scope of its pattern. -/
theorem mem_ofGrant_azure_iff {service : AzureService} {level : AccessLevel} {p : String} :
    a ∈ ofGrant subscription (.azure service level p) ↔
      a.role = service.role level ∧ a.scope = service.scope p subscription := by
  rcases a with ⟨role, scope⟩
  simp [ofGrant, Grant.azure, OrderedSet.singleton]

theorem mem_ofGrants_iff {grants : OrderedSet Grant} :
    a ∈ ofGrants grants subscription ↔ ∃ g ∈ grants, a ∈ ofGrant subscription g := by
  rw [ofGrants, OrderedSet.mem_ofList, List.mem_flatMap]
  rfl

end RoleAssignment

/-! ## Scopes of declared resources -/

namespace DeclaredResource

/-- Scope that a declared resource names; resources of AWS name none. -/
def scope? (subscription : String) : DeclaredResource → Option String
  | azureResource id => some id
  | azureStorageAccount name resourceGroup =>
      some (AzureService.accountScope subscription resourceGroup name)
  | _ => none

/-- No resource group of a storage account holds a slash. -/
def GroupIsPlain : DeclaredResource → Prop
  | azureStorageAccount _ resourceGroup => ¬ '/' ∈ resourceGroup.toList
  | _ => True

instance : DecidablePred GroupIsPlain
  | azureStorageAccount _ resourceGroup =>
      inferInstanceAs (Decidable (¬ '/' ∈ resourceGroup.toList))
  | s3Bucket _ | ssmParameters _ | dynamoDbTable _ | sqsQueue _ | cognito _ | secretManager _
  | azureResource _ => inferInstanceAs (Decidable True)

/-- Scope that a declared resource is assigned on.  For a storage account, group and name are what
stands before and behind the first slash of its resource group and name. -/
def AssignedOn (subscription scope : String) : DeclaredResource → Prop
  | azureResource id => scope = id
  | azureStorageAccount name resourceGroup => ∃ first rest, ¬ '/' ∈ first.toList ∧
      first ++ "/" ++ rest = resourceGroup ++ "/" ++ name ∧
      scope = AzureService.accountScope subscription first rest
  | _ => False

variable {subscription scope : String} {r : DeclaredResource}

/-- A storage account is assigned on one scope, that made with the first slash. -/
theorem assignedOn_account_iff {name group first rest : String} (hfirst : ¬ '/' ∈ first.toList)
    (htext : first ++ "/" ++ rest = group ++ "/" ++ name) :
    (azureStorageAccount name group).AssignedOn subscription scope ↔
      scope = AzureService.accountScope subscription first rest := by
  constructor
  · rintro ⟨first', rest', hfirst', htext', rfl⟩
    have hsplit := AzureService.groupAndName_of_not_mem rest' hfirst'
    rw [htext', ← htext, AzureService.groupAndName_of_not_mem rest hfirst] at hsplit
    cases hsplit
    rfl
  · intro hscope
    exact ⟨first, rest, hfirst, htext, hscope⟩

/-- A resource whose group is plain is assigned on the scope that it names. -/
theorem assignedOn_iff_of_plain (h : r.GroupIsPlain) :
    r.AssignedOn subscription scope ↔ r.scope? subscription = some scope := by
  cases r with
  | azureResource id => simp [AssignedOn, scope?, eq_comm]
  | azureStorageAccount name resourceGroup =>
      rw [assignedOn_account_iff h rfl, scope?, Option.some.injEq, eq_comm]
  | s3Bucket _ | ssmParameters _ | dynamoDbTable _ | sqsQueue _ | cognito _ | secretManager _ =>
      simp [AssignedOn, scope?]

/-- Two storage accounts are assigned on one scope iff their resource groups and names make one
text. -/
theorem assignedOn_common_iff {name group name' group' : String} :
    (∃ scope, (azureStorageAccount name group).AssignedOn subscription scope ∧
        (azureStorageAccount name' group').AssignedOn subscription scope) ↔
      group ++ "/" ++ name = group' ++ "/" ++ name' := by
  constructor
  · rintro ⟨scope, ⟨first, rest, hfirst, htext, rfl⟩, first', rest', hfirst', htext', hscope⟩
    rcases AzureService.accountScope_injOn hfirst hfirst' hscope with ⟨rfl, rfl⟩
    rw [← htext, htext']
  · intro h
    rcases AzureService.exists_first_slash group name with ⟨first, rest, hfirst, htext⟩
    exact ⟨_, ⟨first, rest, hfirst, htext, rfl⟩, first, rest, hfirst, htext.trans h, rfl⟩

/-- The grants of a resource assign the role of their level on its scope. -/
theorem mem_ofGrant_expand_iff {level : AccessLevel} {a : RoleAssignment} :
    (∃ g ∈ r.expand level, a ∈ RoleAssignment.ofGrant subscription g) ↔
      a.role = level.role ∧ r.AssignedOn subscription a.scope := by
  cases r with
  | azureResource id =>
      simp only [expand, List.mem_singleton, exists_eq_left, RoleAssignment.mem_ofGrant_azure_iff]
      rw [AzureService.role_of_ne_insights (by decide)]
      rfl
  | azureStorageAccount name resourceGroup =>
      simp only [expand, List.mem_singleton, exists_eq_left, RoleAssignment.mem_ofGrant_azure_iff]
      rw [AzureService.role_of_ne_insights (by decide)]
      rcases AzureService.exists_first_slash resourceGroup name with ⟨first, rest, hfirst, htext⟩
      rw [assignedOn_account_iff hfirst htext, ← htext, AzureService.scope_storageAccount hfirst]
  | s3Bucket _ | ssmParameters _ | dynamoDbTable _ | sqsQueue _ | cognito _ | secretManager _ =>
      simp [expand, AssignedOn, RoleAssignment.ofGrant, Grant.aws]

end DeclaredResource

/-! ## Assignments of declarations -/

namespace Declaration

/-- Assignments that a declaration asks for: the role of its level on the scope that it names. -/
def asksFor (subscription : String) (d : Declaration) : Set RoleAssignment :=
  {a | a.role = d.level.role ∧ d.resource.scope? subscription = some a.scope}

/-- Assignments that come of a declaration. -/
def receives (subscription : String) (d : Declaration) : Set RoleAssignment :=
  {a | a.role = d.level.role ∧ d.resource.AssignedOn subscription a.scope}

/-- The assignment of every application: publishing its metrics. -/
def metrics (subscription : String) : RoleAssignment :=
  ⟨"Monitoring Metrics Publisher", "/subscriptions/" ++ subscription⟩

def roles (ds : List Declaration) (subscription : String) :
    Except GenerationError (OrderedSet RoleAssignment) :=
  (fun grants => RoleAssignment.ofGrants grants subscription) <$> aggregate ds .azure

variable {ds : List Declaration} {subscription : String}

/-- Where the group has no slash, a declaration receives what it asks for. -/
theorem receives_eq_asksFor {d : Declaration} (h : d.resource.GroupIsPlain) :
    d.receives subscription = d.asksFor subscription := by
  ext a
  exact and_congr_right fun _ => DeclaredResource.assignedOn_iff_of_plain h

/-- A storage account receives one assignment, on the scope made with the first slash. -/
theorem receives_account {level : AccessLevel} {name group first rest : String}
    {source : Option String} (hfirst : ¬ '/' ∈ first.toList)
    (htext : first ++ "/" ++ rest = group ++ "/" ++ name) :
    receives subscription ⟨.azureStorageAccount name group, level, source⟩ =
      {⟨level.role, AzureService.accountScope subscription first rest⟩} := by
  ext ⟨role, scope⟩
  rw [Set.mem_singleton_iff, RoleAssignment.mk.injEq]
  exact and_congr_right fun _ => DeclaredResource.assignedOn_account_iff hfirst htext

theorem mem_ofGrant_baseline_iff {a : RoleAssignment} :
    a ∈ RoleAssignment.ofGrant subscription (Grant.baseline .azure) ↔ a = metrics subscription := by
  rcases a with ⟨role, scope⟩
  rw [Grant.baseline, RoleAssignment.mem_ofGrant_azure_iff, metrics, RoleAssignment.mk.injEq]
  rfl

/-- Assigned is what comes of the declarations, each by itself, and the baseline. -/
theorem exists_roles (subscription : String) (hazure : ∀ d ∈ ds, d.resource.platform = .azure) :
    ∃ assigned, roles ds subscription = .ok assigned ∧
      ∀ a, a ∈ assigned ↔ a = metrics subscription ∨ ∃ d ∈ ds, a ∈ d.receives subscription := by
  refine ⟨_, by rw [roles, aggregate_eq_ok hazure]; rfl, fun a => ?_⟩
  have hdeclared : (∃ g ∈ ds.flatMap grants, a ∈ RoleAssignment.ofGrant subscription g) ↔
      ∃ d ∈ ds, a ∈ d.receives subscription := by
    simp only [List.mem_flatMap]
    constructor
    · rintro ⟨g, ⟨d, hd, hg⟩, ha⟩
      exact ⟨d, hd, DeclaredResource.mem_ofGrant_expand_iff.mp ⟨g, hg, ha⟩⟩
    · rintro ⟨d, hd, ha⟩
      obtain ⟨g, hg, ha⟩ := DeclaredResource.mem_ofGrant_expand_iff.mpr ha
      exact ⟨g, ⟨d, hd, hg⟩, ha⟩
  rw [RoleAssignment.mem_ofGrants_iff, ← hdeclared, ← mem_ofGrant_baseline_iff]
  simp only [OrderedSet.mem_ofList, List.mem_cons, exists_eq_or_imp]

/-- Declarations whose resource groups hold no slash are assigned what they ask for, the baseline
and nothing else, once each and in order.  In general the group is taken to end at the first slash,
so storage accounts whose group and name make one text are assigned on one scope. -/
theorem roles_exact (ds : List Declaration) (subscription : String)
    (hazure : ∀ d ∈ ds, d.resource.platform = .azure) :
    ∃ assigned, roles ds subscription = .ok assigned ∧ assigned.toList.Nodup ∧
      assigned.toList.Pairwise
        (fun a b => a.role < b.role ∨ a.role = b.role ∧ a.scope < b.scope) ∧
      (∀ a, a ∈ assigned ↔
        a = metrics subscription ∨ ∃ d ∈ ds, a ∈ d.receives subscription) ∧
      ((∀ d ∈ ds, d.resource.GroupIsPlain) → ∀ a, a ∈ assigned ↔
        a = metrics subscription ∨ ∃ d ∈ ds, a ∈ d.asksFor subscription) ∧
      ∀ name group name' group' : String,
        ((∃ scope, (DeclaredResource.azureStorageAccount name group).AssignedOn subscription scope ∧
            (DeclaredResource.azureStorageAccount name' group').AssignedOn subscription scope) ↔
          group ++ "/" ++ name = group' ++ "/" ++ name') ∧
        (¬ '/' ∈ group.toList → ¬ '/' ∈ group'.toList →
          AzureService.accountScope subscription group name =
            AzureService.accountScope subscription group' name' →
             group = group' ∧ name = name') := by
  obtain ⟨assigned, hassigned, hmem⟩ := exists_roles subscription hazure
  have hordered : assigned.toList.Pairwise
      (fun a b => a.role < b.role ∨ a.role = b.role ∧ a.scope < b.scope) :=
    assigned.ascending.imp RoleAssignment.compare_eq_lt_iff.mp
  refine ⟨assigned, hassigned, assigned.nodup_toList, hordered, hmem, ?_, ?_⟩
  · intro hplain a
    rw [hmem a]
    refine or_congr_right (exists_congr fun d => and_congr_right fun hd => ?_)
    rw [receives_eq_asksFor (hplain d hd)]
  · intro name group name' group'
    exact ⟨DeclaredResource.assignedOn_common_iff, AzureService.accountScope_injOn⟩

/-- A storage account that is read, and a resource that is read and written. -/
def media : List Declaration :=
  [⟨.azureStorageAccount "files" "media", .read, none⟩,
    ⟨.azureResource "/subscriptions/s/vaults/keys", .readWrite, some "Media.kt:7"⟩]

/-- The storage account is assigned for reading, and not for writing. -/
theorem roles_exact_media : (∀ d ∈ media, d.resource.platform = .azure) ∧
    (∀ d ∈ media, d.resource.GroupIsPlain) ∧
    ∃ assigned, roles media "s" = .ok assigned ∧
      ⟨"Reader", AzureService.accountScope "s" "media" "files"⟩ ∈ assigned ∧
      ¬⟨"Contributor", AzureService.accountScope "s" "media" "files"⟩ ∈ assigned := by
  have hazure : ∀ d ∈ media, d.resource.platform = .azure := by decide
  have hplain : ∀ d ∈ media, d.resource.GroupIsPlain := by decide
  obtain ⟨assigned, hassigned, _, _, _, hasked, _⟩ := roles_exact media "s" hazure
  refine ⟨hazure, hplain, assigned, hassigned, ?_, ?_⟩
  · exact (hasked hplain _).mpr (Or.inr ⟨_, List.mem_cons_self, rfl, rfl⟩)
  · intro hmem
    rcases (hasked hplain _).mp hmem with hmetrics | ⟨d, hd, hrole, hscope⟩
    · exact absurd (congrArg RoleAssignment.role hmetrics) (by decide)
    · -- only the resource is written, and it is no storage account
      have hwritten : ∀ d ∈ media, "Contributor" = d.level.role →
          d.resource.scope? "s" ≠ some (AzureService.accountScope "s" "media" "files") := by decide
      exact hwritten d hd hrole hscope

/-- Two storage accounts whose group and name make one text. -/
def nested : List Declaration :=
  [⟨.azureStorageAccount "c" "a/b", .read, none⟩, ⟨.azureStorageAccount "b/c" "a", .read, none⟩]

/-- The account of the nested group is not assigned on the scope that it names, but on that of the
other one. -/
theorem not_asked_nested : (∀ d ∈ nested, d.resource.platform = .azure) ∧
    ∃ assigned, roles nested "s" = .ok assigned ∧
      (∀ d ∈ nested, d.receives "s" = {⟨"Reader", AzureService.accountScope "s" "a" "b/c"⟩}) ∧
      ¬∀ a, a ∈ assigned ↔ a = metrics "s" ∨ ∃ d ∈ nested, a ∈ d.asksFor "s" := by
  have hazure : ∀ d ∈ nested, d.resource.platform = .azure := by decide
  obtain ⟨assigned, hassigned, hmem⟩ := exists_roles "s" hazure
  have hreceives : ∀ d ∈ nested,
      d.receives "s" = {⟨"Reader", AzureService.accountScope "s" "a" "b/c"⟩} :=
    List.forall_mem_cons.mpr ⟨receives_account (by decide) (by decide),
      List.forall_mem_singleton.mpr (receives_account (by decide) (by decide))⟩
  refine ⟨hazure, assigned, hassigned, hreceives, fun hall => ?_⟩
  have hnamed : (⟨"Reader", AzureService.accountScope "s" "a/b" "c"⟩ : RoleAssignment) ∈ assigned :=
    (hall _).mpr (Or.inr ⟨_, List.mem_cons_self, rfl, rfl⟩)
  rcases (hmem _).mp hnamed with hmetrics | ⟨d, hd, hd'⟩
  · exact absurd (congrArg RoleAssignment.role hmetrics) (by decide)
  · rw [hreceives d hd] at hd'
    exact absurd (congrArg RoleAssignment.scope hd') (by decide)

end Declaration
end InfraGraph
