import InfraGraph.Proofs.Access
import InfraGraph.Proofs.Azure.Closed
import InfraGraph.Proofs.Digest
import InfraGraph.Proofs.Schema.Acceptance

/-!
# The names of Azure resources tell what they name

What is generated for an entity has labels that depend on the schema and the grants alone.  The name
of an assignment runs id, role and scope together; it ends in the digest of the scope, and the last
word in front of that tells the role.  Main statements:

* `labels`, `map_label` — the labels of what is generated for an entity;
* `FunctionApp.assignmentName_injOn`, `HttpBinding.bindingName_injOn`,
  `TimerBinding.bindingName_injOn` — a name tells what it names;
* `nodup_labels`, `item_eq_of_label` — no label is generated twice, for one item or for two.
-/

namespace InfraGraph

/-- Short digests tell the scopes that a lambda has roles on. -/
def Schema.ScopesApart (s : Schema) (grants : Grants) : Prop :=
  ∀ id ∈ s.lambdas.keys, ∀ a ∈ (RoleAssignment.ofGrants (grants.of id) s.account).toList,
    ∀ b ∈ (RoleAssignment.ofGrants (grants.of id) s.account).toList,
      Digest.short a.scope = Digest.short b.scope → a.scope = b.scope

instance (s : Schema) (grants : Grants) : Decidable (s.ScopesApart grants) :=
  inferInstanceAs (Decidable (∀ id ∈ s.lambdas.keys,
    ∀ a ∈ (RoleAssignment.ofGrants (grants.of id) s.account).toList,
      ∀ b ∈ (RoleAssignment.ofGrants (grants.of id) s.account).toList,
        Digest.short a.scope = Digest.short b.scope → a.scope = b.scope))

namespace Azure

/-! ## Labels -/

namespace FunctionApp

/-- Name of the assignment of a role to a lambda. -/
def assignmentName (id : String) (a : RoleAssignment) : String :=
  Name.identifier [id, a.role, Digest.short a.scope]

def labels (s : Schema) (grants : Grants) (id : String) : List (String × String) :=
  (appKind, Name.identifier [id]) ::
    (RoleAssignment.ofGrants (grants.of id) s.account).toList.map fun a =>
      (roleKind, assignmentName id a)

end FunctionApp

def HttpBinding.bindingName (r : DynamicRoute) : String :=
  Name.identifier ["http_binding", HttpBinding.functionName r]

def TimerBinding.bindingName (t : Timer) : String := Name.identifier ["timer_binding", t.fqId]

def labels (s : Schema) (grants : Grants) : Entity → List (String × String)
  | .lambda id _ => FunctionApp.labels s grants id
  | .route r => [(Binding.kind, HttpBinding.bindingName r)]
  | .timer t => [(Binding.kind, TimerBinding.bindingName t)]
  | _ => []

variable {s : Schema} {grants : Grants} {ctx : Context} {library : List Declaration}

/-- Every state of the schema and the grants generates resources with the labels of the entity. -/
theorem map_label (hazure : s.platform = .azure) (hs : ctx.schema = s)
    (hgrants : ctx.grants = grants)
    {p : Producer} (hp : p ∈ Platform.azure.producers) {e : Entity} (he : e ∈ p.entities s)
    {g : Generated} (hg : p.generate ctx e = .ok g) :
    g.resources.map Resource.label = labels s grants e := by
  simp only [Platform.producers, List.mem_cons, List.not_mem_nil, or_false] at hp
  rcases hp with rfl | rfl | rfl
  · obtain ⟨id, l, _, rfl⟩ := FunctionApp.mem_entities_iff.mp he
    rw [FunctionApp.generate_eq_ok_iff.mp hg, ← hs, ← hgrants]
    simp only [FunctionApp.generateFor, labels, FunctionApp.labels, List.map_cons, List.map_map]
    rfl
  · obtain ⟨r, _, rfl⟩ := HttpBinding.mem_entities_iff.mp he
    obtain ⟨l, app, _, _, rfl⟩ := HttpBinding.generate_eq_ok_iff.mp hg
    rfl
  · obtain ⟨t, _, rfl⟩ := Timers.mem_entities_iff.mp he
    obtain ⟨l, _, rfl⟩ := (Timers.generate_azure_eq_ok_iff (by rw [hs, hazure])).mp hg
    rfl

/-! ## Names of assignments -/

/-- Last word of an assigned role. -/
def lastWord (role : String) : List Char := (Name.tokens [role]).getLastD []

/-- The last word of a role stands at the end of its tokens. -/
theorem tokens_role {role : String} (h : role ∈ RoleAssignment.assigned) :
    ∃ front, Name.tokens [role] = front ++ [lastWord role] := by
  have hnonempty : ∀ r ∈ RoleAssignment.assigned, Name.tokens [r] ≠ [] := by decide +kernel
  have hne := hnonempty role h
  refine ⟨(Name.tokens [role]).dropLast, ?_⟩
  unfold lastWord
  rw [List.getLastD_eq_getLast?, List.getLast?_eq_some_getLast hne]
  exact (List.dropLast_append_getLast hne).symm

/-- Assigned roles differ in their last words. -/
theorem lastWord_injOn {role role' : String} (h : role ∈ RoleAssignment.assigned)
    (h' : role' ∈ RoleAssignment.assigned) (heq : lastWord role = lastWord role') :
    role = role' := by
  have hwords : ∀ r ∈ RoleAssignment.assigned, ∀ r' ∈ RoleAssignment.assigned,
      lastWord r = lastWord r' → r = r' := by decide +kernel
  exact hwords role h role' h' heq

/-- The tokens of an assignment end with the short digest of its scope, which is one token. -/
theorem tokens_assignmentName (id : String) (a : RoleAssignment) :
    Name.tokens [id, a.role, Digest.short a.scope] =
      Name.tokens [id] ++ Name.tokens [a.role] ++ [(Digest.short a.scope).toList] := by
  rw [Name.tokens_cons, Name.tokens_cons a.role, Name.tokens_of_isToken (Digest.isToken_short _),
    List.append_assoc]

/-- The name of an assignment tells the lambda and the role with its scope. -/
theorem FunctionApp.assignmentName_injOn (h : s.Accepted) (hscopes : s.ScopesApart grants)
    (hgrants : s.grants library = .ok grants) {id id' : String} (hid : id ∈ s.lambdas.keys)
    (hid' : id' ∈ s.lambdas.keys) {a b : RoleAssignment}
    (ha : a ∈ RoleAssignment.ofGrants (grants.of id) s.account)
    (hb : b ∈ RoleAssignment.ofGrants (grants.of id') s.account)
    (he : assignmentName id a = assignmentName id' b) : id = id' ∧ a = b := by
  have hrole := Schema.role_of_grants hgrants ha
  have hrole' := Schema.role_of_grants hgrants hb
  obtain ⟨front, hfront⟩ := tokens_role hrole
  obtain ⟨front', hfront'⟩ := tokens_role hrole'
  have htokens : Name.tokens [id] ++ Name.tokens [a.role] ++ [(Digest.short a.scope).toList] =
      Name.tokens [id'] ++ Name.tokens [b.role] ++ [(Digest.short b.scope).toList] := by
    rw [← tokens_assignmentName, ← tokens_assignmentName]
    apply (Name.identifier_eq_iff_tokens _ _).mp he
    · simp [tokens_assignmentName]
    · simp [tokens_assignmentName]
  -- read backwards: the digest, the last word of the role, and with the role its other words
  obtain ⟨hwords, hdigest⟩ := List.append_inj' htokens (by simp only [List.length_singleton])
  have hshort : Digest.short a.scope = Digest.short b.scope :=
    String.toList_injective (List.singleton_inj.mp hdigest)
  have hsame : a.role = b.role := by
    apply lastWord_injOn hrole hrole'
    have hlast : (Name.tokens [id] ++ front) ++ [lastWord a.role] =
        (Name.tokens [id'] ++ front') ++ [lastWord b.role] := by
      rw [List.append_assoc, List.append_assoc, ← hfront, ← hfront']
      exact hwords
    exact List.singleton_inj.mp (List.append_inj' hlast rfl).2
  have hids : id = id' := by
    apply h.lambda_identifiers id hid id' hid'
    apply Name.identifier_eq_iff.mpr
    -- with the same role behind them, the words of the ids are the same
    rw [hsame] at hwords
    unfold Name.words
    rw [List.append_cancel_right hwords]
  subst hids
  refine ⟨rfl, ?_⟩
  have hscope := hscopes id hid a ha b hb hshort
  cases a
  cases b
  simp only at hsame hscope
  rw [hsame, hscope]

/-! ## Names of bindings -/

/-- The tokens of a function begin with its method. -/
theorem HttpBinding.tokens_functionName (r : DynamicRoute) :
    Name.tokens [functionName r] =
      "http".toList :: r.method.lowercase.toList :: Name.tokens r.path.nameParts := by
  have htokens : Name.tokens ("http" :: r.method.text :: r.path.nameParts) =
      "http".toList :: r.method.lowercase.toList :: Name.tokens r.path.nameParts := by
    have hword : Name.tokens ["http"] = ["http".toList] := Name.tokens_of_isToken (by decide)
    rw [Name.tokens_cons, Name.tokens_cons r.method.text, hword, HttpMethod.tokens_text]
    rfl
  unfold functionName
  rw [Name.tokens_identifier, Name.words_of_tokens_ne_nil (by simp [htokens]), htokens]

theorem HttpBinding.tokens_bindingName (r : DynamicRoute) :
    Name.tokens ["http_binding", functionName r] =
      "http".toList :: "binding".toList :: Name.tokens [functionName r] := by
  have hword : Name.tokens ["http_binding"] = ["http".toList, "binding".toList] :=
    Name.tokens_of_joined (by decide) (by decide)
  rw [Name.tokens_cons, hword]
  rfl

theorem TimerBinding.tokens_bindingName (t : Timer) :
    Name.tokens ["timer_binding", t.fqId] =
      "timer".toList :: "binding".toList :: Name.tokens [t.fqId] := by
  have hword : Name.tokens ["timer_binding"] = ["timer".toList, "binding".toList] :=
    Name.tokens_of_joined (by decide) (by decide)
  rw [Name.tokens_cons, hword]
  rfl

/-- The name of the binding of a route tells its method and path. -/
theorem HttpBinding.bindingName_injOn (h : s.Accepted) {r t : DynamicRoute}
    (hr : r ∈ s.routes.dynamic) (ht : t ∈ s.routes.dynamic) (he : bindingName r = bindingName t) :
    r.method = t.method ∧ r.path = t.path := by
  have htokens := (Name.identifier_eq_iff_tokens (by simp [tokens_bindingName])
    (by simp [tokens_bindingName])).mp he
  simp only [tokens_bindingName, tokens_functionName, List.cons.injEq, true_and] at htokens
  refine ⟨HttpMethod.lowercase_injective htokens.1, ?_⟩
  apply h.path_eq (Schema.mem_namedPaths_of_mem_paths (Schema.dynamic_path_mem hr))
    (Schema.mem_namedPaths_of_mem_paths (Schema.dynamic_path_mem ht))
  unfold Name.words
  rw [htokens.2]

/-- The name of the binding of a timer tells its id. -/
theorem TimerBinding.bindingName_injOn (h : s.Accepted) {t u : Timer} (ht : t ∈ s.timers)
    (hu : u ∈ s.timers) (he : bindingName t = bindingName u) : t.id = u.id := by
  have htokens := (Name.identifier_eq_iff_tokens (by simp [tokens_bindingName])
    (by simp [tokens_bindingName])).mp he
  simp only [tokens_bindingName, List.cons.injEq, true_and] at htokens
  apply h.timer_identifiers t ht u hu
  -- an identifier has the words of its texts as tokens, and these tell it
  unfold Timer.fqId at htokens ⊢
  rw [Name.tokens_identifier, Name.tokens_identifier] at htokens
  exact Name.identifier_eq_iff.mpr htokens

/-- No route has a binding named like that of a timer. -/
theorem bindingNames_apart (r : DynamicRoute) (t : Timer) :
    HttpBinding.bindingName r ≠ TimerBinding.bindingName t := by
  intro he
  have htokens := (Name.identifier_eq_iff_tokens (by simp [HttpBinding.tokens_bindingName])
    (by simp [TimerBinding.tokens_bindingName])).mp he
  rw [HttpBinding.tokens_bindingName, TimerBinding.tokens_bindingName] at htokens
  have hfirst := (List.cons.inj htokens).1
  revert hfirst
  decide

/-! ## One label, one item -/

theorem kinds_distinct : FunctionApp.appKind ≠ FunctionApp.roleKind ∧
    FunctionApp.appKind ≠ Binding.kind ∧ FunctionApp.roleKind ≠ Binding.kind := by
  decide

/-- The labels of an app are its own and those of its assignments. -/
theorem FunctionApp.mem_labels_iff {id : String} {l : String × String} :
    l ∈ labels s grants id ↔ l = (appKind, Name.identifier [id]) ∨
      ∃ a ∈ RoleAssignment.ofGrants (grants.of id) s.account,
        l = (roleKind, assignmentName id a) := by
  simp [labels, OrderedSet.mem_def, eq_comm]

/-- No app is labelled as a binding. -/
theorem FunctionApp.binding_not_mem_labels {id name : String} :
    ¬(Binding.kind, name) ∈ labels s grants id := by
  intro hmem
  obtain ⟨_, happ, hrole⟩ := kinds_distinct
  rcases mem_labels_iff.mp hmem with he | ⟨a, _, he⟩
  · exact happ (Prod.mk.inj he).1.symm
  · exact hrole (Prod.mk.inj he).1.symm

/-- The items of a pass on Azure. -/
theorem mem_items_cases {i : WorkItem} (hi : i ∈ Schedule.items Platform.azure.producers s) :
    (∃ id l, (id, l) ∈ s.lambdas.entries ∧ i = ⟨FunctionApp.producer, .lambda id l⟩) ∨
      (∃ r ∈ s.routes.dynamic, i = ⟨HttpBinding.producer, .route r⟩) ∨
        ∃ t ∈ s.timers, i = ⟨Timers.producer, .timer t⟩ := by
  rcases i with ⟨p, e⟩
  obtain ⟨hp, he⟩ := Schedule.mem_items_iff.mp hi
  simp only at hp he
  simp only [Platform.producers, List.mem_cons, List.not_mem_nil, or_false] at hp
  rcases hp with rfl | rfl | rfl
  · obtain ⟨id, l, hl, rfl⟩ := FunctionApp.mem_entities_iff.mp he
    exact Or.inl ⟨id, l, hl, rfl⟩
  · obtain ⟨r, hr, rfl⟩ := HttpBinding.mem_entities_iff.mp he
    exact Or.inr (Or.inl ⟨r, hr, rfl⟩)
  · obtain ⟨t, ht, rfl⟩ := Timers.mem_entities_iff.mp he
    exact Or.inr (Or.inr ⟨t, ht, rfl⟩)

section Accepted

variable (h : s.Accepted) (hscopes : s.ScopesApart grants)
  (hgrants : s.grants library = .ok grants)

include h hscopes hgrants

/-- What is generated for one item has distinct labels. -/
theorem nodup_labels {i : WorkItem} (hi : i ∈ Schedule.items Platform.azure.producers s) :
    (labels s grants i.entity).Nodup := by
  rcases mem_items_cases hi with ⟨id, l, hl, rfl⟩ | ⟨r, _, rfl⟩ | ⟨t, _, rfl⟩
  · have hid : id ∈ s.lambdas.keys := List.mem_map_of_mem (f := Prod.fst) hl
    apply List.nodup_cons.mpr
    constructor
    · intro hmem
      obtain ⟨a, _, he⟩ := List.mem_map.mp hmem
      exact kinds_distinct.1 (Prod.mk.inj he).1.symm
    · apply (RoleAssignment.ofGrants (grants.of id) s.account).nodup_toList.map_on
      intro a ha b hb he
      exact (FunctionApp.assignmentName_injOn h hscopes hgrants hid hid ha hb
        (Prod.mk.inj he).2).2
  · exact List.nodup_singleton _
  · exact List.nodup_singleton _

/-- Labels of lambdas tell the lambda. -/
theorem FunctionApp.id_eq_of_label {id id' : String} (hid : id ∈ s.lambdas.keys)
    (hid' : id' ∈ s.lambdas.keys) {l : String × String} (hl : l ∈ labels s grants id)
    (hl' : l ∈ labels s grants id') : id = id' := by
  rcases mem_labels_iff.mp hl with rfl | ⟨a, ha, rfl⟩
  · rcases mem_labels_iff.mp hl' with he | ⟨b, _, he⟩
    · exact h.lambda_identifiers id hid id' hid' (Prod.mk.inj he).2
    · exact absurd (Prod.mk.inj he).1 kinds_distinct.1
  · rcases mem_labels_iff.mp hl' with he | ⟨b, hb, he⟩
    · exact absurd (Prod.mk.inj he).1.symm kinds_distinct.1
    · exact (assignmentName_injOn h hscopes hgrants hid hid' ha hb (Prod.mk.inj he).2).1

/-- No label is generated for two items. -/
theorem item_eq_of_label {i j : WorkItem} (hi : i ∈ Schedule.items Platform.azure.producers s)
    (hj : j ∈ Schedule.items Platform.azure.producers s) {l : String × String}
    (hl : l ∈ labels s grants i.entity) (hl' : l ∈ labels s grants j.entity) : i = j := by
  rcases mem_items_cases hi with ⟨id, f, hf, rfl⟩ | ⟨r, hr, rfl⟩ | ⟨t, ht, rfl⟩ <;>
    rcases mem_items_cases hj with ⟨id', f', hf', rfl⟩ | ⟨r', hr', rfl⟩ | ⟨t', ht', rfl⟩
  · have hid : id = id' := FunctionApp.id_eq_of_label h hscopes hgrants
      (List.mem_map_of_mem (f := Prod.fst) hf) (List.mem_map_of_mem (f := Prod.fst) hf') hl hl'
    have hentry := List.inj_on_of_nodup_map s.lambdas.distinct hf hf' hid
    cases hentry
    rfl
  · rw [List.mem_singleton.mp hl'] at hl
    exact absurd hl FunctionApp.binding_not_mem_labels
  · rw [List.mem_singleton.mp hl'] at hl
    exact absurd hl FunctionApp.binding_not_mem_labels
  · rw [List.mem_singleton.mp hl] at hl'
    exact absurd hl' FunctionApp.binding_not_mem_labels
  · have he := (List.mem_singleton.mp hl).symm.trans (List.mem_singleton.mp hl')
    obtain ⟨hmethod, hpath⟩ := HttpBinding.bindingName_injOn h hr hr' (Prod.mk.inj he).2
    have hsame := List.inj_on_of_nodup_map h.routes_distinct hr hr' (by rw [hmethod, hpath])
    rw [hsame]
  · have he := (List.mem_singleton.mp hl).symm.trans (List.mem_singleton.mp hl')
    exact absurd (Prod.mk.inj he).2 (bindingNames_apart r t')
  · rw [List.mem_singleton.mp hl] at hl'
    exact absurd hl' FunctionApp.binding_not_mem_labels
  · have he := (List.mem_singleton.mp hl).symm.trans (List.mem_singleton.mp hl')
    exact absurd (Prod.mk.inj he).2.symm (bindingNames_apart r' t)
  · have he := (List.mem_singleton.mp hl).symm.trans (List.mem_singleton.mp hl')
    have hid := TimerBinding.bindingName_injOn h ht ht' (Prod.mk.inj he).2
    rw [List.inj_on_of_nodup_map h.timers_distinct ht ht' hid]

end Accepted

end Azure
end InfraGraph
