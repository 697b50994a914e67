import Mathlib.Data.List.Flatten
import InfraGraph.Proofs.Aws.Names
import InfraGraph.Proofs.Distinct

/-!
# What one AWS producer emits

On an accepted schema, the resources that one producer emits for all of its entities have different
addresses, in whatever states they are generated, and the names that the provider sees are different
too.  Main statements:

* `Producer.emitted` — the resources of a producer, each entity in a state of its own;
* `Aws.Family.nodup_labels` — the labels of a producer are distinct;
* `Aws.Family.nodup_emitted`, `Schema.aws_names_distinct` — so are addresses and cloud-side names.
-/

namespace InfraGraph

/-! ## Emission in given states -/

/-- Resources that a producer emits for all entities of a schema, each generated in some state. -/
def Producer.emitted (p : Producer) (s : Schema) (state : Entity → Context) : List Resource :=
  (p.entities s).flatMap fun e =>
    match p.generate (state e) e with
    | .ok g => g.resources
    | .error _ => []

namespace Resource

/-- Values of a field in the resources of a kind. -/
def fieldValues (kind field : String) (rs : List Resource) : List (Option FieldValue) :=
  (rs.filter fun r => r.kind = kind).map fun r => r.fields.get? field

end Resource

namespace Aws

variable {s : Schema}

/-! ## Labels of one producer -/

theorem RestApi.nodup_labels :
    ((RestApi.producer.entities s).flatMap RestApi.labels).Nodup := by
  cases hapi : s.api <;> simp [RestApi.producer, RestApi.labels, hapi]

/-- Names tell the paths of an accepted schema apart, so the labels are distinct. -/
theorem PathResource.nodup_labels (h : s.Accepted) :
    ((PathResource.producer.entities s).flatMap (PathResource.labels s)).Nodup := by
  cases hapi : s.api with
  | none => simp [producer, hapi]
  | some api =>
      simp only [producer, labels, hapi, Option.isNone_some, Bool.false_eq_true, if_false,
        List.flatMap_map, Option.toList_some, List.flatMap_singleton]
      -- the paths are a set, so each of them is named once
      refine Distinct.nodup_flatMap_kinds (List.nodup_reverse.mpr s.routePaths.nodup_toList)
        (Family.nodup_kinds .path) ?_
      intro p hp q hq he
      exact resourceName_injOn h (List.mem_reverse.mp hp) (List.mem_reverse.mp hq) he

theorem Function.nodup_labels (h : s.Accepted) :
    ((Function.producer.entities s).flatMap Function.labels).Nodup := by
  simp only [producer, Schema.lambdaEntities, labels, List.flatMap_map]
  refine Distinct.nodup_flatMap_kinds (List.Nodup.of_map _ s.lambdas.distinct)
    (Family.nodup_kinds .function) ?_
  intro a ha b hb he
  -- ids with one identifier are one id, and an id has one entry
  have hid : a.1 = b.1 :=
    h.lambda_identifiers _ (List.mem_map_of_mem ha) _ (List.mem_map_of_mem hb) he
  exact List.inj_on_of_nodup_map s.lambdas.distinct ha hb hid

theorem Route.nodup_labels (h : s.Accepted) :
    ((Route.producer.entities s).flatMap (Route.labels s)).Nodup := by
  cases hapi : s.api with
  | none => simp [producer, hapi]
  | some api =>
      simp only [producer, labels, hapi, Option.isNone_some, Bool.false_eq_true, if_false,
        List.flatMap_map, Option.toList_some, List.flatMap_singleton]
      refine Distinct.nodup_flatMap_kinds (List.Nodup.of_map _ h.routes_distinct)
        (Family.nodup_kinds .route) ?_
      intro r hr t ht he
      -- a name tells method and path, and no two routes have both
      rcases routeName_injOn h hr ht he with ⟨hmethod, hpath⟩
      exact List.inj_on_of_nodup_map h.routes_distinct hr ht (Prod.ext hmethod hpath)

theorem StaticFile.nodup_labels (h : s.Accepted) :
    ((StaticFile.producer.entities s).flatMap (StaticFile.labels s)).Nodup := by
  cases hapi : s.api with
  | none => simp [producer, hapi]
  | some api =>
      simp only [producer, labels, hapi, Option.isNone_some, Bool.false_eq_true, if_false,
        List.flatMap_map, Option.toList_some, List.flatMap_singleton]
      refine Distinct.nodup_flatMap_kinds (List.Nodup.of_map _ h.static_distinct)
        (Family.nodup_kinds .static) ?_
      intro r hr t ht he
      exact List.inj_on_of_nodup_map h.static_distinct hr ht (identifier_injOn h hr ht he)

theorem Publication.nodup_labels :
    ((Publication.producer.entities s).flatMap (Publication.labels s)).Nodup := by
  cases hapi : s.api <;> simp [producer, labels, hapi]

theorem Preflight.nodup_labels (h : s.Accepted) :
    ((Preflight.producer.entities s).flatMap (Preflight.labels s)).Nodup := by
  cases hapi : s.api with
  | none => simp [producer, hapi]
  | some api =>
      -- a handler has two parts of each role, so roles do not tell the parts, but kinds do
      have hhandlers : (s.servedPaths.toList.flatMap fun p =>
          parts.map fun part => (part.1, handlerName api part.2 p)).Nodup := by
        refine Distinct.nodup_flatMap_named Prod.fst (fun part p => handlerName api part.2 p)
          s.servedPaths.nodup_toList (Family.nodup_kinds .preflight) ?_
        intro part hpart p hp q hq he
        exact handlerName_injOn h (role_cases hpart) hp hq he
      cases hcors : api.allowCors with
      | false => simp [producer, hapi, hcors]
      | true => simpa [producer, labels, hapi, hcors] using hhandlers

theorem EventRule.nodup_labels (h : s.Accepted) :
    ((Timers.producer.entities s).flatMap EventRule.labels).Nodup := by
  simp only [Timers.producer, labels, List.flatMap_map]
  refine Distinct.nodup_flatMap_kinds (List.Nodup.of_map _ h.timers_distinct)
    (Family.nodup_kinds .timer) ?_
  intro t ht u hu he
  exact List.inj_on_of_nodup_map h.timers_distinct ht hu (h.timer_identifiers t ht u hu he)

theorem DomainAlias.nodup_labels :
    ((DomainAlias.producer.entities s).flatMap DomainAlias.labels).Nodup := by
  -- there is at most one alias, and its five resources are of five kinds
  have halias : ∀ d : DnsAlias, (labels (.dns d)).Nodup := by
    intro d
    have hkinds : ((labels (.dns d)).map Prod.fst).Nodup := Family.nodup_kinds .domain
    exact List.Nodup.of_map _ hkinds
  cases hapi : s.api with
  | none => simp [producer, hapi]
  | some api =>
      cases hdns : api.dns with
      | none => simp [producer, hapi, hdns]
      | some d => simpa [producer, hapi, hdns] using halias d

namespace Family

/-- The labels of all entities of a producer are distinct. -/
theorem nodup_labels (h : s.Accepted) (family : Family) :
    ((family.producer.entities s).flatMap (family.labels s)).Nodup := by
  cases family with
  | restApi => exact RestApi.nodup_labels
  | path => exact PathResource.nodup_labels h
  | function => exact Function.nodup_labels h
  | route => exact Route.nodup_labels h
  | static => exact StaticFile.nodup_labels h
  | publication => exact Publication.nodup_labels
  | preflight => exact Preflight.nodup_labels h
  | timer => exact EventRule.nodup_labels h
  | domain => exact DomainAlias.nodup_labels

/-! ## Addresses of one producer -/

/-- Whatever the states, nothing is emitted that the entities do not label. -/
theorem map_label_emitted (family : Family) (haws : s.platform = .aws) {state : Entity → Context}
    (hstate : ∀ e, (state e).schema = s) :
    ((family.producer.emitted s state).map Resource.label).Sublist
      ((family.producer.entities s).flatMap (family.labels s)) := by
  unfold Producer.emitted
  rw [List.map_flatMap]
  refine List.Sublist.flatMap_right _ fun e he => ?_
  cases hg : family.producer.generate (state e) e with
  -- an entity for which nothing is generated emits no label
  | error err => simp
  | ok g =>
      simp only
      rw [family.map_label haws (hstate e) he hg]

/-- Names of identifiers have no dot, so what a family emits can be told from its address. -/
theorem addressable_emitted (family : Family) (haws : s.platform = .aws) {state : Entity → Context}
    (hstate : ∀ e, (state e).schema = s) :
    ∀ r ∈ family.producer.emitted s state, r.Addressable := by
  intro r hr
  rcases List.mem_flatMap.mp hr with ⟨e, he, hmem⟩
  cases hg : family.producer.generate (state e) e with
  | error err => simp [hg] at hmem
  | ok g =>
      rw [hg] at hmem
      exact addressable (mem_producers_iff.mpr ⟨family, rfl⟩) haws (hstate e) he hg r hmem

/-- What one producer emits has different addresses. -/
theorem nodup_emitted (h : s.Accepted) (family : Family) (haws : s.platform = .aws)
    {state : Entity → Context} (hstate : ∀ e, (state e).schema = s) :
    ((family.producer.emitted s state).map Resource.address).Nodup :=
  Resource.nodup_addresses (family.addressable_emitted haws hstate)
    ((family.nodup_labels h).sublist (family.map_label_emitted haws hstate))

end Family

/-! ## Names that the provider sees -/

end Aws

namespace Resource

variable {kind field : String} {r : Resource} {rs : List Resource}

theorem fieldValues_cons_self {value : Option FieldValue} (hvalue : r.fields.get? field = value)
    (hkind : r.kind = kind) :
    fieldValues kind field (r :: rs) = value :: fieldValues kind field rs := by
  simp [fieldValues, hkind, hvalue]

theorem fieldValues_cons_of_ne (h : r.kind ≠ kind) :
    fieldValues kind field (r :: rs) = fieldValues kind field rs := by
  simp [fieldValues, h]

/-- Values of a field are collected item by item. -/
theorem fieldValues_flatMap {α : Type} (kind field : String) (xs : List α)
    (f : α → List Resource) :
    fieldValues kind field (xs.flatMap f) = xs.flatMap fun a => fieldValues kind field (f a) := by
  simp only [fieldValues, List.filter_flatMap, List.map_flatMap]

end Resource

namespace Aws

variable {s : Schema}

namespace Function

theorem get?_name_function {identifier functionName : String} {l : Lambda} {role : Resource} :
    (function identifier functionName l role).fields.get? "function_name" =
      some (.text functionName) := by
  refine OrderedMap.get?_ofList_cons ?_
  unfold environment
  split <;> simp

theorem get?_name_role {identifier functionName : String} :
    (role identifier functionName).fields.get? "name" = some (.text functionName) :=
  OrderedMap.get?_ofList_cons (by simp)

/-- Function and role of a lambda bear its cloud-side name. -/
theorem fieldValues_generateFor {ctx : Context} {id : String} {l : Lambda} :
    Resource.fieldValues functionKind "function_name" (generateFor ctx id l).resources =
        [some (.text (Name.cloud [ctx.schema.name, id]))] ∧
      Resource.fieldValues roleKind "name" (generateFor ctx id l).resources =
        [some (.text (Name.cloud [ctx.schema.name, id]))] := by
  have hrole : roleKind ≠ functionKind := by decide
  have hpolicy : policyKind ≠ functionKind ∧ policyKind ≠ roleKind := by decide
  simp only [generateFor]
  constructor
  · refine (Resource.fieldValues_cons_of_ne hrole).trans ?_
    refine (Resource.fieldValues_cons_of_ne hpolicy.1).trans ?_
    exact Resource.fieldValues_cons_self get?_name_function rfl
  · refine (Resource.fieldValues_cons_self get?_name_role rfl).trans ?_
    refine congrArg (List.cons _) ?_
    refine (Resource.fieldValues_cons_of_ne hpolicy.2).trans ?_
    exact Resource.fieldValues_cons_of_ne hrole.symm

/-- The functions and the roles of a schema bear the cloud-side names of its lambdas. -/
theorem fieldValues_emitted {state : Entity → Context} (hstate : ∀ e, (state e).schema = s) :
    Resource.fieldValues functionKind "function_name" (producer.emitted s state) =
        s.lambdas.keys.map (fun id => some (.text (Name.cloud [s.name, id]))) ∧
      Resource.fieldValues roleKind "name" (producer.emitted s state) =
        s.lambdas.keys.map (fun id => some (.text (Name.cloud [s.name, id]))) := by
  unfold Producer.emitted
  simp only [Resource.fieldValues_flatMap, producer, Schema.lambdaEntities, List.flatMap_map,
    fieldValues_generateFor, hstate, OrderedMap.keys, List.map_map]
  constructor <;> rw [List.map_eq_flatMap] <;> rfl

/-- The cloud-side names of lambdas are distinct in an accepted schema. -/
theorem nodup_cloudNames (h : s.Accepted) :
    (s.lambdas.keys.map fun id => some (FieldValue.text (Name.cloud [s.name, id]))).Nodup := by
  refine List.Nodup.map_on ?_ s.lambdas.distinct
  intro a ha b hb he
  simp only [Option.some.injEq, FieldValue.text.injEq] at he
  exact h.function_names a ha b hb he

end Function

namespace EventRule

/-- The rule of a timer bears its cloud-side name. -/
theorem fieldValues_generated {t : Timer} {function : FunctionIds} :
    Resource.fieldValues ruleKind "name" (generated s t function).resources =
      [some (.text (Name.cloud [s.name, t.fqId]))] := by
  have htarget : targetKind ≠ ruleKind := by decide
  have hpermission : Gateway.permissionKind ≠ ruleKind := by decide
  have hname : (rule s t).fields.get? "name" = some (.text (Name.cloud [s.name, t.fqId])) :=
    OrderedMap.get?_ofList_cons (by simp)
  simp only [generated]
  refine (Resource.fieldValues_cons_self hname rfl).trans ?_
  refine congrArg (List.cons _) ?_
  refine (Resource.fieldValues_cons_of_ne htarget).trans ?_
  exact Resource.fieldValues_cons_of_ne hpermission

/-- The rules that are emitted bear the cloud-side names of the timers they are emitted for. -/
theorem fieldValues_emitted (haws : s.platform = .aws) {state : Entity → Context}
    (hstate : ∀ e, (state e).schema = s) :
    Resource.fieldValues ruleKind "name" (Timers.producer.emitted s state) =
      (s.timers.filter fun t =>
          (Timers.producer.generate (state (.timer t)) (.timer t)).isOk).map
        fun t => some (.text (Name.cloud [s.name, t.fqId])) := by
  unfold Producer.emitted
  rw [Resource.fieldValues_flatMap]
  have hentities : Timers.producer.entities s = s.timers.map .timer := rfl
  rw [hentities, List.flatMap_map]
  -- a timer that waits for its function emits no rule yet
  induction s.timers with
  | nil => rfl
  | cons t rest ih =>
      rw [List.flatMap_cons, ih]
      cases hg : Timers.producer.generate (state (.timer t)) (.timer t) with
      | error err => simp [hg, Except.isOk, Except.toBool, Resource.fieldValues]
      | ok g =>
          have hplatform : (state (.timer t)).schema.platform = .aws := by rw [hstate, haws]
          rcases (Timers.generate_aws_eq_ok_iff hplatform).mp hg with ⟨_, function, _, rfl⟩
          simp [hg, Except.isOk, Except.toBool, hstate, fieldValues_generated]

/-- The cloud-side names of timers are distinct in an accepted schema. -/
theorem nodup_cloudNames (h : s.Accepted) :
    (s.timers.map fun t => some (FieldValue.text (Name.cloud [s.name, t.fqId]))).Nodup := by
  refine Distinct.nodup_map_of_key h.timers_distinct ?_
  intro t ht u hu he
  simp only [Option.some.injEq, FieldValue.text.injEq] at he
  exact h.rule_names t ht u hu he

end EventRule
end Aws

namespace Schema

/-- On an accepted schema every AWS producer emits resources with different addresses, in whatever
states it generates them.  Functions and roles bear names that differ between lambdas, and rules
bear names that differ between timers. -/
theorem aws_names_distinct {s : Schema} (haws : s.platform = .aws) (hvalid : s.violations = [])
    {state : Entity → Context} (hstate : ∀ e, (state e).schema = s) :
    (∀ p ∈ Platform.aws.producers, ((p.emitted s state).map Resource.address).Nodup) ∧
      (Resource.fieldValues Aws.Function.functionKind "function_name"
          (Aws.Function.producer.emitted s state) =
        s.lambdas.keys.map fun id => some (.text (Name.cloud [s.name, id]))) ∧
      (Resource.fieldValues Aws.Function.roleKind "name" (Aws.Function.producer.emitted s state) =
        s.lambdas.keys.map fun id => some (.text (Name.cloud [s.name, id]))) ∧
      (s.lambdas.keys.map fun id => some (FieldValue.text (Name.cloud [s.name, id]))).Nodup ∧
      (Resource.fieldValues Aws.EventRule.ruleKind "name" (Timers.producer.emitted s state) =
        (s.timers.filter fun t =>
            (Timers.producer.generate (state (.timer t)) (.timer t)).isOk).map
          fun t => some (.text (Name.cloud [s.name, t.fqId]))) ∧
      (s.timers.map fun t => some (FieldValue.text (Name.cloud [s.name, t.fqId]))).Nodup := by
  have haccepted := accepted_of_violations_eq_nil hvalid
  rcases Aws.Function.fieldValues_emitted hstate with ⟨hfunctions, hroles⟩
  refine ⟨?_, hfunctions, hroles, Aws.Function.nodup_cloudNames haccepted,
    Aws.EventRule.fieldValues_emitted haws hstate, Aws.EventRule.nodup_cloudNames haccepted⟩
  intro p hp
  rcases Aws.Family.mem_producers_iff.mp hp with ⟨family, rfl⟩
  exact family.nodup_emitted haccepted haws hstate

/-- The state in which a pass for the small application ends. -/
def shopContext : Context := (Schedule.run Platform.aws.producers (.initial shop ⟨.empty⟩)).1

/-- The small application has preflight handlers at two paths, with four resources each. -/
theorem shop_names_distinct :
    (Aws.Preflight.producer.emitted shop fun _ => shopContext).length = 8 ∧
      ((Aws.Preflight.producer.emitted shop fun _ => shopContext).map Resource.address).Nodup ∧
      (shop.timers.map fun t => some (FieldValue.text (Name.cloud [shop.name, t.fqId]))).Nodup := by
  have hstate : shopContext.schema = shop := by decide +kernel
  rcases @aws_names_distinct shop rfl violations_shop (fun _ => shopContext) fun _ => hstate with
      ⟨haddresses, _, _, _, _, hrules⟩
  exact ⟨by decide +kernel, haddresses _ (by simp [Platform.producers]), hrules⟩

end Schema
end InfraGraph
