import InfraGraph.Proofs.Aws.Producers
import InfraGraph.Proofs.Generation.Origin
import InfraGraph.Proofs.Resource.Address

/-!
# The kinds and names an AWS producer emits

The kinds and names of what is generated for an entity depend on the schema alone, not on the state
in which it is generated.  The nine producers are numbered by `Family`, so that statements about all
of them, or about all pairs of them, go by cases.  Main statements:

* `Aws.Family.labels`, `Aws.Family.map_label` — the labels of what is generated for an entity;
* `Aws.Family.of_mem_labels` — the kinds and names that a producer uses;
* `Aws.addressable` — what is generated can be told from its address;
* `Aws.exists_completion_of_label` — where all is completed, every label has been emitted.
-/

namespace InfraGraph

namespace Aws

variable {s : Schema} {ctx : Context} {e : Entity} {g : Generated}

/-! ## One producer at a time -/

namespace RestApi

def labels : Entity → List (String × String)
  | .api api => [(kind, Name.identifier [api.name])]
  | _ => []

end RestApi

namespace PathResource

def labels (s : Schema) : Entity → List (String × String)
  | .path p => s.api.toList.flatMap fun api => [kind].map fun k => (k, resourceName api p)
  | _ => []

end PathResource

namespace Function

def kinds : List String := [roleKind, policyKind, functionKind]

def labels : Entity → List (String × String)
  | .lambda id _ => kinds.map fun k => (k, Name.identifier [id])
  | _ => []

end Function

namespace Route

def kinds : List String := [Gateway.methodKind, Gateway.integrationKind, Gateway.permissionKind]

def labels (s : Schema) : Entity → List (String × String)
  | .route r => s.api.toList.flatMap fun api => kinds.map fun k => (k, routeName api r)
  | _ => []

end Route

namespace StaticFile

def kinds : List String :=
  [objectKind, Gateway.methodKind, Gateway.integrationKind, Gateway.methodResponseKind,
    Gateway.integrationResponseKind]

def labels (s : Schema) : Entity → List (String × String)
  | .static r => s.api.toList.flatMap fun api => kinds.map fun k => (k, identifier api r)
  | _ => []

end StaticFile

namespace Publication

def labels (s : Schema) : Entity → List (String × String)
  | .deployment _ => s.api.toList.map fun api => (kind, Name.identifier [api.deploymentName])
  | _ => []

end Publication

namespace Preflight

/-- Parts of a handler, with the role that enters the name. -/
def parts : List (String × String) :=
  [(Gateway.methodKind, "options"), (Gateway.integrationKind, "options"),
    (Gateway.methodResponseKind, "response"), (Gateway.integrationResponseKind, "response")]

def labels (s : Schema) : Entity → List (String × String)
  | .api api => s.servedPaths.toList.flatMap fun p =>
      parts.map fun part => (part.1, handlerName api part.2 p)
  | _ => []

end Preflight

namespace EventRule

def kinds : List String := [ruleKind, targetKind, Gateway.permissionKind]

def labels : Entity → List (String × String)
  | .timer t => kinds.map fun k => (k, t.fqId)
  | _ => []

end EventRule

namespace DomainAlias

def labels : Entity → List (String × String)
  | .dns d =>
      [(certificateKind, Name.identifier [d.certificateDomain]),
        (zoneKind, Name.identifier [d.zone]), (domainKind, Name.identifier [d.fqdn]),
        (mappingKind, Name.identifier [d.fqdn]), (recordKind, Name.identifier [d.fqdn])]
  | _ => []

end DomainAlias

/-! ## All producers -/

/-- The producers of AWS, by what they generate for. -/
inductive Family where
  | restApi
  | path
  | function
  | route
  | static
  | publication
  | preflight
  | timer
  | domain
deriving DecidableEq

namespace Family

def all : List Family :=
  [restApi, path, function, route, static, publication, preflight, timer, domain]

def producer : Family → Producer
  | restApi => RestApi.producer
  | path => PathResource.producer
  | function => Function.producer
  | route => Route.producer
  | static => StaticFile.producer
  | publication => Publication.producer
  | preflight => Preflight.producer
  | timer => Timers.producer
  | domain => DomainAlias.producer

def kinds : Family → List String
  | restApi => [RestApi.kind]
  | path => [PathResource.kind]
  | function => Function.kinds
  | route => Route.kinds
  | static => StaticFile.kinds
  | publication => [Publication.kind]
  | preflight => Preflight.parts.map Prod.fst
  | timer => EventRule.kinds
  | domain =>
      [DomainAlias.certificateKind, DomainAlias.zoneKind, DomainAlias.domainKind,
        DomainAlias.mappingKind, DomainAlias.recordKind]

def labels (s : Schema) : Family → Entity → List (String × String)
  | restApi => RestApi.labels
  | path => PathResource.labels s
  | function => Function.labels
  | route => Route.labels s
  | static => StaticFile.labels s
  | publication => Publication.labels s
  | preflight => Preflight.labels s
  | timer => EventRule.labels
  | domain => DomainAlias.labels

theorem mem_all (family : Family) : family ∈ all := by
  cases family <;> decide

/-- The families are listed in the order of their producers. -/
theorem producers_eq : Platform.aws.producers = all.map producer := rfl

/-- The producers of AWS are those of the families. -/
theorem mem_producers_iff {p : Producer} :
    p ∈ Platform.aws.producers ↔ ∃ family : Family, family.producer = p := by
  rw [producers_eq, List.mem_map]
  constructor
  · rintro ⟨family, _, rfl⟩
    exact ⟨family, rfl⟩
  · rintro ⟨family, rfl⟩
    exact ⟨family, family.mem_all, rfl⟩

theorem kinds_plain (family : Family) : ∀ kind ∈ family.kinds, IsKind kind := by
  -- the two kinds that are looked up are those of the domain alias
  have hwords : ∀ kind ∈ family.kinds, (¬ '.' ∈ kind.toList ∧ kind ≠ lookupWord) ∨
      kind = DomainAlias.certificateKind ∨ kind = DomainAlias.zoneKind := by
    cases family <;> decide +kernel
  intro kind hkind
  rcases hwords kind hkind with hword | rfl | rfl
  · exact Or.inl hword
  · exact Or.inr ⟨"aws_acm_certificate", by decide, rfl⟩
  · exact Or.inr ⟨"aws_route53_zone", by decide, rfl⟩

theorem nodup_kinds (family : Family) : family.kinds.Nodup := by
  cases family <;> decide

/-- Every state of the schema generates resources with the labels of the entity. -/
theorem map_label (family : Family) (haws : s.platform = .aws) (hs : ctx.schema = s)
    (he : e ∈ family.producer.entities s) (hg : family.producer.generate ctx e = .ok g) :
    g.resources.map Resource.label = family.labels s e := by
  cases family with
  | restApi =>
      rcases RestApi.mem_entities_iff.mp he with ⟨api, _, rfl⟩
      rw [RestApi.generate_eq_ok_iff.mp hg]
      rfl
  | path =>
      rcases PathResource.mem_entities_iff.mp he with ⟨api, hapi, p, _, rfl⟩
      rcases PathResource.generate_eq_ok_iff.mp hg with ⟨_, _, api', _, _, _, _, hapi', _, _, rfl⟩
      rw [hs, hapi] at hapi'
      cases hapi'
      simp only [labels, PathResource.labels, hapi]
      rfl
  | function =>
      rcases Function.mem_entities_iff.mp he with ⟨id, l, _, rfl⟩
      rw [Function.generate_eq_ok_iff.mp hg]
      rfl
  | route =>
      rcases Route.mem_entities_iff.mp he with ⟨api, hapi, r, _, rfl⟩
      rcases Route.generate_eq_ok_iff.mp hg with ⟨_, api', _, _, _, hapi', _, _, _, rfl⟩
      rw [hs, hapi] at hapi'
      cases hapi'
      simp only [labels, Route.labels, hapi]
      rfl
  | static =>
      rcases StaticFile.mem_entities_iff.mp he with ⟨api, hapi, r, _, rfl⟩
      rcases StaticFile.generate_eq_ok_iff.mp hg with ⟨_, api', _, _, _, hapi', _, _, rfl⟩
      rw [hs, hapi] at hapi'
      cases hapi'
      simp only [labels, StaticFile.labels, hapi]
      rfl
  | publication =>
      rcases Publication.mem_entities_iff.mp he with ⟨api, hapi, rfl⟩
      rcases Publication.generate_eq_ok_iff.mp hg with ⟨api', _, hapi', _, rfl⟩
      rw [hs, hapi] at hapi'
      cases hapi'
      simp only [labels, Publication.labels, hapi]
      rfl
  | preflight =>
      rcases Preflight.mem_entities_iff.mp he with ⟨api, _, _, rfl⟩
      rcases Preflight.generate_eq_ok_iff.mp hg with ⟨rest, _, rfl⟩
      simp only [Preflight.generated, hs, List.map_flatMap]
      rfl
  | timer =>
      rcases Timers.mem_entities_iff.mp he with ⟨t, _, rfl⟩
      rcases (Timers.generate_aws_eq_ok_iff (by rw [hs, haws])).mp hg with ⟨_, _, _, rfl⟩
      rfl
  | domain =>
      rcases DomainAlias.mem_entities_iff.mp he with ⟨api, d, _, _, rfl⟩
      rcases DomainAlias.generate_eq_ok_iff.mp hg with ⟨_, _, _, _, _, _, rfl⟩
      rfl

/-- A label pairs a kind of the family with an identifier. -/
theorem of_mem_labels (family : Family) {l : String × String}
    (he : e ∈ family.producer.entities s) (h : l ∈ family.labels s e) :
    l.1 ∈ family.kinds ∧ ∃ parts, l.2 = Name.identifier parts := by
  -- most producers pair each of their kinds with one and the same identifier
  have hnamed : ∀ {kinds : List String} {parts : List String},
      l ∈ kinds.map (fun k => (k, Name.identifier parts)) →
        l.1 ∈ kinds ∧ ∃ parts, l.2 = Name.identifier parts := by
    intro kinds parts hmem
    rcases List.mem_map.mp hmem with ⟨k, hk, rfl⟩
    exact ⟨hk, parts, rfl⟩
  cases family with
  | restApi =>
      rcases RestApi.mem_entities_iff.mp he with ⟨api, _, rfl⟩
      exact hnamed (show _ ∈ [RestApi.kind].map _ from h)
  | path =>
      rcases PathResource.mem_entities_iff.mp he with ⟨api, hapi, p, _, rfl⟩
      simp only [labels, PathResource.labels, hapi, Option.toList_some, List.flatMap_singleton] at h
      exact hnamed h
  | function =>
      rcases Function.mem_entities_iff.mp he with ⟨id, l, _, rfl⟩
      exact hnamed h
  | route =>
      rcases Route.mem_entities_iff.mp he with ⟨api, hapi, r, _, rfl⟩
      simp only [labels, Route.labels, hapi, Option.toList_some, List.flatMap_singleton] at h
      exact hnamed h
  | static =>
      rcases StaticFile.mem_entities_iff.mp he with ⟨api, hapi, r, _, rfl⟩
      simp only [labels, StaticFile.labels, hapi, Option.toList_some, List.flatMap_singleton] at h
      exact hnamed h
  | publication =>
      rcases Publication.mem_entities_iff.mp he with ⟨api, hapi, rfl⟩
      simp only [labels, Publication.labels, hapi] at h
      exact hnamed (show _ ∈ [Publication.kind].map _ from h)
  | preflight =>
      rcases Preflight.mem_entities_iff.mp he with ⟨api, _, _, rfl⟩
      rcases List.mem_flatMap.mp h with ⟨p, _, hp⟩
      rcases List.mem_map.mp hp with ⟨part, hpart, rfl⟩
      exact ⟨List.mem_map.mpr ⟨part, hpart, rfl⟩, _, rfl⟩
  | timer =>
      rcases Timers.mem_entities_iff.mp he with ⟨t, _, rfl⟩
      exact hnamed h
  | domain =>
      rcases DomainAlias.mem_entities_iff.mp he with ⟨api, d, _, _, rfl⟩
      simp only [labels, DomainAlias.labels, List.mem_cons, List.not_mem_nil, or_false] at h
      rcases h with rfl | rfl | rfl | rfl | rfl
      all_goals exact ⟨by simp [kinds], _, rfl⟩

/-- The label of what is generated stands for it. -/
theorem label_mem (family : Family) (haws : s.platform = .aws) (hs : ctx.schema = s)
    (he : e ∈ family.producer.entities s) (hg : family.producer.generate ctx e = .ok g)
    {r : Resource} (hr : r ∈ g.resources) : r.label ∈ family.labels s e := by
  rw [← family.map_label haws hs he hg]
  exact List.mem_map_of_mem hr

/-- A family emits resources of its kinds alone. -/
theorem kind_mem (family : Family) (haws : s.platform = .aws) (hs : ctx.schema = s)
    (he : e ∈ family.producer.entities s) (hg : family.producer.generate ctx e = .ok g)
    {r : Resource} (hr : r ∈ g.resources) : r.kind ∈ family.kinds :=
  (family.of_mem_labels he (family.label_mem haws hs he hg hr)).1

end Family

/-- Everything that is generated on AWS can be told from its address. -/
theorem addressable {p : Producer} (hp : p ∈ Platform.aws.producers) (haws : s.platform = .aws)
    (hs : ctx.schema = s) (he : e ∈ p.entities s) (hg : p.generate ctx e = .ok g) :
    ∀ r ∈ g.resources, r.Addressable := by
  intro r hr
  rcases Family.mem_producers_iff.mp hp with ⟨family, rfl⟩
  -- kind and name come from the label
  rcases family.of_mem_labels he (family.label_mem haws hs he hg hr) with ⟨hkind, parts, hname⟩
  refine ⟨?_, ?_⟩
  · have hname' : r.name = Name.identifier parts := hname
    rw [hname']
    exact Name.dot_not_mem_identifier parts
  · exact family.kinds_plain _ hkind

/-- A completed item has emitted every label of its entity. -/
theorem exists_completion_of_label (haws : s.platform = .aws)
    {grants : Grants} {done : List Completion}
    (h : History Platform.aws.producers s grants done ctx)
    (hall : ∀ i ∈ Schedule.items Platform.aws.producers s, ∃ c ∈ done, c.item = i) {a : Family}
    {l : String × String} (he : e ∈ a.producer.entities s) (hl : l ∈ a.labels s e) :
    ∃ c ∈ done, c.item.producer = a.producer ∧ ∃ r ∈ c.generated.resources, r.label = l := by
  obtain ⟨c, hc, hitem⟩ := hall ⟨a.producer, e⟩
    (Schedule.mem_items_iff.mpr ⟨Family.mem_producers_iff.mpr ⟨a, rfl⟩, he⟩)
  rcases h.origin_of_mem hc with ⟨_, before, horigin⟩
  rw [hitem] at horigin
  -- in whatever state the item was completed, its labels are the same
  rw [← a.map_label haws horigin.schema_eq he horigin.generates] at hl
  rcases List.mem_map.mp hl with ⟨r, hr, hrl⟩
  exact ⟨c, hc, by rw [hitem], r, hr, hrl⟩

end Aws
end InfraGraph
