import InfraGraph.Proofs.Aws.Closed

/-!
# Which path a reference stands for

Methods name the resource of their path by a reference.  The REST API stands for the root; every
other path resource adds a segment to the path of its parent, which it names by a reference in
turn.  So a reference is resolved by following parents up to an API.  Main statements:

* `Aws.Resolves`, `Aws.Resolves.unique` — what references resolve to, and that it is one path;
* `Aws.PathResource.idOf_eq_reference` — outputs and names give the same reference;
* `Aws.resolves_reference` — after a complete pass, the reference of a path resolves to the path.
-/

namespace InfraGraph
namespace Aws

open Resource

/-! ## Following parents -/

/-- A reference resolves to a path: that of the root of an API to no segments, that of a path
resource to the segments of its parent with its own behind them. -/
inductive Resolves (rs : List Resource) : String → List String → Prop where
  | root {t : Resource} {ref : String} : t ∈ rs → t.kind = RestApi.kind →
      ref = t.attr "root_resource_id" → Resolves rs ref []
  | child {t : Resource} {ref parent segment : String} {path : List String} : t ∈ rs →
      t.kind = PathResource.kind → ref = t.attr "id" →
      t.fields.get? "parent_id" = some (.ref parent) →
      t.fields.get? "path_part" = some (.text segment) →
      Resolves rs parent path → Resolves rs ref (path ++ [segment])

theorem restApi_kind_ne_path_kind : RestApi.kind ≠ PathResource.kind := by decide

section Addresses

variable {rs : List Resource} (haddresses : (rs.map address).Nodup)
  (hplain : ∀ r ∈ rs, r.Addressable)

include haddresses hplain

/-- A reference tells the resource that it is an attribute of. -/
theorem eq_of_attr_eq {t u : Resource} {part piece : String} (ht : t ∈ rs) (hu : u ∈ rs)
    (he : t.attr part = u.attr piece) : t = u := by
  have haddress := address_eq_of_attr_eq (hplain t ht) (hplain u hu) he
  exact List.inj_on_of_nodup_map haddresses ht hu haddress

/-- Where addresses differ, a reference resolves to one path at most. -/
theorem Resolves.unique {ref : String} {path other : List String} (h : Resolves rs ref path)
    (h' : Resolves rs ref other) : path = other := by
  have hsame := @eq_of_attr_eq rs haddresses hplain
  have hkinds := restApi_kind_ne_path_kind
  induction h generalizing other with
  | root ht hkind href =>
      cases h' with
      | root => rfl
      | child hu hukind huref =>
          rw [← hsame ht hu (href.symm.trans huref), hkind] at hukind
          exact absurd hukind hkinds
  | child ht hkind href hparent hsegment _ ih =>
      cases h' with
      | root hu hukind huref =>
          rw [← hsame ht hu (href.symm.trans huref), hkind] at hukind
          exact absurd hukind.symm hkinds
      | child hu hukind huref huparent husegment hrest =>
          have he := hsame ht hu (href.symm.trans huref)
          rw [← he, hparent] at huparent
          rw [← he, hsegment] at husegment
          cases huparent
          cases husegment
          rw [ih hrest]

end Addresses

/-! ## References of a pass -/

variable {s : Schema} {grants : Grants} {done : List Completion} {ctx : Context} {api : Api}

/-- References to the REST API of a schema, from names alone. -/
def RestApi.idsFor (s : Schema) (api : Api) : RestApiIds := idsOf (resource s api)

/-- What is read for an API is made of names alone. -/
theorem RestApi.ids_eq (h : History Platform.aws.producers s grants done ctx)
    (hapi : s.api = some api) {id : EntityId} {rest : RestApiIds}
    (hids : RestApi.ids ctx id = .ok rest) : rest = idsFor s api := by
  rcases RestApi.of_lookup h (RestApi.ids_eq_ok_iff.mp hids) with ⟨api', hapi', he, _⟩
  rw [hapi] at hapi'
  cases hapi'
  cases he
  rfl

/-- Reference to the resource of a path of the schema's API. -/
def PathResource.referenceFor (s : Schema) (api : Api) (p : UriPath) : String :=
  reference api (RestApi.idsFor s api) p

/-- Below the root, the resource of a path has the id that names give. -/
theorem PathResource.attr_resource {rest : RestApiIds} {parentId segment : String} {p : UriPath}
    (hroot : p ≠ .root) :
    (resource api rest parentId p segment).attr "id" = referenceFor s api p := by
  rw [referenceFor, reference_of_ne_root hroot]
  simp [Resource.attr, Resource.address, resource, Resource.ofFields, String.append_assoc]

/-- Outputs and names give the same reference. -/
theorem PathResource.idOf_eq_reference (h : History Platform.aws.producers s grants done ctx)
    (hapi : s.api = some api) {p : UriPath} {id : String}
    (hid : PathResource.idOf ctx api p = .ok id) : id = referenceFor s api p := by
  by_cases hroot : p = .root
  · subst hroot
    rcases PathResource.idOf_root.mp hid with ⟨rest, hrest, rfl⟩
    rw [RestApi.ids_eq h hapi hrest]
    rfl
  · rcases PathResource.of_lookup h ((PathResource.idOf_of_ne_root hroot).mp hid) with
        ⟨api', rest, parentId, segment, hapi', _, he, _⟩
    rw [hapi] at hapi'
    cases hapi'
    cases he
    exact PathResource.attr_resource hroot

/-! ## After a complete pass -/

section Complete

variable (h : History Platform.aws.producers s grants done ctx)
  (hall : ∀ i ∈ Schedule.items Platform.aws.producers s, ∃ c ∈ done, c.item = i)
  (hapi : s.api = some api)

include h hall hapi

/-- The REST API is emitted, as it waits for nothing. -/
theorem RestApi.mem_of_completed : RestApi.resource s api ∈ ctx.resources := by
  rcases h.exists_generated_of_completed hall (p := RestApi.producer) (by simp [Platform.producers])
    (RestApi.mem_entities_iff.mpr ⟨api, hapi, rfl⟩) with ⟨_, before, g, hbefore, hg, hemitted⟩
  rw [RestApi.generate_eq_ok_iff, hbefore.schema_eq] at hg
  subst hg
  exact hemitted _ (List.mem_singleton_self _)

/-- Every prefix of a route path has a resource, which refers to that of its parent. -/
theorem PathResource.mem_of_completed {p : UriPath} (hp : p ∈ s.routePaths) :
    ∃ parent segment, p.parent? = some parent ∧ p.last? = some segment ∧
      PathResource.resource api (RestApi.idsFor s api) (referenceFor s api parent) p segment ∈
        ctx.resources := by
  rcases h.exists_generated_of_completed hall (p := PathResource.producer)
    (by simp [Platform.producers]) (PathResource.mem_entities_iff.mpr ⟨api, hapi, p, hp, rfl⟩) with
      ⟨_, before, g, hbefore, hg, hemitted⟩
  rcases PathResource.generate_eq_ok_iff.mp hg with
      ⟨parent, segment, api', rest, parentId, hparent, hlast, hapi', hrest, hid, rfl⟩
  rw [hbefore.schema_eq, hapi] at hapi'
  cases hapi'
  rw [RestApi.ids_eq hbefore hapi hrest, idOf_eq_reference hbefore hapi hid] at hemitted
  exact ⟨parent, segment, hparent, hlast, hemitted _ (List.mem_singleton_self _)⟩

/-- The reference of a path resolves to its segments. -/
theorem resolves_reference {p : UriPath} (hp : p = .root ∨ p ∈ s.routePaths) :
    Resolves ctx.resources (PathResource.referenceFor s api p) p.segments := by
  -- a parent has fewer segments
  induction hn : p.segments.length using Nat.strongRecOn generalizing p with
  | ind n ih =>
    rcases hp with rfl | hp
    · exact .root (RestApi.mem_of_completed h hall hapi) rfl rfl
    · have hroot : p ≠ .root := fun e => Schema.root_not_mem_routePaths (e ▸ hp)
      rcases PathResource.mem_of_completed h hall hapi hp with
          ⟨parent, segment, hparent, hlast, hmem⟩
      have hresolved := ih _ (hn ▸ UriPath.length_parent_lt hparent)
        (Schema.parent_mem_routePaths hp hparent) rfl
      rw [UriPath.segments_eq hparent hlast]
      exact .child hmem rfl (PathResource.attr_resource hroot).symm rfl rfl hresolved

/-- It resolves to nothing else. -/
theorem resolves_reference_iff (haws : s.platform = .aws) {p : UriPath}
    (hp : p = .root ∨ p ∈ s.routePaths) {path : List String} :
    Resolves ctx.resources (PathResource.referenceFor s api p) path ↔ path = p.segments := by
  have hresolves := resolves_reference h hall hapi hp
  constructor
  · intro hpath
    exact hpath.unique h.addresses_nodup (addressable_of_history h haws) hresolves
  · rintro rfl
    exact hresolves

end Complete

end Aws
end InfraGraph
