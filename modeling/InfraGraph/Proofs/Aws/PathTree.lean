import InfraGraph.Proofs.Aws.DeclaredApi
import InfraGraph.Proofs.Aws.Prescription

/-!
# The tree of path resources

A path resource names its parent by a reference and adds one segment.  Following parents from the
resource of a path leads to the root of the REST API, in as many steps as the path has segments.
Main statements:

* `Aws.climb` — following parents for a number of steps;
* `Aws.Resolves.climb_iff` — a reference that resolves to a path is as deep as the path is long;
* `Schema.filter_restApi`, `Schema.exists_isNode_of_kind` — what the nodes of the tree are;
* `Schema.aws_path_tree` — the tree of a pass is the tree of the route paths.
-/

namespace InfraGraph
namespace Aws

open Resource

/-! ## Following parents step by step -/

namespace PathResource

/-- Path resource that a reference is the id of. -/
def find? (rs : List Resource) (ref : String) : Option Resource :=
  rs.find? fun r => r.kind == kind && r.attr "id" == ref

/-- Reference to the parent of a path resource, and the segment that it adds. -/
def above? (r : Resource) : Option (String × String) :=
  match r.fields.get? "parent_id", r.fields.get? "path_part" with
  | some (.ref parent), some (.text segment) => some (parent, segment)
  | _, _ => none

end PathResource

/-- Follow the parents of path resources for a number of steps: the reference that this leads to,
and the segments met on the way, from the top down. -/
def climb (rs : List Resource) : Nat → String → Option (String × List String)
  | 0, ref => some (ref, [])
  | steps + 1, ref => do
      let r ← PathResource.find? rs ref
      let (parent, segment) ← PathResource.above? r
      let (top, parts) ← climb rs steps parent
      return (top, parts ++ [segment])

section Climbing

variable {rs : List Resource} (haddresses : (rs.map address).Nodup)
  (hplain : ∀ r ∈ rs, r.Addressable)

include haddresses hplain

/-- The id of a path resource leads to that resource, as no other has its address. -/
theorem PathResource.find?_attr {t : Resource} (ht : t ∈ rs) (hkind : t.kind = kind) :
    find? rs (t.attr "id") = some t := by
  cases hfind : find? rs (t.attr "id") with
  | none =>
      have hnot := List.find?_eq_none.mp hfind t ht
      simp [hkind] at hnot
  | some u =>
      have htest := List.find?_some hfind
      simp only [Bool.and_eq_true, beq_iff_eq] at htest
      rw [eq_of_attr_eq haddresses hplain (List.mem_of_find?_eq_some hfind) ht htest.2]

/-- Nothing stands above an attribute of the REST API. -/
theorem PathResource.find?_restApi (part : String) {t : Resource} (ht : t ∈ rs)
    (hkind : t.kind = RestApi.kind) : find? rs (t.attr part) = none := by
  refine List.find?_eq_none.mpr fun u hu htest => ?_
  simp only [Bool.and_eq_true, beq_iff_eq] at htest
  have hsame := eq_of_attr_eq haddresses hplain hu ht htest.2
  rw [hsame, hkind] at htest
  exact restApi_kind_ne_path_kind htest.1

/-- Where there is one REST API, climbing from a reference that resolves to a path leads to its
root, in as many steps as the path has segments and in no other number, and the segments met are
those of the path. -/
theorem Resolves.climb_iff {top : Resource} (htop : top ∈ rs) (htopKind : top.kind = RestApi.kind)
    (honly : ∀ u ∈ rs, u.kind = RestApi.kind → u = top) {ref : String} {path : List String}
    (h : Resolves rs ref path) {steps : Nat} {parts : List String} :
    climb rs steps ref = some (top.attr "root_resource_id", parts) ↔
      steps = path.length ∧ parts = path := by
  -- a derivation adds segments at the end, so climbing takes the last of them first
  induction h generalizing steps parts with
  | @root t ref ht hkind href =>
      have hsame : t = top := honly t ht hkind
      subst hsame
      cases steps with
      | zero => simp [climb, href, eq_comm]
      | succ steps =>
          have hnone := PathResource.find?_restApi haddresses hplain
            "root_resource_id" ht hkind
          simp [climb, href, hnone]
  | @child t ref parent segment path ht hkind href hparent hsegment _ ih =>
      cases steps with
      | zero =>
          -- the reference is that of a path resource, not yet that of the REST API
          have hother : t.attr "id" ≠ top.attr "root_resource_id" := by
            intro he
            rw [eq_of_attr_eq haddresses hplain ht htop he, htopKind] at hkind
            exact restApi_kind_ne_path_kind hkind
          simp [climb, href, hother]
      | succ steps =>
          have hfind := PathResource.find?_attr haddresses hplain ht hkind
          have habove : PathResource.above? t = some (parent, segment) := by
            simp [PathResource.above?, hparent, hsegment]
          have hclimb : climb rs (steps + 1) ref =
              (climb rs steps parent).map fun found => (found.1, found.2 ++ [segment]) := by
            rw [href, climb, hfind]
            cases hrest : climb rs steps parent <;> simp [habove, hrest]
          rw [hclimb, Option.map_eq_some_iff, List.length_append, List.length_singleton,
            Nat.add_right_cancel_iff]
          constructor
          · rintro ⟨⟨found, front⟩, hfound, he⟩
            obtain ⟨rfl, rfl⟩ := Prod.mk.inj he
            obtain ⟨rfl, rfl⟩ := ih.mp hfound
            exact ⟨rfl, rfl⟩
          · rintro ⟨rfl, rfl⟩
            exact ⟨_, ih.mpr ⟨rfl, rfl⟩, rfl⟩

end Climbing

/-! ## The nodes of a pass -/

/-- Only one family emits REST APIs. -/
theorem Family.eq_restApi {a : Family} (h : RestApi.kind ∈ a.kinds) : a = restApi := by
  cases a with
  | restApi => rfl
  | _ => exact absurd h (by decide)

theorem Family.eq_path {a : Family} (h : PathResource.kind ∈ a.kinds) : a = path := by
  cases a with
  | path => rfl
  | _ => exact absurd h (by decide)

/-- A path resource is the one that names give to a path in the tree of the routes. -/
structure IsNode (s : Schema) (api : Api) (rs : List Resource) (r : Resource) (p : UriPath) :
    Prop where
  mem : r ∈ rs
  path_mem : p ∈ s.routePaths
  kind_eq : r.kind = PathResource.kind
  name_eq : r.name = PathResource.resourceName api p
  attr_eq : r.attr "id" = PathResource.referenceFor s api p

/-- A path resource stands for a path: it is named after the path, and climbing from it leads to the
root of the REST API in as many steps as the path has segments and in no other number, past the
segments of the path. -/
structure StandsFor (rs : List Resource) (top : Resource) (api : Api) (r : Resource)
    (p : UriPath) : Prop where
  name_eq : r.name = PathResource.resourceName api p
  climbs : ∀ steps parts,
    climb rs steps (r.attr "id") = some (top.attr "root_resource_id", parts) ↔
      steps = p.segments.length ∧ parts = p.segments

end Aws

namespace Schema

open Aws

variable {s : Schema} {library : List Declaration} {api : Api} {pass : Pass}

/-- Everything that a pass emits can be told from its address. -/
theorem addressable_of_generate (haws : s.platform = .aws) (hgen : s.generate library = .ok pass) :
    ∀ r ∈ pass.resources, r.Addressable := by
  rcases generate_ok hgen with ⟨_, _, _, _, hist, _, hresources⟩
  rw [haws] at hist
  rw [hresources]
  exact addressable_of_history hist haws

section Pass

variable (haws : s.platform = .aws) (hapi : s.api = some api)
  (hgen : s.generate library = .ok pass)

include haws hapi hgen

/-- A pass emits one REST API. -/
theorem filter_restApi :
    (pass.resources.filter fun r => r.kind = RestApi.kind) = [RestApi.resource s api] := by
  rcases generate_ok hgen with ⟨grants, done, ctx, _, hist, hperm, hresources⟩
  rw [haws] at hist hperm
  rw [hresources]
  have hall : ∀ i ∈ Schedule.items Platform.aws.producers s, ∃ c ∈ done, c.item = i :=
    fun i hi => List.mem_map.mp (hperm.mem_iff.mp hi)
  refine Distinct.filter_eq_singleton (List.Nodup.of_map _ hist.addresses_nodup)
    (RestApi.mem_of_completed hist hall hapi) ?_
  intro r hr
  rw [decide_eq_true_eq]
  constructor
  · intro hkind
    rcases exists_prescribed_of_mem hist haws hr with ⟨a, e, g, he, hg, hrg, hmem⟩
    rw [hkind] at hmem
    cases Family.eq_restApi hmem
    rcases RestApi.mem_entities_iff.mp he with ⟨api', hapi', rfl⟩
    rw [hapi] at hapi'
    cases hapi'
    cases hg
    exact List.mem_singleton.mp hrg
  · rintro rfl
    rfl

/-- Every path resource is a node. -/
theorem exists_isNode_of_kind {r : Resource} (hr : r ∈ pass.resources)
    (hkind : r.kind = PathResource.kind) : ∃ p, IsNode s api pass.resources r p := by
  have hmem := hr
  rcases generate_ok hgen with ⟨grants, done, ctx, _, hist, _, hresources⟩
  rw [haws] at hist
  rw [hresources] at hr
  rcases exists_prescribed_of_mem hist haws hr with ⟨a, e, g, he, hg, hrg, hkinds⟩
  rw [hkind] at hkinds
  cases Family.eq_path hkinds
  rcases PathResource.mem_entities_iff.mp he with ⟨_, _, p, hp, rfl⟩
  have hroot : p ≠ .root := fun e => root_not_mem_routePaths (e ▸ hp)
  rcases UriPath.exists_parent_last hroot with ⟨parent, segment, hparent, hlast⟩
  simp only [Family.prescribed, hapi, hparent, hlast, Option.bind_eq_bind, Option.bind_some,
    Option.pure_def, Option.some.injEq] at hg
  subst hg
  cases List.mem_singleton.mp hrg
  exact ⟨p, hmem, hp, rfl, rfl, PathResource.attr_resource hroot⟩

/-- Every path in the tree of the routes has a node. -/
theorem exists_isNode_of_path {p : UriPath} (hp : p ∈ s.routePaths) :
    ∃ r, IsNode s api pass.resources r p := by
  rcases generate_ok hgen with ⟨grants, done, ctx, _, hist, hperm, hresources⟩
  rw [haws] at hist hperm
  have hall : ∀ i ∈ Schedule.items Platform.aws.producers s, ∃ c ∈ done, c.item = i :=
    fun i hi => List.mem_map.mp (hperm.mem_iff.mp hi)
  have hroot : p ≠ .root := fun e => root_not_mem_routePaths (e ▸ hp)
  rcases PathResource.mem_of_completed hist hall hapi hp with ⟨_, _, _, _, hmem⟩
  exact ⟨_, hresources ▸ hmem, hp, rfl, rfl, PathResource.attr_resource hroot⟩

/-- Nodes and paths determine one another. -/
theorem biUnique_isNode : Relator.BiUnique (IsNode s api pass.resources) := by
  constructor
  · intro r p t hr ht
    exact eq_of_attr_eq (addresses_nodup_of_generate hgen) (addressable_of_generate haws hgen)
      hr.mem ht.mem (hr.attr_eq.trans ht.attr_eq.symm)
  · intro r p q hp hq
    -- one reference resolves to one path
    have hresolved := (resolves_of_generate haws hapi hgen (Or.inr hp.path_mem)).mpr rfl
    rw [← hp.attr_eq, hq.attr_eq] at hresolved
    exact UriPath.ext ((resolves_of_generate haws hapi hgen (Or.inr hq.path_mem)).mp hresolved)

/-- Climbing from the resource of a path leads to the root in as many steps as it has segments. -/
theorem standsFor_of_isNode {r : Resource} {p : UriPath} (h : IsNode s api pass.resources r p) :
    StandsFor pass.resources (RestApi.resource s api) api r p := by
  refine ⟨h.name_eq, fun steps parts => ?_⟩
  have honly : ∀ u ∈ pass.resources, u.kind = RestApi.kind → u = RestApi.resource s api := by
    intro u hu hkind
    rw [← List.mem_singleton, ← filter_restApi haws hapi hgen]
    exact List.mem_filter.mpr ⟨hu, decide_eq_true hkind⟩
  have htop : RestApi.resource s api ∈ pass.resources :=
    List.mem_of_mem_filter ((filter_restApi haws hapi hgen).symm ▸ List.mem_singleton_self _)
  have hresolves := (resolves_of_generate haws hapi hgen (Or.inr h.path_mem)).mpr rfl
  rw [← h.attr_eq] at hresolves
  exact hresolves.climb_iff (addresses_nodup_of_generate hgen) (addressable_of_generate haws hgen)
    htop rfl honly

/-- The path resources of a pass are the nonempty prefixes of the route paths, each of them once,
and they hang together as the prefixes do. -/
theorem aws_path_tree :
    ∃ (top : Resource) (paths : List UriPath),
      (pass.resources.filter fun r => r.kind = RestApi.kind) = [top] ∧ paths.Nodup ∧
        (∀ p, p ∈ paths ↔ p ≠ .root ∧ ∃ q ∈ s.routes.paths, p.segments <+: q.segments) ∧
        List.Forall₂ (StandsFor pass.resources top api)
          (pass.resources.filter fun r => r.kind = PathResource.kind) paths := by
  have hnodes : ∀ r ∈ pass.resources.filter fun r => r.kind = PathResource.kind,
      ∃ p, IsNode s api pass.resources r p := by
    intro r hr
    rcases List.mem_filter.mp hr with ⟨hmem, hkind⟩
    exact exists_isNode_of_kind haws hapi hgen hmem (of_decide_eq_true hkind)
  rcases Distinct.exists_forall₂ hnodes with ⟨paths, hpaths⟩
  have hunique := biUnique_isNode haws hapi hgen
  refine ⟨RestApi.resource s api, paths, filter_restApi haws hapi hgen, ?_, fun p => ?_,
    hpaths.imp fun r p => standsFor_of_isNode haws hapi hgen⟩
  · have hnodup := (addresses_nodup_of_generate hgen).of_map _
    exact (List.rel_nodup hunique hpaths).mp (hnodup.filter _)
  · have htree : p ∈ s.routePaths ↔
        p ≠ .root ∧ ∃ q ∈ s.routes.paths, p.segments <+: q.segments := by
      simp only [mem_routePaths_iff, UriPath.mem_prefixes_iff]
      exact ⟨fun ⟨q, hq, hne, hpre⟩ => ⟨hne, q, hq, hpre⟩,
        fun ⟨hne, q, hq, hpre⟩ => ⟨q, hq, hne, hpre⟩⟩
    rw [← htree]
    constructor
    · intro hp
      rcases (Distinct.exists_of_forall₂ hpaths).2 p hp with ⟨_, _, hnode⟩
      exact hnode.path_mem
    · intro hp
      rcases exists_isNode_of_path haws hapi hgen hp with ⟨r, hr⟩
      exact (List.rel_mem hunique hr hpaths).mp
        (List.mem_filter.mpr ⟨hr.mem, decide_eq_true hr.kind_eq⟩)

end Pass

/-- The small application has a path resource for each of the two prefixes of its route. -/
theorem aws_path_tree_shop : ∃ (pass : Pass) (api : Api) (top : Resource) (paths : List UriPath),
    shop.generate [] = .ok pass ∧ shop.api = some api ∧
      List.Forall₂ (StandsFor pass.resources top api)
        (pass.resources.filter fun r => r.kind = PathResource.kind) paths ∧
      paths.Perm [.parse "/users", .parse "/users/{id}"] := by
  obtain ⟨pass, hgen⟩ := exists_of_isOk isOk_generate_shop
  rcases aws_path_tree (s := shop) rfl rfl hgen with ⟨top, paths, _, hnodup, hpaths, hstands⟩
  refine ⟨pass, _, top, paths, hgen, rfl, hstands, ?_⟩
  have hprefixes : (UriPath.parse "/users/{id}").prefixes =
      [.parse "/users", .parse "/users/{id}"] := by decide +kernel
  have hdistinct : [UriPath.parse "/users", .parse "/users/{id}"].Nodup := by decide +kernel
  refine (List.perm_ext_iff_of_nodup hnodup hdistinct).mpr fun p => ?_
  rw [hpaths, ← hprefixes, UriPath.mem_prefixes_iff]
  refine and_congr_right fun hne => ?_
  -- the other route is that of the root, which has no prefixes
  have hroot : ¬p.segments <+: UriPath.root.segments :=
    fun hpre => hne (UriPath.ext (List.prefix_nil.mp hpre))
  simp [shop, Routes.paths, hroot]

end Schema
end InfraGraph
