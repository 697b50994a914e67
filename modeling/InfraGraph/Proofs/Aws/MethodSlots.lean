import InfraGraph.Proofs.Aws.DeclaredApi

/-!
# When two methods share a path and an HTTP method

The gateway accepts one method for an HTTP method of a path.  Validation keeps dynamic routes apart
from each other and from static routes, but not from preflight handlers: those answer OPTIONS on
every path of a route, and so may a dynamic route.  Main statements:

* `Schema.nodup_endpoints_iff` — when a schema declares no endpoint twice;
* `Schema.aws_nodup_slots_iff` — when a pass emits no method twice;
* `Schema.not_nodup_slots_preflighted` — an accepted schema for which it does.
-/

namespace InfraGraph
namespace Schema

open Aws Gateway

variable {s : Schema} {library : List Declaration} {api : Api} {pass : Pass}

/-! ## Declared twice -/

/-- A dynamic route answers the preflight requests that handlers answer too. -/
def Preflighted (s : Schema) : Prop :=
  ∃ api, s.api = some api ∧ api.allowCors = true ∧ ∃ r ∈ s.routes.dynamic, r.method = .options

/-- Accepted schemas have no two routes with one method and path. -/
theorem nodup_routed (h : s.Accepted) : s.routed.Nodup := by
  refine List.nodup_append.mpr ⟨h.routes_distinct, ?_, ?_⟩
  · exact Distinct.nodup_map_of_key h.static_distinct fun a _ b _ he => (Prod.mk.inj he).2
  · intro a ha b hb hab
    rcases List.mem_map.mp ha with ⟨r, hr, rfl⟩
    rcases List.mem_map.mp hb with ⟨t, ht, rfl⟩
    rcases Prod.mk.inj hab with ⟨hmethod, hpath⟩
    -- a static route answers GET, and validation compares it with the dynamic ones
    exact h.static_not_get t ht r hr hmethod hpath

/-- Handlers answer each path once. -/
theorem nodup_preflights : (s.preflights api).Nodup := by
  unfold preflights
  split
  · exact (List.nodup_dedup _).map fun p q he => (Prod.mk.inj he).2
  · exact List.nodup_nil

theorem method_of_mem_preflights {endpoint : HttpMethod × UriPath}
    (h : endpoint ∈ s.preflights api) : endpoint.1 = .options := by
  unfold preflights at h
  split at h
  · rcases List.mem_map.mp h with ⟨p, _, rfl⟩
    rfl
  · cases h

/-- Routes and handlers meet where a dynamic route answers preflight requests. -/
theorem disjoint_preflights_iff (hapi : s.api = some api) :
    s.routed.Disjoint (s.preflights api) ↔ ¬s.Preflighted := by
  constructor
  · rintro hdisjoint ⟨api', hapi', hcors, r, hr, hmethod⟩
    rw [hapi] at hapi'
    cases hapi'
    have hrouted : (HttpMethod.options, r.path) ∈ s.routed :=
      List.mem_append_left _ (List.mem_map.mpr ⟨r, hr, by rw [hmethod]⟩)
    have hserved : r.path ∈ (UriPath.root :: s.routes.paths).dedup :=
      List.mem_dedup.mpr (List.mem_cons_of_mem _ (dynamic_path_mem hr))
    refine hdisjoint hrouted ?_
    rw [preflights, if_pos hcors]
    exact List.mem_map_of_mem hserved
  · -- an endpoint of both is for OPTIONS, which no static route answers
    intro hnot endpoint hrouted hpreflight
    have hmethod := method_of_mem_preflights hpreflight
    have hcors : api.allowCors = true := by
      by_contra hcors
      rw [preflights, if_neg hcors] at hpreflight
      cases hpreflight
    rcases List.mem_append.mp hrouted with hdynamic | hstatic
    · rcases List.mem_map.mp hdynamic with ⟨r, hr, rfl⟩
      exact hnot ⟨api, hapi, hcors, r, hr, hmethod⟩
    · rcases List.mem_map.mp hstatic with ⟨r, _, rfl⟩
      cases hmethod

/-- Endpoints are distinct iff no dynamic route answers the requests of the handlers. -/
theorem nodup_endpoints_iff (h : s.Accepted) (hapi : s.api = some api) :
    (s.endpoints api).Nodup ↔ ¬s.Preflighted := by
  rw [endpoints, List.nodup_append', ← disjoint_preflights_iff hapi]
  exact ⟨fun hnodup => hnodup.2.2, fun hdisjoint => ⟨nodup_routed h, nodup_preflights, hdisjoint⟩⟩

/-! ## Emitted twice -/

/-- Slots tell the declared endpoints apart. -/
theorem slotFor_injOn (haws : s.platform = .aws) (hapi : s.api = some api)
    (hgen : s.generate library = .ok pass) :
    ∀ a ∈ s.endpoints api, ∀ b ∈ s.endpoints api, slotFor s api a = slotFor s api b → a = b := by
  intro a ha b hb he
  simp only [slotFor, Prod.mk.injEq, Option.some.injEq, FieldValue.ref.injEq,
    FieldValue.text.injEq, true_and] at he
  rcases he with ⟨hreference, hmethod⟩
  -- one reference resolves to one path
  have hresolved := (resolves_of_generate haws hapi hgen (path_of_mem_endpoints ha)).mpr rfl
  rw [hreference] at hresolved
  have hsegments :=
    (resolves_of_generate haws hapi hgen (path_of_mem_endpoints hb)).mp hresolved
  exact Prod.ext (HttpMethod.text_injective hmethod) (UriPath.ext hsegments)

/-- Whether a slot is that of a method other than OPTIONS. -/
def besidesOptions (slot : Option FieldValue × Option FieldValue × Option FieldValue) : Bool :=
  slot.2.2 != some (.text HttpMethod.options.text)

/-- On accepted schemas a pass emits no method other than OPTIONS twice for a path; it emits none
twice at all iff no dynamic route answers the preflight requests that handlers answer. -/
theorem aws_nodup_slots_iff (haws : s.platform = .aws) (hvalid : s.violations = [])
    (hgen : s.generate library = .ok pass) :
    (((methods pass.resources).map slot).filter besidesOptions).Nodup ∧
      (((methods pass.resources).map slot).Nodup ↔ ¬s.Preflighted) := by
  have haccepted := accepted_of_violations_eq_nil hvalid
  cases hapi : s.api with
  | none =>
      -- without an API there are neither methods nor handlers
      rcases generate_ok hgen with ⟨grants, done, ctx, _, hist, _, hresources⟩
      rw [haws] at hist
      have hnot : ¬s.Preflighted := by
        rintro ⟨api, hsome, _⟩
        rw [hapi] at hsome
        cases hsome
      rw [hresources, methods_eq_nil_of_history hist haws hapi]
      simp [hnot]
  | some api =>
      have hperm := perm_slots haws hapi hgen
      have hinj := slotFor_injOn haws hapi hgen
      constructor
      · -- handlers answer OPTIONS only, so the other methods are those of routes
        have hpreflights : (s.preflights api).filter
            (fun endpoint => besidesOptions (slotFor s api endpoint)) = [] := by
          refine List.filter_eq_nil_iff.mpr fun endpoint hendpoint => ?_
          simp [besidesOptions, slotFor, method_of_mem_preflights hendpoint]
        rw [(hperm.filter besidesOptions).nodup_iff, List.filter_map, endpoints, List.filter_append]
        simp only [Function.comp_def, hpreflights, List.append_nil]
        refine ((nodup_routed haccepted).filter _).map_on fun a ha b hb => ?_
        exact hinj a (List.mem_append_left _ (List.mem_filter.mp ha).1) b
          (List.mem_append_left _ (List.mem_filter.mp hb).1)
      · rw [hperm.nodup_iff, ← nodup_endpoints_iff haccepted hapi]
        exact ⟨List.Nodup.of_map _, fun hnodup => hnodup.map_on fun a ha b hb => hinj a ha b hb⟩

/-- In the small application no method is emitted twice. -/
theorem nodup_slots_shop : shop.violations = [] ∧ ∃ pass, shop.generate [] = .ok pass ∧
    ((methods pass.resources).map slot).Nodup := by
  obtain ⟨pass, hgen⟩ := exists_of_isOk isOk_generate_shop
  refine ⟨violations_shop, pass, hgen, ?_⟩
  refine (aws_nodup_slots_iff (s := shop) rfl violations_shop hgen).2.mpr ?_
  rintro ⟨api, _, _, r, hr, hmethod⟩
  rw [List.mem_singleton.mp hr] at hmethod
  cases hmethod

/-- A route that answers the preflight requests of its path. -/
def preflighted : Schema :=
  { shop with
    routes :=
      { dynamic :=
          [⟨.parse "/users/{id}", .get, "users"⟩, ⟨.parse "/users/{id}", .options, "users"⟩]
        static := [⟨.root, "index.html", "text/html"⟩] } }

/-- That no violation is reported does not keep methods apart: there is an accepted schema for which
a pass succeeds and emits two methods for OPTIONS on one path. -/
theorem not_nodup_slots_preflighted : preflighted.platform = .aws ∧ preflighted.violations = [] ∧
    ∃ pass, preflighted.generate [] = .ok pass ∧
      ¬((methods pass.resources).map slot).Nodup := by
  have hvalid : preflighted.violations = [] := by decide +kernel
  have hok : (preflighted.generate []).isOk = true := by decide +kernel
  obtain ⟨pass, hgen⟩ := exists_of_isOk hok
  refine ⟨rfl, hvalid, pass, hgen, fun hnodup => ?_⟩
  have hslots := perm_slots rfl rfl hgen
  have hendpoints := List.Nodup.of_map _ (hslots.nodup_iff.mp hnodup)
  refine (nodup_endpoints_iff (accepted_of_violations_eq_nil hvalid) rfl).mp hendpoints ?_
  exact ⟨_, rfl, rfl, _, List.mem_cons_of_mem _ List.mem_cons_self, rfl⟩

end Schema
end InfraGraph
