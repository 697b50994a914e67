import InfraGraph.Proofs.Aws.DeclaredApi
import InfraGraph.Proofs.Aws.Inventory

/-!
# The objects that static routes are served from

The file of a static route is stored under the text of the path, and that of the root as an index.
Validation tells paths apart, and so keys, but for the root and the path of an index: their files
are stored in one place.  Main statements:

* `Aws.StaticFile.place`, `Aws.StaticFile.objectKey_eq_iff` — where objects are stored;
* `Schema.perm_objects`, `Schema.perm_fileIntegrations` — the objects of a pass, and who reads them;
* `Aws.StaticFile.Serves`, `Schema.aws_objects_apart` — when every route serves its own file;
* `Schema.not_nodup_places_indexed` — an accepted schema of which two objects share a place.
-/

namespace InfraGraph

namespace Aws
namespace StaticFile

open Gateway

def objects (rs : List Resource) : List Resource := rs.filter fun r => r.kind = objectKind

/-- Where an object is stored: its bucket and its key. -/
def place (r : Resource) : Option FieldValue × Option FieldValue :=
  (r.fields.get? "bucket", r.fields.get? "key")

/-- URI by which the gateway reads an object. -/
def uriOf (region bucket key : String) : String :=
  "arn:aws:apigateway:" ++ region ++ ":s3:path/" ++ bucket ++ "/" ++ key

def uri? (region : String) (o : Resource) : Option String :=
  match place o with
  | (some (.text bucket), some (.text key)) => some (uriOf region bucket key)
  | _ => none

/-- The integrations that read from a bucket, among resources. -/
def fileIntegrations (rs : List Resource) : List Resource :=
  rs.filter fun r => r.kind = integrationKind ∧ r.fields.get? "type" = some (.text "AWS")

/-- An integration serves a static route: it stands on the path of the route, and its URI is that
of one object, which holds the file of the route. -/
structure Serves (s : Schema) (rs : List Resource) (t : Resource) (r : StaticRoute) : Prop where
  resolves : ∃ ref, t.fields.get? "resource_id" = some (.ref ref) ∧
    ∀ path, Resolves rs ref path ↔ path = r.path.segments
  stored : ∃ o uri, t.fields.get? "uri" = some (.text uri) ∧
    (objects rs).filter (fun o => uri? s.region o = some uri) = [o] ∧
    o.fields.get? "source" = some (.text r.file) ∧
    o.fields.get? "content_type" = some (.text r.mime)

/-! ## Keys -/

/-- The root is stored as an index. -/
theorem objectKey_root {r : StaticRoute} (h : r.path = .root) : objectKey r = "index.html" := by
  simp [objectKey, UriPath.isRoot_iff, h]

theorem objectKey_of_ne_root {r : StaticRoute} (h : r.path ≠ .root) :
    objectKey r = r.path.display := by
  simp [objectKey, UriPath.isRoot_iff, h]

/-- Keys tell paths apart, but for the root and the path of an index. -/
theorem objectKey_eq_iff {r t : StaticRoute} (hne : r.path ≠ t.path) :
    objectKey r = objectKey t ↔
      r.path = .root ∧ t.path.display = "index.html" ∨
        t.path = .root ∧ r.path.display = "index.html" := by
  by_cases hr : r.path = .root
  · have ht : t.path ≠ .root := fun ht => hne (hr.trans ht.symm)
    rw [objectKey_root hr, objectKey_of_ne_root ht, eq_comm]
    simp only [hr, ht, true_and, false_and, or_false]
  · by_cases ht : t.path = .root
    · rw [objectKey_of_ne_root hr, objectKey_root ht]
      simp only [hr, ht, true_and, false_and, false_or]
    · have hdisplay : r.path.display ≠ t.path.display := fun he =>
        hne (UriPath.display_injective he)
      rw [objectKey_of_ne_root hr, objectKey_of_ne_root ht]
      simp only [hr, ht, hdisplay, false_and, or_false]

/-- The URI of an object tells its key. -/
theorem uriOf_injective {region bucket key key' : String}
    (h : uriOf region bucket key = uriOf region bucket key') : key = key' :=
  (String.append_right_inj _).mp h

variable {s : Schema} {grants : Grants} {api : Api} {bucket : String}

def objectFor (api : Api) (bucket : String) (r : StaticRoute) : Resource :=
  object (identifier api r) bucket r

def integrationFor (s : Schema) (api : Api) (bucket : String) (r : StaticRoute) : Resource :=
  let resourceId := PathResource.referenceFor s api r.path
  let rest := RestApi.idsFor s api
  integration s (identifier api r) bucket rest resourceId
    (Gateway.method (identifier api r) rest.restApiId resourceId "GET") r

theorem place_objectFor {r : StaticRoute} :
    place (objectFor api bucket r) = (some (.text bucket), some (.text (objectKey r))) := rfl

theorem uri?_objectFor {region : String} {r : StaticRoute} :
    uri? region (objectFor api bucket r) = some (uriOf region bucket (objectKey r)) := rfl

/-! ## What is prescribed -/

theorem objects_generated {rest : RestApiIds} {id : String} {r : StaticRoute} :
    objects (generated s api rest id bucket r).resources = [objectFor api bucket r] := rfl

theorem fileIntegrations_generated {r : StaticRoute} :
    fileIntegrations (generated s api (RestApi.idsFor s api)
      (PathResource.referenceFor s api r.path) bucket r).resources =
        [integrationFor s api bucket r] := rfl

end StaticFile

namespace Family

open StaticFile

variable {s : Schema} {grants : Grants} {api : Api} {bucket : String}

/-- A test that no resource of a static route fails but one leaves one resource for each route. -/
theorem filter_static {test : Resource → Bool} {f : StaticRoute → Resource}
    (hsite : ∀ r ∈ s.routes.static, s.api = some api ∧ s.bucket = some bucket)
    (hgenerated : ∀ r : StaticRoute, (StaticFile.generated s api (RestApi.idsFor s api)
      (PathResource.referenceFor s api r.path) bucket r).resources.filter test = [f r]) :
    (static.resources s grants).filter test = s.routes.static.map f := by
  have hentities : static.producer.entities s = s.routes.static.map .static := by
    cases hroutes : s.routes.static with
    | nil => simp [producer, StaticFile.producer, hroutes]
    | cons r rest =>
        have hapi := (hsite r (by simp [hroutes])).1
        simp [producer, StaticFile.producer, hapi, hroutes]
  have hprescribed : ∀ r ∈ s.routes.static, ∃ g, static.prescribed s grants (.static r) = some g ∧
      (g.resources.filter test).map id = [f r] := by
    intro r hr
    refine ⟨_, ?_, (List.map_id _).trans (hgenerated r)⟩
    simp only [prescribed, (hsite r hr).1, (hsite r hr).2]
    rfl
  simpa using map_filter_resources .static hentities hprescribed

theorem fileIntegrations_route : fileIntegrations (route.resources s grants) = [] := by
  refine filter_resources_eq_nil fun e g hg => ?_
  cases e <;> try cases hg
  simp only [prescribed, Option.bind_eq_bind, Option.bind_eq_some_iff, Option.pure_def,
    Option.some.injEq] at hg
  rcases hg with ⟨_, _, rfl⟩
  rfl

theorem fileIntegrations_preflight : fileIntegrations (preflight.resources s grants) = [] := by
  refine filter_resources_eq_nil fun e g hg => ?_
  cases e <;> cases hg
  -- the handler of each path answers without reading anything
  rw [Preflight.generated, List.filter_flatMap, List.flatMap_eq_nil_iff]
  exact fun _ _ => rfl

end Family
end Aws

namespace Schema

open Aws Gateway StaticFile

variable {s : Schema} {library : List Declaration} {api : Api} {bucket : String} {pass : Pass}

/-! ## What is emitted -/

/-- Static routes belong to an API and are served from a bucket. -/
def IsSite (s : Schema) (api : Api) (bucket : String) : Prop :=
  ∀ r ∈ s.routes.static, s.api = some api ∧ s.bucket = some bucket

/-- The static routes of an accepted schema have one API and one bucket. -/
theorem exists_isSite (haws : s.platform = .aws) (hvalid : s.violations = []) :
    ∃ api bucket, s.IsSite api bucket := by
  cases hroutes : s.routes.static with
  | nil => exact ⟨⟨"", false, .unnamed, none⟩, "", by simp [IsSite, hroutes]⟩
  | cons r rest =>
      rcases (accepted_of_violations_eq_nil hvalid).static_bucket r (by simp [hroutes]) with
        ⟨bucket, hbucket⟩
      cases hapi : s.api with
      | none =>
          rw [(routes_eq_nil_of_api_eq_none haws hvalid hapi).2] at hroutes
          cases hroutes
      | some api => exact ⟨api, bucket, fun _ _ => ⟨hapi, hbucket⟩⟩

/-- There is one object for each static route. -/
theorem perm_objects (haws : s.platform = .aws) (hgen : s.generate library = .ok pass)
    (hsite : s.IsSite api bucket) :
    (objects pass.resources).Perm (s.routes.static.map (objectFor api bucket)) := by
  rcases generate_ok hgen with ⟨grants, _, _, hgrants, _⟩
  have hstatic : objects (Family.static.resources s grants) =
      s.routes.static.map (objectFor api bucket) :=
    Family.filter_static hsite fun _ => objects_generated
  have hperm : (objects pass.resources).Perm _ :=
    aws_perm_filter haws hgrants hgen fun r hr => of_decide_eq_true hr
  have hfamilies : (Family.all.filter fun a => objectKind ∈ a.kinds) = [.static] := by decide
  rw [hfamilies, List.flatMap_singleton] at hperm
  rwa [← hstatic]

/-- Of the three families with integrations, only static routes read from a bucket. -/
theorem perm_fileIntegrations (haws : s.platform = .aws) (hgen : s.generate library = .ok pass)
    (hsite : s.IsSite api bucket) :
    (fileIntegrations pass.resources).Perm
      (s.routes.static.map (integrationFor s api bucket)) := by
  rcases generate_ok hgen with ⟨grants, _, _, hgrants, _⟩
  have hstatic : fileIntegrations (Family.static.resources s grants) =
      s.routes.static.map (integrationFor s api bucket) :=
    Family.filter_static hsite fun _ => fileIntegrations_generated
  have hfamilies : (Family.all.filter fun a => integrationKind ∈ a.kinds) =
      [.route, .static, .preflight] := by decide
  have hperm : (fileIntegrations pass.resources).Perm
      (fileIntegrations (Family.route.resources s grants) ++
        (fileIntegrations (Family.static.resources s grants) ++
          (fileIntegrations (Family.preflight.resources s grants) ++ []))) := by
    have hkind : (fileIntegrations pass.resources).Perm _ :=
      aws_perm_filter haws hgrants hgen fun r hr => (of_decide_eq_true hr).1
    rwa [hfamilies] at hkind
  simpa only [Family.fileIntegrations_route, Family.fileIntegrations_preflight, hstatic,
    List.nil_append, List.append_nil] using hperm

/-! ## Who shares a place -/

/-- Both the root and the path of an index are served from the bucket. -/
def IndexedTwice (s : Schema) : Prop :=
  ∃ r ∈ s.routes.static, ∃ t ∈ s.routes.static, r.path = .root ∧ t.path.display = "index.html"

/-- Keys tell the static routes of an accepted schema apart, unless its index is there twice. -/
theorem objectKey_injOn_iff (h : s.Accepted) :
    (∀ r ∈ s.routes.static, ∀ t ∈ s.routes.static, objectKey r = objectKey t → r = t) ↔
      ¬s.IndexedTwice := by
  constructor
  · rintro hinj ⟨r, hr, t, ht, hroot, hindex⟩
    have hne : r.path ≠ t.path := by
      intro he
      rw [← he, hroot] at hindex
      exact absurd hindex (by decide)
    exact hne (congrArg _ (hinj r hr t ht ((objectKey_eq_iff hne).mpr (.inl ⟨hroot, hindex⟩))))
  · intro hnot r hr t ht he
    by_cases hpath : r.path = t.path
    · exact List.inj_on_of_nodup_map h.static_distinct hr ht hpath
    · rcases (objectKey_eq_iff hpath).mp he with ⟨hroot, hindex⟩ | ⟨hroot, hindex⟩
      · exact absurd ⟨r, hr, t, ht, hroot, hindex⟩ hnot
      · exact absurd ⟨t, ht, r, hr, hroot, hindex⟩ hnot

/-- Objects share a place iff the root and the path of an index are both served. -/
theorem nodup_places_iff (haws : s.platform = .aws) (hvalid : s.violations = [])
    (hgen : s.generate library = .ok pass) :
    ((objects pass.resources).map place).Nodup ↔ ¬s.IndexedTwice := by
  have haccepted := accepted_of_violations_eq_nil hvalid
  rcases exists_isSite haws hvalid with ⟨api, bucket, hsite⟩
  have hplaces := (perm_objects haws hgen hsite).map place
  rw [hplaces.nodup_iff, ← objectKey_injOn_iff haccepted, List.map_map]
  have hstatic := List.Nodup.of_map _ haccepted.static_distinct
  rw [List.nodup_map_iff_inj_on hstatic]
  simp only [Function.comp_apply, place_objectFor, Prod.mk.injEq, Option.some.injEq,
    FieldValue.text.injEq, true_and]

/-- What reads from the bucket serves the file of its own route. -/
theorem serves_integrationFor (haws : s.platform = .aws) (hvalid : s.violations = [])
    (hgen : s.generate library = .ok pass) (hsite : s.IsSite api bucket)
    (hindex : ¬s.IndexedTwice) {r : StaticRoute} (hr : r ∈ s.routes.static) :
    Serves s pass.resources (integrationFor s api bucket r) r := by
  have haccepted := accepted_of_violations_eq_nil hvalid
  have hobjects := perm_objects haws hgen hsite
  have hnodup : (objects pass.resources).Nodup :=
    List.Nodup.of_map _ ((nodup_places_iff haws hvalid hgen).mpr hindex)
  have hstored : objectFor api bucket r ∈ objects pass.resources :=
    hobjects.mem_iff.mpr (List.mem_map_of_mem hr)
  constructor
  · exact ⟨_, rfl, fun path =>
      resolves_of_generate haws (hsite r hr).1 hgen (mem_routePaths_of_mem_paths
        (static_path_mem hr))⟩
  · refine ⟨objectFor api bucket r, uriOf s.region bucket (objectKey r), rfl, ?_, rfl, rfl⟩
    refine Distinct.filter_eq_singleton hnodup hstored fun o ho => ?_
    rcases List.mem_map.mp (hobjects.mem_iff.mp ho) with ⟨t, ht, rfl⟩
    simp only [uri?_objectFor, Option.some.injEq, decide_eq_true_eq]
    constructor
    · -- the URI tells the key, and the key tells the route
      intro huri
      rw [(objectKey_injOn_iff haccepted).mpr hindex t ht r hr (uriOf_injective huri)]
    · intro he
      have huri := congrArg (uri? s.region) he
      simpa only [uri?_objectFor, Option.some.injEq] using huri

/-- On accepted schemas the objects of a pass are stored in different places iff not both the root
and the path of an index are served from the bucket; and then the integrations that read from the
bucket are one for each static route, and serve the file of that route. -/
theorem aws_objects_apart (haws : s.platform = .aws) (hvalid : s.violations = [])
    (hgen : s.generate library = .ok pass) :
    (((objects pass.resources).map place).Nodup ↔ ¬s.IndexedTwice) ∧
      (¬s.IndexedTwice → ∃ served,
        List.Forall₂ (Serves s pass.resources) (fileIntegrations pass.resources) served ∧
          served.Perm s.routes.static) := by
  refine ⟨nodup_places_iff haws hvalid hgen, fun hindex => ?_⟩
  rcases exists_isSite haws hvalid with ⟨api, bucket, hsite⟩
  have hserves : List.Forall₂ (fun t r => Serves s pass.resources t r)
      (s.routes.static.map (integrationFor s api bucket)) s.routes.static := by
    rw [List.forall₂_map_left_iff, List.forall₂_same]
    exact fun r hr => serves_integrationFor haws hvalid hgen hsite hindex hr
  exact List.perm_comp_forall₂ (perm_fileIntegrations haws hgen hsite) hserves

/-- The small application with a style sheet beside its root. -/
def styled : Schema :=
  { shop with
    routes :=
      { dynamic := shop.routes.dynamic
        static :=
          [⟨.root, "home.html", "text/html"⟩, ⟨.parse "/style.css", "style.css", "text/css"⟩] } }

/-- Its root and its style sheet are stored under two keys, and each is served from its own
object. -/
theorem aws_objects_apart_styled : ∃ pass, styled.generate [] = .ok pass ∧
    ((objects pass.resources).map place).Perm
      [(some (.text "site"), some (.text "index.html")),
        (some (.text "site"), some (.text "style.css"))] ∧
    ((objects pass.resources).map place).Nodup ∧
    ∃ served, List.Forall₂ (Serves styled pass.resources) (fileIntegrations pass.resources) served ∧
      served.Perm [⟨.root, "home.html", "text/html"⟩,
        ⟨.parse "/style.css", "style.css", "text/css"⟩] := by
  have hvalid : styled.violations = [] := by decide +kernel
  have hok : (styled.generate []).isOk = true := by decide +kernel
  rcases exists_of_isOk hok with ⟨pass, hgen⟩
  rcases aws_objects_apart rfl hvalid hgen with ⟨hplaces, hserved⟩
  have hindex : ¬styled.IndexedTwice := by
    rintro ⟨_, _, t, ht, _, hdisplay⟩
    rcases List.mem_pair.mp ht with rfl | rfl
    · exact absurd hdisplay (by decide)
    · exact absurd hdisplay (by decide +kernel)
  let api : Api := ⟨"shop-api", true, .unnamed, some ⟨"api", "shop.example", none⟩⟩
  have hsite : styled.IsSite api "site" := fun _ _ => ⟨rfl, rfl⟩
  have hkeys : styled.routes.static.map objectKey = ["index.html", "style.css"] := by decide +kernel
  have hstored : (styled.routes.static.map (objectFor api "site")).map place =
      (styled.routes.static.map objectKey).map fun key =>
        (some (.text "site"), some (.text key)) := rfl
  have hperm := (perm_objects rfl hgen hsite).map place
  rw [hstored, hkeys] at hperm
  exact ⟨pass, hgen, hperm, hplaces.mpr hindex, hserved hindex⟩

/-- An application that serves its root and, from another file, the path of an index. -/
def indexed : Schema :=
  { shop with
    routes :=
      { dynamic := []
        static :=
          [⟨.root, "home.html", "text/html"⟩, ⟨.parse "/index.html", "index.html", "text/html"⟩] } }

/-- That no violation is reported does not keep objects apart: there is an accepted schema for
which a pass succeeds and stores two files in one place. -/
theorem not_nodup_places_indexed : indexed.platform = .aws ∧ indexed.violations = [] ∧
    ∃ pass, indexed.generate [] = .ok pass ∧ ¬((objects pass.resources).map place).Nodup := by
  have hvalid : indexed.violations = [] := by decide +kernel
  have hok : (indexed.generate []).isOk = true := by decide +kernel
  rcases exists_of_isOk hok with ⟨pass, hgen⟩
  refine ⟨rfl, hvalid, pass, hgen, fun hnodup => ?_⟩
  refine (nodup_places_iff rfl hvalid hgen).mp hnodup ⟨_, List.mem_cons_self, _,
    List.mem_cons_of_mem _ List.mem_cons_self, rfl, ?_⟩
  decide +kernel

end Schema
end InfraGraph
