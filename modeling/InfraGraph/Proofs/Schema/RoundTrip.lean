import InfraGraph.Proofs.Access.RoundTrip
import InfraGraph.Proofs.Schema.Acceptance

/-!
# Schemas are read back from their JSON form

The JSON form of a schema names every field.  A reader takes the ones that are missing for their
defaults, so any of those that hold their default may be left out, at any depth, and what is read is
the same schema, with the order of its lambdas and of their environments.  Main statements:

* `Schema.defaults` — the members that may be left out, with what they are taken for;
* `Api.readsBack`, `Lambda.readsBack`, `Routes.readsBack` — the parts of a schema;
* `Schema.readsBack`, `Schema.round_trip` — a schema, from its JSON form and from the text of it.
-/

namespace InfraGraph

open Decode Json Json.Source

namespace Json

@[simp]
theorem isExact_optional (o : Option String) : (optional o).IsExact := by
  cases o <;> trivial

theorem isExact_natural (n : UInt32) : (int n.toNat).IsExact := by
  have hlow : Int64.minValue.toInt ≤ 0 := by decide
  have hhigh : ((UInt32.size : Nat) : Int) ≤ maxWhole := by decide
  have hn := n.toNat_lt_size
  exact ⟨by omega, by omega⟩

@[simp]
theorem isExact_bool (b : Bool) : (bool b).IsExact := trivial

/-! ## Forms of what may be absent or empty -/

/-- An object, or null where there is none. -/
def orNull {α : Type} (members : α → List (String × Json)) : Option α → Json
  | none => null
  | some a => obj (members a)

/-- Only an absent record is written as null. -/
theorem eq_none_of_orNull {α : Type} {members : α → List (String × Json)} {o : Option α}
    (h : orNull members o = null) : o = none := by
  cases o with
  | none => rfl
  | some a => cases h

theorem isExact_orNull {α : Type} {members : α → List (String × Json)}
    (h : ∀ a, (obj (members a)).IsExact) (o : Option α) : (orNull members o).IsExact := by
  cases o with
  | none => trivial
  | some a => exact h a

/-- A record that may be absent is read back when the record is. -/
theorem ReadsBack.orNull {α : Type} {decode : View → Decoded α} {defaults : Defaults}
    {levels : Nat} {members : α → List (String × Json)}
    (h : ∀ a, ReadsBack decode defaults levels (obj (members a)) a) (o : Option α) :
    ReadsBack (Decode.optional decode) defaults levels (Json.orNull members o) o := by
  cases o with
  | none => exact .optional_null
  | some a => exact .optional_some (h a) (.inr ⟨_, rfl⟩)

/-- Only an absent text is written as null. -/
theorem eq_none_of_optional {o : Option String} (h : optional o = null) : o = none := by
  cases o with
  | none => rfl
  | some s => cases h

/-- Only the empty list is written as an empty array. -/
theorem eq_nil_of_arr {α : Type} {f : α → Json} {as : List α} (h : arr (as.map f) = arr []) :
    as = [] :=
  List.map_eq_nil_iff.mp (arr.inj h)

/-- Only the empty map is written as an empty object. -/
theorem eq_empty_of_obj {α : Type} {f : String × α → String × Json} {m : OrderedMap α}
    (h : obj (m.entries.map f) = obj []) : m = .empty :=
  OrderedMap.ext (List.map_eq_nil_iff.mp (obj.inj h))

theorem eq_of_int {n m : UInt32} (h : int n.toNat = int m.toNat) : n = m :=
  UInt32.toNat_inj.mp (Int.ofNat_inj.mp (int.inj h))

end Json

/-! ## API -/

namespace Deployment

def defaults : List (String × Json × Defaults) :=
  [("name", .null, .none), ("version", .str defaultVersion, .none)]

theorem readsBack (d : Deployment) : ReadsBack deployment (.record defaults) 1 d.toJson d :=
  .record (by simp)
    (.seq (.map (.withDefault (by simp) rfl (.optional_text _) eq_none_of_optional) Deployment.mk)
      (.withDefault (by simp) rfl (.text _) Json.str.inj) (by decide))

/-- No two deployments are written the same way. -/
theorem toJson_injective {d e : Deployment} (h : d.toJson = e.toJson) : d = e := by
  rcases d with ⟨dname, dversion⟩
  rcases e with ⟨ename, eversion⟩
  cases dname <;> cases ename <;> simp_all [toJson, Json.optional]

end Deployment

namespace DnsAlias

def defaults : List (String × Json × Defaults) := [("certificate", .null, .none)]

def members (d : DnsAlias) : List (String × Json) :=
  [("alias", .str d.host), ("zone", .str d.zone), ("certificate", .optional d.certificate)]

/-- An alias is read back with its defaults filled in, whichever were left out. -/
theorem readsBack (d : DnsAlias) : ReadsBack dnsAlias (.record defaults) 1 (.obj d.members) d :=
  .record (by simp [members])
    (.seq (.seq (.map (.required (by simp [members]) rfl (.text _)) DnsAlias.mk)
      (.required (by simp [members]) rfl (.text _)) (by decide))
      (.withDefault (by simp [members]) rfl (.optional_text _) eq_none_of_optional) (by decide))

theorem isExact_members (d : DnsAlias) : (Json.obj d.members).IsExact := by
  simp [members]

end DnsAlias

namespace Api

def defaults : List (String × Json × Defaults) :=
  [("allow_cors", .bool false, .none),
    ("deployment", Deployment.unnamed.toJson, .record Deployment.defaults),
    ("dns", .null, .record DnsAlias.defaults)]

def members (a : Api) : List (String × Json) :=
  [("name", .str a.name), ("allow_cors", .bool a.allowCors), ("deployment", a.deployment.toJson),
    ("dns", orNull DnsAlias.members a.dns)]

theorem toJson_eq (a : Api) : a.toJson = .obj a.members := by
  cases hdns : a.dns with
  | none => simp [toJson, members, hdns, orNull]
  | some d => simp [toJson, members, hdns, orNull, DnsAlias.toJson, DnsAlias.members]

/-- An api is read back, its alias one level down. -/
theorem readsBack (a : Api) : ReadsBack api (.record defaults) 2 (.obj a.members) a :=
  .record (by simp [members])
    (.seq (.seq (.seq (.map (.required (by simp [members]) rfl (.text _)) Api.mk)
      (.withDefault (by simp [members]) rfl (.flag _) Json.bool.inj) (by decide))
      (.withDefault (by simp [members]) rfl a.deployment.readsBack Deployment.toJson_injective)
        (by decide))
      (.withDefault (by simp [members]) rfl (.orNull DnsAlias.readsBack a.dns) eq_none_of_orNull)
        (by decide))

theorem isExact_members (a : Api) : (Json.obj a.members).IsExact := by
  simp [members, Deployment.toJson, isExact_orNull DnsAlias.isExact_members]

end Api

/-! ## Lambdas -/

namespace Lambda

def defaults : List (String × Json × Defaults) :=
  [("memory_mb", .int defaultMemoryMb.toNat, .none),
    ("timeout_sec", .int defaultTimeoutSec.toNat, .none), ("runtime", .str defaultRuntime, .none),
    ("environment", .obj [], .each .none), ("permissions", .arr [], .each Declaration.defaults)]

/-- A lambda is read back, its permissions and its environment one level down. -/
theorem readsBack (l : Lambda) : ReadsBack lambda (.record defaults) 3 l.toJson l := by
  have henvironment : ReadsBack (Decode.map Format.text) (.each .none) 1
      (.obj (l.environment.entries.map fun e => (e.1, .str e.2))) l.environment :=
    .map fun e _ => .text e.2
  have hpermissions : ReadsBack (Decode.list declaration) (.each Declaration.defaults) 2
      (.arr (l.permissions.map Declaration.toJson)) l.permissions :=
    .list fun d _ => d.readsBack
  exact .record (by simp)
    (.seq (.seq (.seq (.seq (.seq (.seq (.map (.required (by simp) rfl (.text _)) Lambda.mk)
      (.required (by simp) rfl (.text _)) (by decide))
      (.withDefault (by simp) rfl (.natural32 _) eq_of_int) (by decide))
      (.withDefault (by simp) rfl (.natural32 _) eq_of_int) (by decide))
      (.withDefault (by simp) rfl (.text _) Json.str.inj) (by decide))
      (.withDefault (by simp) rfl (henvironment.mono (by decide)) eq_empty_of_obj) (by decide))
      (.withDefault (by simp) rfl hpermissions eq_nil_of_arr) (by decide))

theorem isExact_toJson (l : Lambda) : l.toJson.IsExact := by
  have hpermissions : ∀ d ∈ l.permissions, d.toJson.IsExact := fun d _ => d.isExact_toJson
  simp only [toJson, isExact_obj_iff, isExact_arr_iff, List.forall_mem_cons, List.forall_mem_map,
    List.not_mem_nil, false_implies, implies_true, isExact_str, isExact_natural, true_and, and_true]
  exact hpermissions

end Lambda

/-! ## Routes and timers -/

namespace UriPath

/-- A path is read back from its absolute text. -/
theorem readsBack (p : UriPath) {defaults : Defaults} {levels : Nat} :
    ReadsBack path defaults levels (.str p.absolute) p := by
  intro chosen room _ _
  rw [path]
  show (pure p.absolute >>= _) = pure p
  rw [pure_bind]
  simp only [p.ofAbsolute?_absolute]

end UriPath

namespace DynamicRoute

theorem readsBack (r : DynamicRoute) : ReadsBack dynamicRoute (.record []) 1 r.toJson r := by
  have hmethod : ReadsBack Decode.method .none 0 (.str r.method.text) r.method :=
    .name (by cases r.method <;> rfl)
  exact .record (by simp)
    (.seq (.seq (.map (.required (by simp) rfl r.path.readsBack) DynamicRoute.mk)
      (.required (by simp) rfl hmethod) (by decide))
      (.required (by simp) rfl (.text _)) (by decide))

end DynamicRoute

namespace StaticRoute

def defaults : List (String × Json × Defaults) := [("mime", .str defaultMime, .none)]

theorem readsBack (r : StaticRoute) : ReadsBack staticRoute (.record defaults) 1 r.toJson r :=
  .record (by simp)
    (.seq (.seq (.map (.required (by simp) rfl r.path.readsBack) StaticRoute.mk)
      (.required (by simp) rfl (.text _)) (by decide))
      (.withDefault (by simp) rfl (.text _) Json.str.inj) (by decide))

end StaticRoute

namespace Routes

def defaults : List (String × Json × Defaults) :=
  [("dynamic", .arr [], .each (.record [])),
    ("static", .arr [], .each (.record StaticRoute.defaults))]

/-- Routes are read back, each list of them two levels down. -/
theorem readsBack (r : Routes) : ReadsBack routes (.record defaults) 3 r.toJson r := by
  have hdynamic : ReadsBack (Decode.list dynamicRoute) (.each (.record [])) 2
      (.arr (r.dynamic.map DynamicRoute.toJson)) r.dynamic :=
    .list fun route _ => route.readsBack
  have hstatic : ReadsBack (Decode.list staticRoute) (.each (.record StaticRoute.defaults)) 2
      (.arr (r.static.map StaticRoute.toJson)) r.static :=
    .list fun route _ => route.readsBack
  exact .record (by simp)
    (.seq (.map (.withDefault (by simp) rfl hdynamic eq_nil_of_arr) Routes.mk)
      (.withDefault (by simp) rfl hstatic eq_nil_of_arr) (by decide))

/-- Routes may be left out only when there are none. -/
theorem eq_of_toJson {r : Routes} (h : r.toJson = toJson ⟨[], []⟩) : r = ⟨[], []⟩ := by
  rcases r with ⟨dynamic, static⟩
  simpa [toJson] using h

end Routes

namespace Timer

/-- The timers of a schema stand in an object of event sources. -/
def eventsToJson (timers : List Timer) : Json := .obj [("scheduled", .arr (timers.map toJson))]

def eventsDefaults : List (String × Json × Defaults) :=
  [("scheduled", .arr [], .each (.record []))]

theorem readsBack (t : Timer) : ReadsBack timer (.record []) 1 t.toJson t :=
  .record (by simp)
    (.seq (.seq (.map (.required (by simp) rfl (.text _)) Timer.mk)
      (.required (by simp) rfl (.text _)) (by decide))
      (.required (by simp) rfl (.text _)) (by decide))

/-- Timers are read back from the section that holds them. -/
theorem readsBack_events (ts : List Timer) :
    ReadsBack timers (.record eventsDefaults) 3 (eventsToJson ts) ts :=
  .record (by simp) (.withDefault (by simp) rfl (.list fun t _ => t.readsBack) eq_nil_of_arr)

/-- The section may be left out only when there are no timers. -/
theorem eq_nil_of_eventsToJson {ts : List Timer} (h : eventsToJson ts = eventsToJson []) :
    ts = [] := by
  simpa [eventsToJson] using h

end Timer

/-! ## The schema -/

namespace Schema

def defaults : List (String × Json × Defaults) :=
  [("description", .null, .none), ("platform", .str Platform.aws.text, .none),
    ("region", .str "", .none), ("account", .str "", .none), ("bucket", .null, .none),
    ("api", .null, .record Api.defaults), ("lambdas", .obj [], .each (.record Lambda.defaults)),
    ("routes", Routes.toJson ⟨[], []⟩, .record Routes.defaults),
    ("events", Timer.eventsToJson [], .record Timer.eventsDefaults),
    ("library_permissions", .arr [], .each Declaration.defaults)]

def members (s : Schema) : List (String × Json) :=
  [("version", .str s.version), ("name", .str s.name), ("description", .optional s.description),
    ("platform", .str s.platform.text), ("region", .str s.region), ("account", .str s.account),
    ("bucket", .optional s.bucket), ("api", orNull Api.members s.api),
    ("lambdas", .obj (s.lambdas.entries.map fun e => (e.1, e.2.toJson))),
    ("routes", s.routes.toJson), ("events", Timer.eventsToJson s.timers),
    ("library_permissions", .arr (s.libraryPermissions.map Declaration.toJson))]

theorem toJson_eq (s : Schema) : s.toJson = .obj s.members := by
  cases hapi : s.api with
  | none => simp [toJson, members, hapi, orNull, Timer.eventsToJson]
  | some a => simp [toJson, members, hapi, orNull, Timer.eventsToJson, a.toJson_eq]

/-- A schema is read back, whichever members with default values were left out. -/
theorem readsBack (s : Schema) : ReadsBack Decode.schema (.record defaults) 5 s.toJson s := by
  have hplatform : ReadsBack Decode.platform .none 4 (.str s.platform.text) s.platform :=
    .name (by cases s.platform <;> rfl)
  have haws : Json.str s.platform.text = .str Platform.aws.text → s.platform = .aws := by
    cases s.platform <;> simp [Platform.text]
  have hapi := ReadsBack.orNull Api.readsBack s.api
  have hlambdas : ReadsBack (Decode.map lambda) (.each (.record Lambda.defaults)) 4
      (.obj (s.lambdas.entries.map fun e => (e.1, e.2.toJson))) s.lambdas :=
    .map fun e _ => e.2.readsBack
  have hlibrary : ReadsBack (Decode.list declaration) (.each Declaration.defaults) 2
      (.arr (s.libraryPermissions.map Declaration.toJson)) s.libraryPermissions :=
    .list fun d _ => d.readsBack
  rw [toJson_eq]
  exact .record (by simp [members])
    (.seq (.seq (.seq (.seq (.seq (.seq (.seq (.seq (.seq (.seq (.seq
      (.map (.required (by simp [members]) rfl (.text _)) Schema.mk)
      (.required (by simp [members]) rfl (.text _)) (by decide))
      (.withDefault (by simp [members]) rfl (.optional_text _) eq_none_of_optional) (by decide))
      (.withDefault (by simp [members]) rfl hplatform haws) (by decide))
      (.withDefault (by simp [members]) rfl (.text _) Json.str.inj) (by decide))
      (.withDefault (by simp [members]) rfl (.text _) Json.str.inj) (by decide))
      (.withDefault (by simp [members]) rfl (.optional_text _) eq_none_of_optional) (by decide))
      (.withDefault (by simp [members]) rfl (hapi.mono (by decide)) eq_none_of_orNull) (by decide))
      (.withDefault (by simp [members]) rfl hlambdas eq_empty_of_obj) (by decide))
      (.withDefault (by simp [members]) rfl (s.routes.readsBack.mono (by decide))
        Routes.eq_of_toJson) (by decide))
      (.withDefault (by simp [members]) rfl ((Timer.readsBack_events s.timers).mono (by decide))
        Timer.eq_nil_of_eventsToJson) (by decide))
      (.withDefault (by simp [members]) rfl (hlibrary.mono (by decide)) eq_nil_of_arr) (by decide))

/-! ## Texts -/

/-- The tree of a schema is well formed, so that its text is read back. -/
theorem isExact_toJson (s : Schema) : s.toJson.IsExact := by
  have hlambdas : ∀ e ∈ s.lambdas.entries, e.2.toJson.IsExact := fun e _ => e.2.isExact_toJson
  have hlibrary : ∀ d ∈ s.libraryPermissions, d.toJson.IsExact := fun d _ => d.isExact_toJson
  have hdynamic : ∀ r ∈ s.routes.dynamic, r.toJson.IsExact := fun r _ => by
    simp [DynamicRoute.toJson]
  have hstatic : ∀ r ∈ s.routes.static, r.toJson.IsExact := fun r _ => by
    simp [StaticRoute.toJson]
  have htimers : ∀ t ∈ s.timers, t.toJson.IsExact := fun t _ => by simp [Timer.toJson]
  rw [toJson_eq]
  simp only [members, Timer.eventsToJson, Routes.toJson, isExact_obj_iff, isExact_arr_iff,
    isExact_str, isExact_optional, isExact_orNull Api.isExact_members, List.forall_mem_cons,
    List.forall_mem_map, List.not_mem_nil, false_implies, implies_true, true_and, and_true]
  exact ⟨hlambdas, ⟨hdynamic, hstatic⟩, htimers, hlibrary⟩

/-- A schema is read back from its JSON form and from the text of that, as it is and without
whatever members one chooses to leave out of those that hold their default. -/
theorem round_trip (s : Schema) :
    ((Decode.schema s.toJson.view).result = .ok s ∧
        Json.decode Decode.schema s.toJson.pretty = .ok s) ∧
      ∀ chosen, (Defaults.record defaults).Permits chosen s.toJson →
        (Decode.schema (s.toJson.without chosen).view).result = .ok s ∧
          Json.decode Decode.schema (s.toJson.without chosen).pretty = .ok s := by
  have hread : ∀ chosen, (Defaults.record defaults).Permits chosen s.toJson →
      (Decode.schema (s.toJson.without chosen).view).result = .ok s ∧
        Json.decode Decode.schema (s.toJson.without chosen).pretty = .ok s := by
    intro chosen hpermits
    have hvalue := s.readsBack chosen none hpermits hasRoom_none
    -- of a text only so much may be nested, and a schema stays within that
    have htext := s.readsBack chosen (some maxDepth) hpermits (hasRoom_some (by decide))
    refine ⟨?_, ?_⟩
    · rw [Json.view, hvalue, Decoded.result_pure]
    · rw [Json.decode, ofText_pretty (isExact_without _ _ s.isExact_toJson)]
      simp only [Source.view, htext, Decoded.result_pure]
      rfl
  have hwhole := hread (fun _ => false) (Defaults.permits_none _ _)
  rw [without_none] at hwhole
  exact ⟨hwhole, hread⟩

/-- Members of the small application that hold their default: all but two of its lambda among them,
and two at different depths of its API. -/
def shopOmitted : List (List Step) :=
  [[.key "platform"], [.key "library_permissions"], [.key "api", .key "deployment", .key "version"],
    [.key "api", .key "dns", .key "certificate"], [.key "lambdas", .key "users", .key "memory_mb"],
    [.key "lambdas", .key "users", .key "timeout_sec"],
    [.key "lambdas", .key "users", .key "runtime"],
    [.key "lambdas", .key "users", .key "environment"],
    [.key "lambdas", .key "users", .key "permissions"]]

/-- The small application is read back without them. -/
theorem round_trip_shop :
    (shop.toJson.without fun path => decide (path ∈ shopOmitted)).at?
        [.key "lambdas", .key "users"] =
      some (.obj [("file", .str "users.jar"), ("handler", .str "Users")]) ∧
    (Decode.schema (shop.toJson.without fun path => decide (path ∈ shopOmitted)).view).result =
      .ok shop := by
  have hpermits : (Defaults.record defaults).Permits (fun path => decide (path ∈ shopOmitted))
      shop.toJson := by
    refine Defaults.permits_of_forall ?_
    simp only [shopOmitted, List.forall_mem_cons]
    exact ⟨rfl, rfl, rfl, rfl, rfl, rfl, rfl, rfl, rfl, List.forall_mem_nil _⟩
  exact ⟨rfl, ((round_trip shop).2 _ hpermits).1⟩

end Schema
end InfraGraph
