import InfraGraph.Proofs.Generation.Prescription
import InfraGraph.Proofs.Graph.RoundTrip

/-!
# Whatever a pass emits can be stored

Producers build fields from few levels of maps and lists, and outputs from texts.  So the graph of a
pass is far from the depth that a reader follows, holds no floating point number, and is read back
from the text of its file.  Main statements:

* `FieldValue.Storable`, `Resource.Storable`, `Output.Storable` — what can be stored;
* `Aws.Family.storable_of_prescribed`, `Azure.storable_of_prescribed` — what is generated for an
  entity;
* `Schema.storable_of_generate` — the graph of a pass is read back from its text.
-/

namespace InfraGraph

open Json

/-! ## Values and resources -/

namespace FieldValue

/-- A value holds no key twice, and its JSON form has at most the given number of levels. -/
def Storable (levels : Nat) (v : FieldValue) : Prop := v.IsDistinct ∧ v.toJson.depth ≤ levels

variable {levels : Nat}

@[simp]
theorem storable_text (s : String) : (text s).Storable (levels + 1) :=
  ⟨trivial, Nat.succ_le_succ (Nat.zero_le levels)⟩

@[simp]
theorem storable_natural (n : UInt32) : (natural n).Storable (levels + 1) :=
  ⟨trivial, Nat.succ_le_succ (Nat.zero_le levels)⟩

@[simp]
theorem storable_bool (b : Bool) : (bool b).Storable (levels + 1) :=
  ⟨trivial, Nat.succ_le_succ (Nat.zero_le levels)⟩

@[simp]
theorem storable_ref (address : String) : (ref address).Storable (levels + 1) :=
  ⟨trivial, Nat.succ_le_succ (Nat.zero_le levels)⟩

@[simp]
theorem storable_expr (e : String) : (expr e).Storable (levels + 1) :=
  ⟨trivial, Nat.succ_le_succ (Nat.zero_le levels)⟩

/-- A map is two levels deeper than its values. -/
@[simp]
theorem storable_ofPairs {pairs : List (String × FieldValue)}
    (h : ∀ pair ∈ pairs, pair.2.Storable levels) : (ofPairs pairs).Storable (levels + 2) := by
  have hentries : ∀ e ∈ (OrderedMap.ofList pairs).entries, e.2.Storable levels :=
    OrderedMap.forall_mem_ofList h
  refine ⟨⟨(OrderedMap.ofList pairs).distinct,
    entriesDistinct_iff.mpr fun e he => (hentries e he).1⟩, ?_⟩
  -- one level for the tag of the value, and one for the map
  rw [ofPairs, toJson, entriesToJson_eq_map, depth_obj_le_iff]
  refine List.forall_mem_singleton.mpr (depth_obj_le_iff.mpr ?_)
  exact List.forall_mem_map.mpr fun e he => (hentries e he).2

/-- A list is two levels deeper than its items. -/
@[simp]
theorem storable_list {items : List FieldValue} (h : ∀ v ∈ items, v.Storable levels) :
    (list items).Storable (levels + 2) := by
  refine ⟨itemsDistinct_iff.mpr fun v hv => (h v hv).1, ?_⟩
  rw [toJson, itemsToJson_eq_map, depth_obj_le_iff]
  refine List.forall_mem_singleton.mpr (depth_arr_le_iff.mpr ?_)
  exact List.forall_mem_map.mpr fun v hv => (h v hv).2

end FieldValue

namespace Resource

/-- Fields hold no key twice, and have at most the levels of an environment, the deepest field that
is generated. -/
def Storable (r : Resource) : Prop := ∀ field ∈ r.fields.entries, field.2.Storable 5

/-- A resource can be stored where its fields can. -/
@[simp]
theorem storable_ofFields {kind name : String} {fields : List (String × FieldValue)}
    (h : ∀ field ∈ fields, field.2.Storable 5) : (ofFields kind name fields).Storable :=
  OrderedMap.forall_mem_ofList h

@[simp]
theorem storable_after {r : Resource} {addresses : List String} :
    (r.after addresses).Storable ↔ r.Storable :=
  Iff.rfl

/-- What can be stored holds no key twice. -/
theorem Storable.isDistinct {r : Resource} (h : r.Storable) : r.IsDistinct :=
  fun field hfield => (h field hfield).1

/-- A resource that can be stored is at most seven levels deep. -/
theorem Storable.depth_toJson_le {r : Resource} (h : r.Storable) : r.toJson.depth ≤ 7 := by
  have hfields : (Json.obj (FieldValue.entriesToJson r.fields.entries)).depth ≤ 6 := by
    rw [FieldValue.entriesToJson_eq_map, depth_obj_le_iff]
    exact List.forall_mem_map.mpr fun field hfield => (h field hfield).2
  have hdepends : (Json.arr (r.dependsOn.map .str)).depth ≤ 6 :=
    depth_arr_le_iff.mpr (List.forall_mem_map.mpr fun _ _ => Nat.zero_le _)
  rw [toJson, depth_obj_le_iff]
  simp [hfields, hdepends, -depth_obj_le_iff, -depth_arr_le_iff]

end Resource

/-! ## Outputs -/

/-- An output holds no floating point number, and at most two levels. -/
def Output.Storable (o : Output) : Prop := o.json.IsExact ∧ o.json.depth ≤ 2

/-- Outputs of producers are made of texts. -/
theorem Output.storable_of_ne_value {o : Output} (h : ∀ v, o ≠ .value v) : o.Storable := by
  cases o with
  | value v => exact absurd rfl (h v)
  | _ => simp [Storable, json]

structure Generated.Storable (g : Generated) : Prop where
  output : g.output.Storable
  resources : ∀ r ∈ g.resources, r.Storable

/-! ## AWS -/

namespace Aws

variable {s : Schema} {grants : Grants} {api : Api} {rest : RestApiIds} {e : Entity} {g : Generated}

open Resource FieldValue

theorem RestApi.storable : (generated s api).Storable := by
  refine ⟨Output.storable_of_ne_value nofun, ?_⟩
  simp [generated, resource]

theorem PathResource.storable {parentId : String} {p : UriPath} {segment : String} :
    (generated api rest parentId p segment).Storable := by
  refine ⟨Output.storable_of_ne_value nofun, ?_⟩
  simp [generated, resource]

/-- The environment of a function is its deepest field. -/
theorem Function.storable_environment (l : Lambda) :
    ∀ field ∈ environment l, field.2.Storable 5 := by
  unfold environment
  split
  · exact List.forall_mem_nil _
  · -- the variables are a map in a map
    exact List.forall_mem_singleton.mpr <| storable_ofPairs <| List.forall_mem_singleton.mpr <|
      storable_ofPairs <| List.forall_mem_map.mpr fun _ _ => storable_text _

theorem Function.storable {ctx : Context} {id : String} {l : Lambda} :
    (generateFor ctx id l).Storable := by
  refine ⟨Output.storable_of_ne_value nofun, ?_⟩
  have hfunction : ∀ identifier functionName role,
      (function identifier functionName l role).Storable := fun _ _ _ =>
    storable_ofFields (List.forall_mem_append.mpr ⟨by simp, storable_environment l⟩)
  simp [generateFor, role, policy, hfunction]

@[simp]
theorem Gateway.storable_method {name restApiId resourceId httpMethod : String} :
    (method name restApiId resourceId httpMethod).Storable :=
  storable_ofFields (by simp)

@[simp]
theorem Gateway.storable_part {kind name restApiId resourceId : String} {method : Resource}
    {fields : List (String × FieldValue)} (h : ∀ field ∈ fields, field.2.Storable 5) :
    (part kind name restApiId resourceId method fields).Storable :=
  storable_ofFields (List.forall_mem_append.mpr ⟨by simp, h⟩)

theorem Route.storable {target : FunctionIds} {resourceId : String} {r : DynamicRoute} :
    (generated api rest target resourceId r).Storable := by
  refine ⟨Output.storable_of_ne_value nofun, ?_⟩
  simp [generated, method, integration, permission]

theorem StaticFile.storable {resourceId bucket : String} {r : StaticRoute} :
    (generated s api rest resourceId bucket r).Storable := by
  refine ⟨Output.storable_of_ne_value nofun, ?_⟩
  simp [generated, object, integration, methodResponse, integrationResponse]

theorem Publication.storable {d : Deployment} : (generated api rest d).Storable := by
  refine ⟨Output.storable_of_ne_value nofun, ?_⟩
  simp [generated, resource]

theorem Preflight.storable : (generated s api rest).Storable := by
  refine ⟨Output.storable_of_ne_value nofun, ?_⟩
  refine List.forall_mem_flatMap.mpr fun p _ => ?_
  simp [handlers, headers, method, integration, methodResponse, integrationResponse]

theorem EventRule.storable {t : Timer} {function : FunctionIds} :
    (generated s t function).Storable := by
  refine ⟨Output.storable_of_ne_value nofun, ?_⟩
  simp [generated, rule, target, permission]

theorem DomainAlias.storable {st : Stage} {d : DnsAlias} : (generated rest st d).Storable := by
  refine ⟨Output.storable_of_ne_value nofun, ?_⟩
  simp [generated, certificate, zone, domain, mapping, record]

/-- What is generated for an entity of a family can be stored. -/
theorem Family.storable_of_prescribed {a : Family} (h : a.prescribed s grants e = some g) :
    g.Storable := by
  unfold prescribed at h
  split at h <;> simp only [Option.bind_eq_bind, Option.bind_eq_some_iff, Option.pure_def,
    Option.some.injEq, reduceCtorEq] at h
  case h_1 => exact h ▸ RestApi.storable
  case h_2 =>
    obtain ⟨_, _, _, _, _, _, rfl⟩ := h
    exact PathResource.storable
  case h_3 => exact h ▸ Function.storable
  case h_4 =>
    obtain ⟨_, _, rfl⟩ := h
    exact Route.storable
  case h_5 =>
    obtain ⟨_, _, _, _, rfl⟩ := h
    exact StaticFile.storable
  case h_6 =>
    obtain ⟨_, _, rfl⟩ := h
    exact Publication.storable
  case h_7 => exact h ▸ Preflight.storable
  case h_8 => exact h ▸ EventRule.storable
  case h_9 =>
    obtain ⟨_, _, rfl⟩ := h
    exact DomainAlias.storable

end Aws

/-! ## Azure -/

namespace Azure

open FieldValue Resource

variable {s : Schema} {grants : Grants} {e : Entity} {g : Generated}

/-- The settings of an app are as deep as an environment. -/
@[simp]
theorem FunctionApp.storable_settings (l : Lambda) : (settings l).Storable 5 :=
  storable_ofPairs (List.forall_mem_cons.mpr
    ⟨storable_text _, List.forall_mem_map.mpr fun _ _ => storable_text _⟩)

theorem FunctionApp.storable {ctx : Context} {id : String} {l : Lambda} :
    (generateFor ctx id l).Storable := by
  refine ⟨Output.storable_of_ne_value nofun, ?_⟩
  simp [generateFor, app, assignment]

theorem HttpBinding.storable {l : Lambda} {r : DynamicRoute} {app : FunctionAppIds} :
    (generated l r app).Storable := by
  refine ⟨Output.storable_of_ne_value nofun, ?_⟩
  simp [generated, file, Binding.file]

theorem TimerBinding.storable {l : Lambda} {t : Timer} : (generateFor l t).Storable := by
  refine ⟨Output.storable_of_ne_value nofun, ?_⟩
  simp [generateFor, file, Binding.file]

/-- What is generated for an entity can be stored. -/
theorem storable_of_prescribed (h : prescribed s grants e = some g) : g.Storable := by
  unfold prescribed at h
  split at h <;> simp only [Option.bind_eq_bind, Option.bind_eq_some_iff, Option.pure_def,
    Option.some.injEq, reduceCtorEq] at h
  case h_1 => exact h ▸ FunctionApp.storable
  case h_2 =>
    obtain ⟨_, _, rfl⟩ := h
    exact HttpBinding.storable
  case h_3 =>
    obtain ⟨_, _, rfl⟩ := h
    exact TimerBinding.storable

end Azure

/-! ## Passes -/

namespace Manifest

/-- Outputs of a manifest hold members by key, no floating point number, and at most two levels. -/
def Storable (m : Manifest) : Prop :=
  ∀ output ∈ m.outputs.entries,
    output.2.sorted = output.2 ∧ output.2.IsExact ∧ output.2.depth ≤ 2

end Manifest

/-- The JSON form of an output is in order already, exact, and at most two levels deep. -/
theorem Output.Storable.toJson {o : Output} (h : o.Storable) :
    o.toJson.sorted = o.toJson ∧ o.toJson.IsExact ∧ o.toJson.depth ≤ 2 :=
  ⟨sorted_sorted _, isExact_sorted _ h.1, (depth_sorted_le _).trans h.2⟩

/-- A graph that can be stored is read back from the text of its file. -/
theorem Graph.ofText_text_of_storable {g : Graph} (hresources : ∀ r ∈ g.resources, r.Storable)
    (hmanifest : g.manifest.Storable) : ofText g.text = .ok g := by
  have houtputs : (Json.obj g.manifest.outputs.entries).depth ≤ 3 :=
    depth_obj_le_iff.mpr fun output houtput => (hmanifest output houtput).2.2
  have hlevels : g.toJson.depth ≤ 9 := by
    have hlist : (Json.arr (g.resources.map Resource.toJson)).depth ≤ 8 :=
      depth_arr_le_iff.mpr (List.forall_mem_map.mpr fun r hr => (hresources r hr).depth_toJson_le)
    have hmanifest : (Json.obj [("outputs", .obj g.manifest.outputs.entries)]).depth ≤ 8 :=
      depth_obj_le_iff.mpr (List.forall_mem_singleton.mpr (houtputs.trans (by decide)))
    rw [toJson, depth_obj_le_iff]
    simp [hlist, hmanifest, -depth_obj_le_iff, -depth_arr_le_iff]
  have hdistinct : g.IsDistinct :=
    ⟨fun r hr => (hresources r hr).isDistinct, fun output houtput => (hmanifest output houtput).1⟩
  have hexact := isExact_toJson fun output houtput => (hmanifest output houtput).2.1
  exact ofText_text hdistinct hexact (hlevels.trans (by decide))

namespace Schema

variable {s : Schema} {library : List Declaration} {grants : Grants} {pass : Pass}

/-- Whatever is prescribed can be stored. -/
theorem storable_of_prescribed {item : WorkItem} {g : Generated}
    (h : s.prescribed grants item = some g) : g.Storable := by
  unfold prescribed at h
  split at h
  · obtain ⟨_, _, hfamily⟩ := Option.bind_eq_some_iff.mp h
    exact Aws.Family.storable_of_prescribed hfamily
  · exact Azure.storable_of_prescribed h

/-- Whatever a pass emits and publishes can be stored. -/
theorem storable_of_generate (hgen : s.generate library = .ok pass) :
    (∀ r ∈ pass.resources, r.Storable) ∧ pass.manifest.Storable := by
  obtain ⟨grants, done, ctx, _, hist, _, hresources, hmanifest⟩ := generate_history hgen
  have hstorable : ∀ c ∈ done, c.generated.Storable :=
    fun c hc => storable_of_prescribed (prescribed_of_mem hist hc)
  constructor
  · rw [hresources, hist.resources_eq]
    exact List.forall_mem_flatMap.mpr fun c hc => (hstorable c hc).resources
  · intro output houtput
    rw [hmanifest] at houtput
    -- an output of the manifest was registered by a completion
    have hmem := OrderedMap.mem_of_mem_ofList houtput
    rw [hist.outputs_eq, List.map_map] at hmem
    obtain ⟨c, hc, rfl⟩ := List.mem_map.mp hmem
    exact (hstorable c hc).output.toJson

end Schema
end InfraGraph
