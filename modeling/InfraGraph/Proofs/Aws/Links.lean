import InfraGraph.Proofs.Aws.Outputs
import InfraGraph.Proofs.Resource.Closed

/-!
# What AWS resources refer to

Everything that is generated on AWS refers to resources before it.  Only preflight handlers refer
forward, to path resources that a pass may emit later; methods and what belongs to them are the
late resources, and nothing else refers to them.  Main statements:

* `Aws.IsAnswer`, `Aws.Promised` — late resources, and what they may refer to;
* `Aws.Backed`, `Aws.Found` — references that a resource may hold;
* `Route.linked`, `StaticFile.linked`, `Preflight.linked`, … — what one item generates is linked.
-/

namespace InfraGraph
namespace Aws

open Resource

/-! ## References that are allowed -/

/-- Kinds of the resources that answer a method. -/
def answerKinds : List String :=
  [Gateway.methodKind, Gateway.integrationKind, Gateway.methodResponseKind,
    Gateway.integrationResponseKind]

/-- The resource belongs to the answer to a method. -/
def IsAnswer (r : Resource) : Prop := r.kind ∈ answerKinds

instance : DecidablePred IsAnswer := fun r => inferInstanceAs (Decidable (r.kind ∈ answerKinds))

/-- A reference to the resource of a route path, which a pass emits sooner or later. -/
def Promised (s : Schema) (ref : String) : Prop :=
  ∃ api p, s.api = some api ∧ p ∈ s.routePaths ∧
    ref = PathResource.kind ++ "." ++ PathResource.resourceName api p ++ "." ++ "id"

/-- A reference to a resource that is there and no answer. -/
def Backed (rs : List Resource) (ref : String) : Prop :=
  ∃ t ∈ rs, ¬IsAnswer t ∧ ∃ part : String, part ≠ "" ∧ ref = t.attr part

/-- A reference to a resource that is there or promised. -/
def Found (s : Schema) (rs : List Resource) (ref : String) : Prop :=
  (∃ t ∈ rs, ∃ part : String, part ≠ "" ∧ ref = t.attr part) ∨ Promised s ref

variable {s : Schema} {before more : List Resource} {r : Resource} {ref : String}

/-- What backs a reference stays. -/
theorem Backed.mono (hsub : before ⊆ more) (h : Backed before ref) : Backed more ref := by
  rcases h with ⟨t, ht, hrest⟩
  exact ⟨t, hsub ht, hrest⟩

theorem Backed.found (h : Backed before ref) : Found s before ref := by
  rcases h with ⟨t, ht, _, hattr⟩
  exact Or.inl ⟨t, ht, hattr⟩

/-- A resource that is no answer backs references to its attributes. -/
theorem backed_attr {t : Resource} {part : String} (ht : t ∈ before) (hkind : ¬IsAnswer t)
    (hpart : part ≠ "") : Backed before (t.attr part) :=
  ⟨t, ht, hkind, part, hpart, rfl⟩

theorem found_attr {t : Resource} {part : String} (ht : t ∈ before) (hpart : part ≠ "") :
    Found s before (t.attr part) :=
  Or.inl ⟨t, ht, part, hpart, rfl⟩

/-- A resource that is no answer is linked by backed references. -/
theorem linked_of_backed
    (hdeps : ∀ address ∈ r.dependsOn, ∃ t ∈ before, ¬IsAnswer t ∧ t.address = address)
    (hrefs : ∀ ref ∈ r.refs, Backed before ref) : Linked IsAnswer (Promised s) before r := by
  refine ⟨fun address ha => ?_, fun ref href => Or.inl ?_⟩
  · rcases hdeps address ha with ⟨t, ht, hnot, hta⟩
    exact ⟨t, ht, hta, fun h => absurd h hnot⟩
  · rcases hrefs ref href with ⟨t, ht, hnot, hattr⟩
    exact ⟨t, ht, hattr, fun h => absurd h hnot⟩

/-- An answer is linked by references that can be found. -/
theorem linked_of_found (hanswer : IsAnswer r)
    (hdeps : ∀ address ∈ r.dependsOn, ∃ t ∈ before, t.address = address)
    (hrefs : ∀ ref ∈ r.refs, Found s before ref) : Linked IsAnswer (Promised s) before r := by
  refine ⟨fun address ha => ?_, fun ref href => ?_⟩
  · rcases hdeps address ha with ⟨t, ht, hta⟩
    exact ⟨t, ht, hta, fun _ => hanswer⟩
  · rcases hrefs ref href with ⟨t, ht, hattr⟩ | hpromise
    · exact Or.inl ⟨t, ht, hattr, fun _ => hanswer⟩
    · exact Or.inr ⟨hanswer, hpromise⟩

/-- Addresses of resources that are there, one by one. -/
theorem exists_address_cons {t : Resource} {addresses : List String} (ht : t ∈ before)
    (h : ∀ address ∈ addresses, ∃ t ∈ before, t.address = address) :
    ∀ address ∈ t.address :: addresses, ∃ t ∈ before, t.address = address :=
  List.forall_mem_cons.mpr ⟨⟨t, ht, rfl⟩, h⟩

/-- A map without references. -/
theorem found_refs_ofPairs {pairs : List (String × FieldValue)}
    (h : ∀ pair ∈ pairs, pair.2.refs = []) :
    ∀ ref ∈ (FieldValue.ofPairs pairs).refs, Found s before ref := by
  refine FieldValue.forall_refs_ofPairs fun pair hpair ref href => ?_
  rw [h pair hpair] at href
  exact absurd href List.not_mem_nil

/-! ## Methods and their parts -/

namespace Gateway

variable {name restApiId resourceId httpMethod kind : String} {m : Resource}
  {fields : List (String × FieldValue)} {addresses : List String}

/-- A method is linked to the REST API and the path that it names. -/
theorem linked_method (hapi : Found s before restApiId) (hresource : Found s before resourceId) :
    Linked IsAnswer (Promised s) before (method name restApiId resourceId httpMethod) := by
  refine linked_of_found (by simp [IsAnswer, answerKinds, method, ofFields]) (by simp [method]) ?_
  refine forall_refs_ofFields ?_
  simp [FieldValue.refs, hapi, hresource]

/-- A part of a method refers to its method, to the REST API and the path, and to what its fields
refer to. -/
theorem found_refs_part (hapi : Found s before restApiId) (hresource : Found s before resourceId)
    (hm : m ∈ before)
    (hfields : ∀ field ∈ fields, ∀ ref ∈ field.2.refs, Found s before ref) :
    ∀ ref ∈ (part kind name restApiId resourceId m fields).refs, Found s before ref := by
  have hmethod : Found s before (m.attr "http_method") := found_attr hm (by decide)
  refine forall_refs_ofFields (List.forall_mem_append.mpr ⟨?_, hfields⟩)
  simp [FieldValue.refs, hapi, hresource, hmethod]

/-- A part of a method is linked where these references are. -/
theorem linked_part (hkind : kind ∈ answerKinds) (hapi : Found s before restApiId)
    (hresource : Found s before resourceId) (hm : m ∈ before)
    (hfields : ∀ field ∈ fields, ∀ ref ∈ field.2.refs, Found s before ref) :
    Linked IsAnswer (Promised s) before (part kind name restApiId resourceId m fields) :=
  linked_of_found hkind (by simp [part]) (found_refs_part hapi hresource hm hfields)

/-- This holds of parts that wait for another one too. -/
theorem linked_part_after (hkind : kind ∈ answerKinds) (hapi : Found s before restApiId)
    (hresource : Found s before resourceId) (hm : m ∈ before)
    (hfields : ∀ field ∈ fields, ∀ ref ∈ field.2.refs, Found s before ref)
    (hdeps : ∀ address ∈ addresses, ∃ t ∈ before, t.address = address) :
    Linked IsAnswer (Promised s) before
      ((part kind name restApiId resourceId m fields).after addresses) := by
  refine linked_of_found hkind ?_ ?_
  · intro address ha
    exact hdeps address (by simpa [part, dependsOn_after] using ha)
  · rw [refs_after]
    exact found_refs_part hapi hresource hm hfields

end Gateway

/-! ## What one item generates -/

/-- References to the REST API of the schema. -/
structure BackedIds (rs : List Resource) (rest : RestApiIds) : Prop where
  restApi : Backed rs rest.restApiId
  root : Backed rs rest.rootResourceId

theorem BackedIds.mono {rest : RestApiIds} (hsub : before ⊆ more) (h : BackedIds before rest) :
    BackedIds more rest :=
  ⟨h.restApi.mono hsub, h.root.mono hsub⟩

/-- Resources without references and dependencies are linked to anything. -/
theorem linked_of_no_refs (hdeps : r.dependsOn = []) (hrefs : ∀ ref ∈ r.refs, False) :
    Linked IsAnswer (Promised s) before r :=
  linked_of_backed (by simp [hdeps]) fun ref href => (hrefs ref href).elim

/-- The REST API refers to nothing. -/
theorem RestApi.linked (api : Api) :
    LinkedAfter IsAnswer (Promised s) before (RestApi.generated s api).resources := by
  refine ⟨linked_of_no_refs rfl (forall_refs_ofFields (List.forall_mem_append.mpr ⟨?_, ?_⟩)),
    trivial⟩
  · simp [FieldValue.refs, FieldValue.refsOfItems]
  · simp [FieldValue.refs]

/-- A path resource refers to the REST API and its parent, which are there. -/
theorem PathResource.linked {api : Api} {rest : RestApiIds} {parentId segment : String}
    {p : UriPath} (hrest : BackedIds before rest) (hparent : Backed before parentId) :
    LinkedAfter IsAnswer (Promised s) before
      (PathResource.generated api rest parentId p segment).resources := by
  refine ⟨linked_of_backed (by simp [PathResource.resource]) (forall_refs_ofFields ?_), trivial⟩
  simp [FieldValue.refs, hrest.restApi, hparent]

theorem Function.no_refs_environment (l : Lambda) :
    ∀ field ∈ Function.environment l, ∀ ref ∈ field.2.refs, False := by
  have hvariables : ∀ ref ∈ (FieldValue.ofPairs (l.environment.entries.map fun entry =>
      (entry.1, FieldValue.text entry.2))).refs, False := by
    refine FieldValue.forall_refs_ofPairs fun pair hpair => ?_
    rcases List.mem_map.mp hpair with ⟨entry, _, rfl⟩
    simp [FieldValue.refs]
  unfold Function.environment
  split
  · simp
  · simp only [List.mem_singleton, forall_eq]
    exact FieldValue.forall_refs_ofPairs (List.forall_mem_singleton.mpr hvariables)

theorem Function.linked (ctx : Context) (id : String) (l : Lambda) :
    LinkedAfter IsAnswer (Promised s) before (Function.generateFor ctx id l).resources := by
  have hplain : ¬Function.roleKind ∈ answerKinds := by decide
  -- policy and function refer to the role, which stands first
  have hrole : ∀ {rs : List Resource} {role : Resource} {part : String},
      role.kind = Function.roleKind → role ∈ rs → part ≠ "" → Backed rs (role.attr part) := by
    intro rs role part hkind hmem hpart
    exact backed_attr hmem (by rw [IsAnswer, hkind]; exact hplain) hpart
  refine ⟨linked_of_no_refs rfl (forall_refs_ofFields ?_),
    linked_of_backed (by simp [Function.policy]) (forall_refs_ofFields ?_),
    linked_of_backed (by simp [Function.function]) (forall_refs_ofFields
      (List.forall_mem_append.mpr ⟨?_, ?_⟩)), trivial⟩
  · simp [FieldValue.refs]
  · simpa [FieldValue.refs] using hrole rfl (by simp) (by decide)
  · simpa [FieldValue.refs, FieldValue.natural] using hrole rfl (by simp) (by decide)
  · exact fun field hfield ref href => (Function.no_refs_environment l field hfield ref href).elim

/-- A route refers to the REST API, to its path and to the function of its lambda. -/
theorem Route.linked {api : Api} {rest : RestApiIds} {target : FunctionIds} {id : String}
    {r : DynamicRoute} (hrest : BackedIds before rest) (htarget : Backed before target.invokeArn)
    (hid : Backed before id) :
    LinkedAfter IsAnswer (Promised s) before
      (Route.generated api rest target id r).resources := by
  refine ⟨Gateway.linked_method hrest.restApi.found hid.found, ?_, ?_, trivial⟩
  · -- the integration follows the method that it answers
    have hsub : before ⊆ before ++ [Route.method (Route.routeName api r) rest id r] :=
      List.subset_append_left _ _
    refine Gateway.linked_part (by simp [answerKinds]) (hrest.restApi.mono hsub).found
      (hid.mono hsub).found (by simp) ?_
    simpa [FieldValue.refs] using (htarget.mono hsub).found
  · refine linked_of_no_refs rfl (forall_refs_ofFields ?_)
    simp [FieldValue.refs]

/-- A static route refers to the REST API and to its path. -/
theorem StaticFile.linked {api : Api} {rest : RestApiIds} {id bucket : String} {r : StaticRoute}
    (hrest : BackedIds before rest) (hid : Backed before id) :
    LinkedAfter IsAnswer (Promised s) before
      (StaticFile.generated s api rest id bucket r).resources := by
  have hfound : ∀ {more : List Resource}, Found s (before ++ more) rest.restApiId ∧
      Found s (before ++ more) id := fun {more} =>
    ⟨(hrest.restApi.mono (List.subset_append_left _ _)).found,
      (hid.mono (List.subset_append_left _ _)).found⟩
  refine ⟨linked_of_no_refs rfl (forall_refs_ofFields ?_),
    Gateway.linked_method hfound.1 hfound.2, ?_, ?_, ?_, trivial⟩
  · simp [FieldValue.refs]
  all_goals
    simp only [List.append_assoc]
    refine Gateway.linked_part_after (by simp [answerKinds]) hfound.1 hfound.2 (by simp) ?_ ?_
  · simp [FieldValue.refs]
  · exact exists_address_cons (by simp) (by simp)
  · exact List.forall_mem_cons.mpr ⟨by simp [FieldValue.refs],
      List.forall_mem_singleton.mpr (found_refs_ofPairs (by simp [FieldValue.refs]))⟩
  · exact exists_address_cons (by simp) (by simp)
  · exact List.forall_mem_cons.mpr
      ⟨List.forall_mem_singleton.mpr (found_attr (by simp) (by decide)),
        List.forall_mem_singleton.mpr (found_refs_ofPairs (by simp [FieldValue.refs]))⟩
  · exact exists_address_cons (by simp) (exists_address_cons (by simp) (by simp))

/-! ## Handlers -/

namespace Preflight

theorem refs_parameters {key : String × String → String} {value : String × String → FieldValue}
    (h : ∀ header, (value header).refs = []) :
    ∀ pair ∈ headers.map (fun header => (key header, value header)), pair.2.refs = [] := by
  intro pair hpair
  rcases List.mem_map.mp hpair with ⟨header, _, rfl⟩
  exact h header

/-- The handler of a path whose resource can be found. -/
theorem linked_handlers {api : Api} {rest : RestApiIds} {p : UriPath}
    (hrest : ∀ more, Found s (before ++ more) rest.restApiId)
    (hpath : ∀ more, Found s (before ++ more) (PathResource.reference api rest p)) :
    LinkedAfter IsAnswer (Promised s) before (handlers api rest p) := by
  refine ⟨Gateway.linked_method (by simpa using hrest []) (by simpa using hpath []), ?_, ?_, ?_,
    trivial⟩
  · refine Gateway.linked_part_after (by simp [answerKinds]) (hrest _) (hpath _) (by simp) ?_
      (exists_address_cons (by simp) (by simp))
    exact List.forall_mem_cons.mpr ⟨by simp [FieldValue.refs],
      List.forall_mem_singleton.mpr (found_refs_ofPairs (by simp [FieldValue.refs]))⟩
  · simp only [List.append_assoc]
    refine Gateway.linked_part_after (by simp [answerKinds]) (hrest _) (hpath _) (by simp) ?_
      (exists_address_cons (by simp) (by simp))
    exact List.forall_mem_cons.mpr ⟨by simp [FieldValue.refs],
      List.forall_mem_singleton.mpr
        (found_refs_ofPairs (refs_parameters (by simp [FieldValue.refs])))⟩
  · simp only [List.append_assoc]
    refine Gateway.linked_part_after (by simp [answerKinds]) (hrest _) (hpath _) (by simp) ?_
      (exists_address_cons (by simp) (exists_address_cons (by simp) (by simp)))
    exact List.forall_mem_cons.mpr
      ⟨List.forall_mem_singleton.mpr (found_attr (by simp) (by decide)),
        List.forall_mem_singleton.mpr
          (found_refs_ofPairs (refs_parameters (by simp [FieldValue.refs])))⟩

/-- The reference of a served path leads to a resource that is there or promised. -/
theorem found_reference {api : Api} {rest : RestApiIds} (hapi : s.api = some api)
    (hrest : BackedIds before rest) {p : UriPath} (hp : p ∈ s.servedPaths) :
    Found s before (PathResource.reference api rest p) := by
  rcases Schema.mem_routePaths_of_mem_servedPaths hp with rfl | hroute
  · exact hrest.root.found
  · have hne : p ≠ .root := fun e => Schema.root_not_mem_routePaths (e ▸ hroute)
    rw [PathResource.reference_of_ne_root hne]
    refine Or.inr ⟨api, p, hapi, hroute, ?_⟩
    -- the reference is made from names, as the resource will be
    have hid : ".id" = "." ++ "id" := rfl
    rw [hid, ← String.append_assoc]

/-- Handlers refer to paths by name, so their resources may still be missing. -/
theorem linked {api : Api} {rest : RestApiIds} (hapi : s.api = some api)
    (hrest : BackedIds before rest) :
    LinkedAfter IsAnswer (Promised s) before (generated s api rest).resources := by
  refine linkedAfter_flatMap fun p hp more => ?_
  -- the API is there before all handlers, whatever comes between
  have hids : ∀ others, BackedIds (before ++ more ++ others) rest := fun others =>
    hrest.mono (by rw [List.append_assoc]; exact List.subset_append_left _ _)
  exact linked_handlers (fun others => (hids others).restApi.found)
    fun others => found_reference hapi (hids others) hp

end Preflight

/-! ## Publication, timers and domain alias -/

/-- A deployment refers to the REST API. -/
theorem Publication.linked {api : Api} {rest : RestApiIds} {d : Deployment}
    (hrest : BackedIds before rest) :
    LinkedAfter IsAnswer (Promised s) before (Publication.generated api rest d).resources := by
  refine ⟨linked_of_backed (by simp [Publication.resource]) (forall_refs_ofFields ?_), trivial⟩
  refine List.forall_mem_cons.mpr ⟨by simpa [FieldValue.refs] using hrest.restApi,
    List.forall_mem_cons.mpr ⟨by simp [FieldValue.refs], List.forall_mem_singleton.mpr ?_⟩⟩
  exact FieldValue.forall_refs_ofPairs (by simp [FieldValue.refs])

/-- A rule, its target and its permission refer to each other and to the function. -/
theorem EventRule.linked {t : Timer} {function : FunctionIds} (harn : Backed before function.arn) :
    LinkedAfter IsAnswer (Promised s) before (EventRule.generated s t function).resources := by
  have hplain : ¬EventRule.ruleKind ∈ answerKinds := by decide
  have hrule : ∀ {rs : List Resource} {part : String}, EventRule.rule s t ∈ rs → part ≠ "" →
      Backed rs ((EventRule.rule s t).attr part) := fun hmem hpart =>
    backed_attr hmem hplain hpart
  refine ⟨linked_of_no_refs rfl (forall_refs_ofFields ?_),
    linked_of_backed (by simp [EventRule.target]) (forall_refs_ofFields ?_),
    linked_of_backed (by simp [EventRule.permission]) (forall_refs_ofFields ?_), trivial⟩
  · simp [FieldValue.refs]
  · have harn' := harn.mono (List.subset_append_left before [EventRule.rule s t])
    simpa [FieldValue.refs] using ⟨hrule (by simp) (by decide), harn'⟩
  · simpa [FieldValue.refs] using hrule (by simp) (by decide)

namespace DomainAlias

theorem kinds_plain : ∀ kind ∈ [certificateKind, zoneKind, domainKind], ¬kind ∈ answerKinds := by
  decide

theorem linked_domain {d : DnsAlias} (hcertificate : certificate d ∈ before) :
    Linked IsAnswer (Promised s) before (domain d (certificate d)) := by
  refine linked_of_backed (by simp [domain]) (forall_refs_ofFields ?_)
  have harn : Backed before ((certificate d).attr "arn") :=
    backed_attr hcertificate (kinds_plain _ (by simp [certificate, ofFields])) (by decide)
  simpa [FieldValue.refs] using harn

/-- The mapping comes after the deployment of the stage and refers to the domain. -/
theorem linked_mapping {rest : RestApiIds} {st : Stage} {d : DnsAlias} {c : Resource}
    (hrest : BackedIds before rest)
    (hstage : ∃ t ∈ before, ¬IsAnswer t ∧ t.address = st.deployment)
    (hdomain : domain d c ∈ before) :
    Linked IsAnswer (Promised s) before (mapping d rest st (domain d c)) := by
  refine linked_of_backed (List.forall_mem_singleton.mpr hstage) ?_
  rw [mapping, refs_after]
  have hname : Backed before ((domain d c).attr "domain_name") :=
    backed_attr hdomain (kinds_plain _ (by simp [domain, ofFields])) (by decide)
  exact forall_refs_ofFields (by simpa [FieldValue.refs] using ⟨hrest.restApi, hname⟩)

theorem linked_record {d : DnsAlias} {c : Resource} (hzone : zone d ∈ before)
    (hdomain : domain d c ∈ before) :
    Linked IsAnswer (Promised s) before (record d (zone d) (domain d c)) := by
  have hzoneId : Backed before ((zone d).attr "zone_id") :=
    backed_attr hzone (kinds_plain _ (by simp [zone, ofFields])) (by decide)
  have hcloudfront : ∀ part : String, part ≠ "" → Backed before ((domain d c).attr part) :=
    fun _ hpart => backed_attr hdomain (kinds_plain _ (by simp [domain, ofFields])) hpart
  refine linked_of_backed (by simp [record]) (forall_refs_ofFields ?_)
  refine List.forall_mem_cons.mpr ⟨by simpa [FieldValue.refs] using hzoneId,
    List.forall_mem_cons.mpr ⟨by simp [FieldValue.refs], List.forall_mem_cons.mpr
      ⟨by simp [FieldValue.refs], List.forall_mem_singleton.mpr ?_⟩⟩⟩
  refine FieldValue.forall_refs_ofPairs ?_
  simpa [FieldValue.refs] using
    ⟨hcloudfront "cloudfront_domain_name" (by decide), hcloudfront "cloudfront_zone_id" (by decide)⟩

/-- An alias refers to the REST API and to the deployment of the stage. -/
theorem linked {rest : RestApiIds} {st : Stage} {d : DnsAlias} (hrest : BackedIds before rest)
    (hstage : ∃ t ∈ before, ¬IsAnswer t ∧ t.address = st.deployment) :
    LinkedAfter IsAnswer (Promised s) before (generated rest st d).resources := by
  -- certificate and zone are looked up, so they refer to nothing
  refine ⟨linked_of_no_refs rfl (forall_refs_ofFields ?_),
    linked_of_no_refs rfl (forall_refs_ofFields ?_), linked_domain (by simp), ?_,
    linked_record (by simp) (by simp), trivial⟩
  · simp [FieldValue.refs, FieldValue.refsOfItems]
  · simp [FieldValue.refs]
  · rcases hstage with ⟨t, ht, hstage⟩
    refine linked_mapping (hrest.mono ?_) ⟨t, ?_, hstage⟩ (by simp)
    · simp only [List.append_assoc]
      exact List.subset_append_left _ _
    · simp [ht]

end DomainAlias

end Aws
end InfraGraph
