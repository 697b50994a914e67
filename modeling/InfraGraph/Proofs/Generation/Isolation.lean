import InfraGraph.Proofs.Aws.Completion
import InfraGraph.Proofs.Azure.Completion
import InfraGraph.Proofs.Generation.Lockstep
import InfraGraph.Proofs.Generation.Prescription

/-!
# Lambdas are granted apart

What a lambda declares decides its own grants, and nothing but its own policy or role assignments is
made from these.  So two passes for schemas that differ in the declarations of one lambda run in
lockstep, and differ in these resources alone.  Main statements:

* `Schema.declaring` — a schema with other declarations of one lambda;
* `Context.Alike`, `Producer.mayRun_redeclared` — declarations do not matter for what is ready;
* `Schema.permissionsOf`, `Schema.prescribed_own`, `Schema.prescribed_redeclared` — what they matter
  for;
* `Schema.Abreast`, `Schema.lockstep_declaring` — passes that have completed the same items;
* `Schema.permission_isolation` — two passes differ in the permissions of the lambda alone.
-/

namespace InfraGraph

/-! ## Other declarations of one lambda -/

/-- The lambda of an id, with other declarations if the id is the given one. -/
def Lambda.redeclared (target : String) (ds : List Declaration) (id : String) (l : Lambda) :
    Lambda :=
  if id = target then { l with permissions := ds } else l

namespace Schema

/-- The schema with other declarations of one lambda. -/
def declaring (s : Schema) (target : String) (ds : List Declaration) : Schema :=
  { s with
    lambdas :=
      { entries := s.lambdas.entries.map fun entry =>
          (entry.1, entry.2.redeclared target ds entry.1)
        distinct := by simpa [Function.comp_def] using s.lambdas.distinct } }

end Schema

/-- The part of the schema with other declarations of one lambda. -/
def Entity.redeclared (target : String) (ds : List Declaration) : Entity → Entity
  | .lambda id l => .lambda id (l.redeclared target ds id)
  | e => e

/-- The item of the schema with other declarations of one lambda. -/
def WorkItem.redeclared (target : String) (ds : List Declaration) (item : WorkItem) : WorkItem :=
  ⟨item.producer, item.entity.redeclared target ds⟩

variable {s : Schema} {target : String} {ds : List Declaration}

/-- Declarations are no part of an id. -/
theorem Entity.id_redeclared (e : Entity) : (e.redeclared target ds).id = e.id := by
  cases e <;> rfl

/-- Only lambdas have declarations. -/
theorem Entity.redeclared_of_ne {e : Entity} (h : ∀ id l, e ≠ .lambda id l) :
    e.redeclared target ds = e := by
  cases e with
  | lambda id l => exact absurd rfl (h id l)
  | _ => rfl

theorem Entity.map_redeclared_of_ne {es : List Entity} (h : ∀ e ∈ es, ∀ id l, e ≠ .lambda id l) :
    es.map (redeclared target ds) = es := by
  rw [List.map_congr_left fun e he => redeclared_of_ne (h e he), List.map_id']

theorem WorkItem.key_redeclared (item : WorkItem) : (item.redeclared target ds).key = item.key := by
  simp [key, redeclared, Entity.id_redeclared]

namespace Schema

/-- Only the one lambda is changed. -/
theorem get?_declaring (id : String) :
    (s.declaring target ds).lambdas.get? id =
      (s.lambdas.get? id).map (Lambda.redeclared target ds id) := by
  simp only [declaring, OrderedMap.get?]
  induction s.lambdas.entries with
  | nil => rfl
  | cons entry rest ih =>
      by_cases h : entry.1 = id
      · simp [Entries.get?, h]
      · simpa [Entries.get?, h] using ih

/-- The lambdas are the same but for the declarations of one. -/
theorem lambdaEntities_declaring : (s.declaring target ds).lambdaEntities =
    s.lambdaEntities.map (Entity.redeclared target ds) := by
  simp only [lambdaEntities, declaring, List.map_map]
  rfl

/-- The entities are the same, but for the declarations. -/
theorem entities_declaring {p : Producer} (hp : p ∈ Producer.all) :
    p.entities (s.declaring target ds) = (p.entities s).map (Entity.redeclared target ds) := by
  -- where the entities are no lambdas, they are read from what the schemas have in common
  have hother : p.entities (s.declaring target ds) = p.entities s →
      (∀ e ∈ p.entities s, ∀ id l, e ≠ .lambda id l) →
        p.entities (s.declaring target ds) = (p.entities s).map (Entity.redeclared target ds) :=
    fun hsame hne => hsame.trans (Entity.map_redeclared_of_ne hne).symm
  rcases Producer.mem_all_iff.mp hp with
    rfl | rfl | rfl | rfl | rfl | rfl | rfl | rfl | rfl | rfl | rfl
  · refine hother rfl fun e he => ?_
    rcases Aws.RestApi.mem_entities_iff.mp he with ⟨_, _, rfl⟩
    simp
  · refine hother rfl fun e he => ?_
    rcases Aws.PathResource.mem_entities_iff.mp he with ⟨_, _, _, _, rfl⟩
    simp
  · exact lambdaEntities_declaring
  · refine hother rfl fun e he => ?_
    rcases Aws.Route.mem_entities_iff.mp he with ⟨_, _, _, _, rfl⟩
    simp
  · refine hother rfl fun e he => ?_
    rcases Aws.StaticFile.mem_entities_iff.mp he with ⟨_, _, _, _, rfl⟩
    simp
  · refine hother rfl fun e he => ?_
    rcases Aws.Publication.mem_entities_iff.mp he with ⟨_, _, rfl⟩
    simp
  · refine hother rfl fun e he => ?_
    rcases Aws.Preflight.mem_entities_iff.mp he with ⟨_, _, _, rfl⟩
    simp
  · refine hother rfl fun e he => ?_
    rcases Timers.mem_entities_iff.mp he with ⟨_, _, rfl⟩
    simp
  · refine hother rfl fun e he => ?_
    rcases Aws.DomainAlias.mem_entities_iff.mp he with ⟨_, _, _, _, rfl⟩
    simp
  · exact lambdaEntities_declaring
  · refine hother rfl fun e he => ?_
    rcases Azure.HttpBinding.mem_entities_iff.mp he with ⟨_, _, rfl⟩
    simp

/-- The items are the same, but for the declarations. -/
theorem items_declaring {producers : List Producer} (h : producers ⊆ Producer.all) :
    Schedule.items producers (s.declaring target ds) =
      (Schedule.items producers s).map (WorkItem.redeclared target ds) := by
  simp only [Schedule.items, List.map_flatMap, List.map_map]
  refine List.flatMap_congr fun p hp => ?_
  rw [entities_declaring (h hp), List.map_map]
  rfl

end Schema

/-! ## What is ready -/

/-- States of passes for schemas that differ in declarations: what is ready is the same. -/
structure Context.Alike (ctx ctx' : Context) : Prop where
  platform_eq : ctx'.schema.platform = ctx.schema.platform
  api_eq : ctx'.schema.api = ctx.schema.api
  hasLambda_eq : ctx'.hasLambda = ctx.hasLambda
  has_eq : ctx'.has = ctx.has

/-- Declarations do not matter for what is ready. -/
theorem Producer.mayRun_redeclared {p : Producer} (hp : p ∈ all) {ctx ctx' : Context}
    (h : ctx.Alike ctx') (e : Entity) :
    p.mayRun ctx' (e.redeclared target ds) = p.mayRun ctx e := by
  -- the checks that several producers share
  have hthere : Aws.RestApi.isSchemaApiThere ctx' = Aws.RestApi.isSchemaApiThere ctx := by
    simp only [Aws.RestApi.isSchemaApiThere, Aws.RestApi.isThere, Schema.apiId?, h.api_eq, h.has_eq]
  have hpath : Aws.PathResource.isReady ctx' = Aws.PathResource.isReady ctx := by
    funext path
    simp only [Aws.PathResource.isReady, hthere, h.has_eq]
  have hfunction : Aws.Function.isReady ctx' = Aws.Function.isReady ctx := by
    funext id
    simp only [Aws.Function.isReady, Aws.Function.isThere, h.hasLambda_eq, h.has_eq]
  have happ : Azure.FunctionApp.isReady ctx' = Azure.FunctionApp.isReady ctx := by
    funext id
    simp only [Azure.FunctionApp.isReady, h.hasLambda_eq, h.has_eq]
  rcases mem_all_iff.mp hp with rfl | rfl | rfl | rfl | rfl | rfl | rfl | rfl | rfl | rfl | rfl
  all_goals
    cases e <;>
      simp only [Entity.redeclared, Aws.RestApi.producer, Aws.PathResource.producer,
        Aws.Function.producer, Aws.Route.producer, Aws.StaticFile.producer,
        Aws.Publication.producer, Aws.Preflight.producer, Timers.producer,
        Aws.DomainAlias.producer, Azure.FunctionApp.producer, Azure.HttpBinding.producer,
        Aws.RestApi.isThere, Aws.Publication.isThere, hthere, hpath, hfunction, happ, h.platform_eq,
        h.api_eq, h.has_eq]

namespace Schema

/-! ## What declarations matter for -/

/-- Resources that hold the permissions of a lambda: its policy on AWS, the role assignments of its
app on Azure. -/
def permissionsOf (s : Schema) (grants : Grants) (id : String) : List Resource :=
  match s.platform with
  | .aws =>
      let document := (PolicyDocument.ofGrants (grants.of id) s.region s.account).text
      [Aws.Function.policy (Name.identifier [id]) document
        (Aws.Function.role (Name.identifier [id]) (Name.cloud [s.name, id]))]
  | .azure =>
      (RoleAssignment.ofGrants (grants.of id) s.account).toList.map
        (Azure.FunctionApp.assignment id (Azure.FunctionApp.idsFor s id).principalId)

end Schema

def Platform.lambdaProducer : Platform → Producer
  | aws => Aws.Function.producer
  | azure => Azure.FunctionApp.producer

/-- The permissions of a lambda are its policy, under its own name, or assignments of roles. -/
theorem Schema.kind_of_mem_permissionsOf {id : String} {grants : Grants} {r : Resource}
    (hr : r ∈ s.permissionsOf grants id) :
    match s.platform with
    | .aws => r.kind = Aws.Function.policyKind ∧ r.name = Name.identifier [id]
    | .azure => r.kind = Azure.FunctionApp.roleKind := by
  unfold permissionsOf at hr
  cases hplatform : s.platform with
  | aws =>
      rw [hplatform] at hr
      rw [List.mem_singleton.mp hr]
      exact ⟨rfl, rfl⟩
  | azure =>
      rw [hplatform] at hr
      obtain ⟨_, _, rfl⟩ := List.mem_map.mp hr
      rfl

/-! Bindings read the artifact and the handler of a lambda, but not its declarations. -/

/-- Bindings do not depend on declarations. -/
theorem Azure.HttpBinding.generated_redeclared {id : String} (l : Lambda) (r : DynamicRoute)
    (app : FunctionAppIds) : generated (l.redeclared target ds id) r app = generated l r app := by
  unfold Lambda.redeclared
  split <;> rfl

theorem Azure.TimerBinding.generateFor_redeclared {id : String} (l : Lambda) (t : Timer) :
    generateFor (l.redeclared target ds id) t = generateFor l t := by
  unfold Lambda.redeclared
  split <;> rfl

namespace Schema

variable {library : List Declaration} {grants grants' : Grants}

@[simp]
theorem platform_declaring : (s.declaring target ds).platform = s.platform := rfl

theorem frame_declaring : (s.declaring target ds).frame = s.frame := rfl

/-- The lambda itself is generated as before, but for its permissions. -/
theorem prescribed_own (s : Schema) (target : String) (ds : List Declaration)
    (grants grants' : Grants) (l : Lambda) :
    ∃ output front back,
      s.prescribed grants ⟨s.platform.lambdaProducer, .lambda target l⟩ =
        some ⟨output, front ++ s.permissionsOf grants target ++ back⟩ ∧
      (s.declaring target ds).prescribed grants'
          (WorkItem.redeclared target ds ⟨s.platform.lambdaProducer, .lambda target l⟩) =
        some ⟨output, front ++ (s.declaring target ds).permissionsOf grants' target ++ back⟩ := by
  have hown : l.redeclared target ds target = { l with permissions := ds } := if_pos rfl
  simp only [prescribed, permissionsOf, WorkItem.redeclared, Entity.redeclared, platform_declaring,
    hown]
  cases s.platform with
  | aws =>
      have hnamed : Aws.Family.named Aws.Function.producer.name = some .function :=
        Aws.Family.named_name .function
      simp only [Platform.lambdaProducer, hnamed, Option.bind_some]
      -- the policy stands between the role and the function
      exact ⟨_, [_], [_], rfl, rfl⟩
  | azure =>
      -- the role assignments come last
      exact ⟨_, [_], [], by rw [List.append_nil]; rfl, by rw [List.append_nil]; rfl⟩

/-- The other lambdas have the same grants. -/
theorem grants_declaring (hgrants : s.grants library = .ok grants)
    (hgrants' : (s.declaring target ds).grants library = .ok grants') {id : String} {l : Lambda}
    (hl : (id, l) ∈ s.lambdas.entries) (hne : id ≠ target) : grants.of id = grants'.of id := by
  have hmem : (id, l) ∈ (s.declaring target ds).lambdas.entries :=
    List.mem_map.mpr ⟨(id, l), hl, by simp [Lambda.redeclared, hne]⟩
  have hhere := grants_of_mem hgrants hl
  have hthere := grants_of_mem hgrants' hmem
  rw [lambdaGrants, platform_declaring] at hthere
  rw [lambdaGrants, hthere] at hhere
  exact (Except.ok.inj hhere).symm

section Others

variable (hgrants : s.grants library = .ok grants)
  (hgrants' : (s.declaring target ds).grants library = .ok grants')

include hgrants hgrants'

/-- Whatever is not for the lambda itself is prescribed as before. -/
theorem prescribed_redeclared_aws {a : Aws.Family} {e : Entity} (he : e ∈ a.producer.entities s)
    (hne : ∀ l, e ≠ .lambda target l) :
    a.prescribed (s.declaring target ds) grants' (e.redeclared target ds) =
      a.prescribed s grants e := by
  have hframe : (s.declaring target ds).frame = s.frame := frame_declaring
  by_cases hfunction : a = .function
  · subst hfunction
    rcases Aws.Function.mem_entities_iff.mp he with ⟨id, l, hl, rfl⟩
    have hid : id ≠ target := fun hid => hne l (by rw [hid])
    have hsame : l.redeclared target ds id = l := if_neg hid
    simp only [Entity.redeclared, hsame]
    exact congrArg some (Aws.Function.generateFor_congr hframe
      (grants_declaring hgrants hgrants' hl hid).symm)
  · -- no other producer generates for lambdas
    cases e with
    | lambda id l =>
        rw [Aws.Family.prescribed_lambda_of_ne hfunction]
        exact Aws.Family.prescribed_lambda_of_ne hfunction _ _
    | _ =>
        by_cases hpreflight : a = .preflight
        · subst hpreflight
          rfl
        · exact Aws.Family.prescribed_congr hframe hfunction hpreflight _

theorem prescribed_redeclared_azure {item : WorkItem}
    (hitem : item ∈ Schedule.items Platform.azure.producers s)
    (hne : ∀ l, item.entity ≠ .lambda target l) :
    Azure.prescribed (s.declaring target ds) grants' (item.entity.redeclared target ds) =
      Azure.prescribed s grants item.entity := by
  have hframe : (s.declaring target ds).frame = s.frame := frame_declaring
  rcases Azure.mem_items_cases hitem with ⟨id, l, hl, rfl⟩ | ⟨r, _, rfl⟩ | ⟨t, _, rfl⟩
  · have hid : id ≠ target := fun hid => hne l (by rw [hid])
    have hsame : l.redeclared target ds id = l := if_neg hid
    simp only [Entity.redeclared, hsame]
    exact congrArg some (Azure.FunctionApp.generateFor_congr hframe
      (grants_declaring hgrants hgrants' hl hid).symm)
  · simp only [Entity.redeclared, Azure.prescribed, get?_declaring]
    cases s.lambdas.get? r.lambda with
    | none => rfl
    | some l => exact congrArg some (Azure.HttpBinding.generated_redeclared l r _)
  · simp only [Entity.redeclared, Azure.prescribed, get?_declaring]
    cases s.lambdas.get? t.lambda with
    | none => rfl
    | some l => exact congrArg some (Azure.TimerBinding.generateFor_redeclared l t)

end Others

/-- Items for other lambdas, and for what is no lambda, generate the same. -/
theorem prescribed_redeclared (hgrants : s.grants library = .ok grants)
    (hgrants' : (s.declaring target ds).grants library = .ok grants') {item : WorkItem}
    (hitem : item ∈ Schedule.items s.platform.producers s)
    (hne : ∀ l, item.entity ≠ .lambda target l) :
    (s.declaring target ds).prescribed grants' (item.redeclared target ds) =
      s.prescribed grants item := by
  simp only [prescribed, WorkItem.redeclared, platform_declaring]
  cases hplatform : s.platform with
  | aws =>
      rw [hplatform] at hitem
      obtain ⟨hp, he⟩ := Schedule.mem_items_iff.mp hitem
      obtain ⟨a, ha⟩ := Aws.Family.mem_producers_iff.mp hp
      rw [← ha] at he
      simp only [← ha, Aws.Family.named_name, Option.bind_some]
      exact prescribed_redeclared_aws hgrants hgrants' he hne
  | azure =>
      rw [hplatform] at hitem
      exact prescribed_redeclared_azure hgrants hgrants' hitem hne

/-- Only one producer generates anything for lambdas. -/
theorem producer_eq_of_lambda {item : WorkItem} {id : String} {l : Lambda} {g : Generated}
    (hitem : item ∈ Schedule.items s.platform.producers s) (hentity : item.entity = .lambda id l)
    (hg : s.prescribed grants item = some g) : item.producer = s.platform.lambdaProducer := by
  cases hplatform : s.platform with
  | aws =>
      rw [hplatform] at hitem
      obtain ⟨a, ha⟩ := Aws.Family.mem_producers_iff.mp (Schedule.mem_items_iff.mp hitem).1
      simp only [prescribed, hplatform, ← ha, Aws.Family.named_name, Option.bind_some,
        hentity] at hg
      by_cases hfunction : a = .function
      · rw [← ha, hfunction]
        rfl
      · rw [Aws.Family.prescribed_lambda_of_ne hfunction] at hg
        cases hg
  | azure =>
      rw [hplatform] at hitem
      rcases Azure.mem_items_cases hitem with ⟨_, _, _, rfl⟩ | ⟨_, _, rfl⟩ | ⟨_, _, rfl⟩
      · rfl
      · cases hentity
      · cases hentity

/-! ## Two passes side by side -/

/-- Completions of one item in a pass for a schema and in one for the schema with other
declarations, each as prescribed. -/
structure Matches (s : Schema) (target : String) (ds : List Declaration) (grants grants' : Grants)
    (c c' : Completion) : Prop where
  mem : c.item ∈ Schedule.items s.platform.producers s
  item_eq : c'.item = c.item.redeclared target ds
  prescribed : s.prescribed grants c.item = some c.generated
  prescribed' : (s.declaring target ds).prescribed grants' c'.item = some c'.generated

namespace Matches

variable {c c' : Completion}

/-- So such items generate the same in both passes. -/
theorem generated_eq (h : s.Matches target ds grants grants' c c')
    (hgrants : s.grants library = .ok grants)
    (hgrants' : (s.declaring target ds).grants library = .ok grants')
    (hne : ∀ l, c.item.entity ≠ .lambda target l) : c'.generated = c.generated := by
  have hsame := prescribed_redeclared hgrants hgrants' h.mem hne
  rw [← h.item_eq, h.prescribed, h.prescribed'] at hsame
  exact Option.some.inj hsame

/-- For the lambda itself, just its permission resources are replaced. -/
theorem own (h : s.Matches target ds grants grants' c c') {l : Lambda}
    (hentity : c.item.entity = .lambda target l) :
    c'.generated.output = c.generated.output ∧ ∃ front back,
      c.generated.resources = front ++ s.permissionsOf grants target ++ back ∧
      c'.generated.resources =
        front ++ (s.declaring target ds).permissionsOf grants' target ++ back := by
  obtain ⟨output, front, back, hown, hown'⟩ :=
    prescribed_own s target ds grants grants' l
  have hitem : ⟨s.platform.lambdaProducer, .lambda target l⟩ = c.item := by
    rw [← producer_eq_of_lambda h.mem hentity h.prescribed, ← hentity]
  rw [hitem, h.prescribed] at hown
  rw [hitem, ← h.item_eq, h.prescribed'] at hown'
  rw [Option.some.inj hown, Option.some.inj hown']
  exact ⟨rfl, front, back, rfl, rfl⟩

/-- Nothing that is registered depends on the declarations. -/
theorem registration_eq (h : s.Matches target ds grants grants' c c')
    (hgrants : s.grants library = .ok grants)
    (hgrants' : (s.declaring target ds).grants library = .ok grants') :
    c'.registration = c.registration := by
  have houtput : c'.generated.output = c.generated.output := by
    by_cases hown : ∃ l, c.item.entity = .lambda target l
    · obtain ⟨l, hentity⟩ := hown
      exact (h.own hentity).1
    · rw [h.generated_eq hgrants hgrants' fun l hentity => hown ⟨l, hentity⟩]
  simp only [Completion.registration, houtput, h.item_eq, WorkItem.redeclared, Entity.id_redeclared]

/-- A completion of another key is none for the lambda. -/
theorem ne_lambda (h : s.Matches target ds grants grants' c c')
    (hkey : c.item.key ≠ (s.platform.lambdaProducer.name, .lambda target)) :
    ∀ l, c.item.entity ≠ .lambda target l := by
  intro l hentity
  refine hkey ?_
  rw [WorkItem.key, producer_eq_of_lambda h.mem hentity h.prescribed, hentity]
  rfl

/-- Completions that are none for the lambda emit the same. -/
theorem resources_eq {cs cs' : List Completion}
    (h : List.Forall₂ (s.Matches target ds grants grants') cs cs')
    (hgrants : s.grants library = .ok grants)
    (hgrants' : (s.declaring target ds).grants library = .ok grants')
    (hkeys : ∀ c ∈ cs, c.item.key ≠ (s.platform.lambdaProducer.name, .lambda target)) :
    cs'.flatMap (fun c => c.generated.resources) = cs.flatMap fun c => c.generated.resources := by
  induction h with
  | nil => rfl
  | cons hmatch _ ih =>
      obtain ⟨hkey, hrest⟩ := List.forall_mem_cons.mp hkeys
      rw [List.flatMap_cons, List.flatMap_cons, ih hrest,
        hmatch.generated_eq hgrants hgrants' (hmatch.ne_lambda hkey)]

end Matches

variable {ctx ctx' : Context}

/-- Passes for a schema and for the one with other declarations have completed the same items. -/
def Abreast (s : Schema) (target : String) (ds : List Declaration) (grants grants' : Grants)
    (ctx ctx' : Context) : Prop :=
  ∃ done done', History s.platform.producers s grants done ctx ∧
    History s.platform.producers (s.declaring target ds) grants' done' ctx' ∧
    List.Forall₂ (s.Matches target ds grants grants') done done'

/-- Where the same items are completed, the same items are ready. -/
theorem Abreast.alike (h : s.Abreast target ds grants grants' ctx ctx') : ctx.Alike ctx' := by
  obtain ⟨done, done', hist, hist', hmatches⟩ := h
  obtain ⟨hleft, hright⟩ := Distinct.exists_of_forall₂ hmatches
  have hschema := hist.schema_eq
  have hschema' := hist'.schema_eq
  refine ⟨by rw [hschema, hschema']; rfl, by rw [hschema, hschema']; rfl, ?_, ?_⟩
  · funext id
    simp only [Context.hasLambda, hschema, hschema', OrderedMap.contains, get?_declaring,
      Option.isSome_map]
  · funext producer entity
    rw [Bool.eq_iff_iff, hist.has_iff, hist'.has_iff]
    constructor
    · rintro ⟨c', hc', hkey⟩
      obtain ⟨c, hc, hmatch⟩ := hright c' hc'
      rw [hmatch.item_eq, WorkItem.key_redeclared] at hkey
      exact ⟨c, hc, hkey⟩
    · rintro ⟨c, hc, hkey⟩
      obtain ⟨c', hc', hmatch⟩ := hleft c hc
      exact ⟨c', hc', by rw [hmatch.item_eq, WorkItem.key_redeclared, hkey]⟩

/-- The two passes run in lockstep. -/
theorem lockstep_declaring : Schedule.Lockstep (s.Abreast target ds grants grants')
    (WorkItem.redeclared target ds) (Schedule.items s.platform.producers s) := by
  constructor
  · intro ctx ctx' habreast i hi
    exact Producer.mayRun_redeclared
      (s.platform.producers_subset_all (Schedule.mem_items_iff.mp hi).1) habreast.alike i.entity
  · -- one step more in both passes, so each history grows by a completion
    rintro ctx ctx' c c' ⟨done, done', hist, hist', hmatches⟩ hc hitem hfits hfits'
    have hc' : c'.item ∈ Schedule.items s.platform.producers (s.declaring target ds) := by
      rw [hitem, items_declaring s.platform.producers_subset_all]
      exact List.mem_map_of_mem hc
    have hstep := hist.step hc hfits
    have hstep' := hist'.step hc' hfits'
    have hmatch : s.Matches target ds grants grants' c c' :=
      ⟨hc, hitem, prescribed_of_mem hstep (by simp), prescribed_of_mem hstep' (by simp)⟩
    exact ⟨_, _, hstep, hstep', List.rel_append hmatches (.cons hmatch .nil)⟩

/-- Passes that have completed the same items differ in the permissions of the lambda. -/
theorem Abreast.isolated (h : s.Abreast target ds grants grants' ctx ctx')
    (hgrants : s.grants library = .ok grants)
    (hgrants' : (s.declaring target ds).grants library = .ok grants')
    (hhas : ctx.has s.platform.lambdaProducer.name (.lambda target) = true) :
    ctx'.manifest = ctx.manifest ∧ ∃ front back,
      ctx.resources = front ++ s.permissionsOf grants target ++ back ∧
      ctx'.resources = front ++ (s.declaring target ds).permissionsOf grants' target ++ back := by
  obtain ⟨done, done', hist, hist', hmatches⟩ := h
  constructor
  · have hregistrations : done'.map Completion.registration = done.map Completion.registration :=
      (Distinct.map_eq_of_forall₂ (hmatches.imp fun c c' hmatch =>
        (hmatch.registration_eq hgrants hgrants').symm)).symm
    rw [Context.manifest, Context.manifest, hist.outputs_eq, hist'.outputs_eq, hregistrations]
  · obtain ⟨c, hc, hkey⟩ := hist.has_iff.mp hhas
    obtain ⟨before, after, before', c', after', hsplit, rfl, hbefore, hmatch, hafter⟩ :=
      Distinct.exists_split_of_forall₂ hmatches hc
    -- no other completion has the key of the lambda
    have hnodup := hist.chain.nodup_keys.1
    rw [hsplit, List.map_append, List.map_cons, List.nodup_middle, hkey,
      ← List.map_append] at hnodup
    have hothers : ∀ d ∈ before ++ after,
        d.item.key ≠ (s.platform.lambdaProducer.name, .lambda target) :=
      fun d hd hsame => (List.nodup_cons.mp hnodup).1 (List.mem_map.mpr ⟨d, hd, hsame⟩)
    obtain ⟨hothersBefore, hothersAfter⟩ := List.forall_mem_append.mp hothers
    obtain ⟨l, hentity⟩ := Entity.eq_lambda_of_id (Prod.mk.inj hkey).2
    obtain ⟨-, front, back, hown, hown'⟩ := hmatch.own hentity
    refine ⟨before.flatMap (fun c => c.generated.resources) ++ front,
      back ++ after.flatMap (fun c => c.generated.resources), ?_, ?_⟩
    · rw [hist.resources_eq, hsplit, List.flatMap_append, List.flatMap_cons, hown]
      simp only [List.append_assoc]
    · rw [hist'.resources_eq, List.flatMap_append, List.flatMap_cons, hown',
        Matches.resources_eq hbefore hgrants hgrants' hothersBefore,
        Matches.resources_eq hafter hgrants hgrants' hothersAfter]
      simp only [List.append_assoc]

/-- A pass that succeeds has completed the lambdas of its schema. -/
theorem has_lambda {report : SweepReport} (htarget : target ∈ s.lambdas.keys)
    (hrun : Schedule.run s.platform.producers (.initial s grants) = (ctx, .ok report)) :
    ctx.has s.platform.lambdaProducer.name (.lambda target) = true := by
  obtain ⟨_, done, hdone, hperm⟩ := Schedule.run_ok hrun
  obtain ⟨⟨id, l⟩, hentry, rfl⟩ := List.mem_map.mp htarget
  have hitem : ⟨s.platform.lambdaProducer, .lambda id l⟩ ∈
      Schedule.items s.platform.producers s := by
    refine Schedule.mem_items_iff.mpr ?_
    cases s.platform with
    | aws => exact ⟨Aws.Family.mem_producers_iff.mpr ⟨.function, rfl⟩,
        Aws.Function.mem_entities_iff.mpr ⟨id, l, hentry, rfl⟩⟩
    | azure => exact ⟨by simp [Platform.producers, Platform.lambdaProducer],
        Azure.FunctionApp.mem_entities_iff.mpr ⟨id, l, hentry, rfl⟩⟩
  obtain ⟨c, hc, hcitem⟩ := List.mem_map.mp (hperm.mem_iff.mp hitem)
  refine hdone.has_iff.mpr (Or.inr ⟨c, hc, ?_⟩)
  rw [hcitem]
  rfl

/-- What a lambda declares decides its own permissions alone: with other declarations a pass has the
same manifest and the same report, and the same resources in the same order around the policy or the
role assignments of the lambda. -/
theorem permission_isolation {pass pass' : Pass} (htarget : target ∈ s.lambdas.keys)
    (hgen : s.generate library = .ok pass)
    (hgen' : (s.declaring target ds).generate library = .ok pass') :
    pass'.manifest = pass.manifest ∧ pass'.report = pass.report ∧
      ∃ grants grants' front back, s.grants library = .ok grants ∧
        (s.declaring target ds).grants library = .ok grants' ∧
        pass.resources = front ++ s.permissionsOf grants target ++ back ∧
        pass'.resources =
          front ++ (s.declaring target ds).permissionsOf grants' target ++ back := by
  obtain ⟨grants, ctx, hgrants, hrun, hresources, hmanifest⟩ := generate_run hgen
  obtain ⟨grants', ctx', hgrants', hrun', hresources', hmanifest'⟩ := generate_run hgen'
  have hstart : s.Abreast target ds grants grants' (.initial s grants)
      (.initial (s.declaring target ds) grants') := ⟨[], [], .start, .start, .nil⟩
  obtain ⟨hreport, habreast⟩ := Schedule.Lockstep.run lockstep_declaring
    (items_declaring s.platform.producers_subset_all) hstart hrun hrun'
  obtain ⟨hsame, front, back, hown, hown'⟩ :=
    habreast.isolated hgrants hgrants' (has_lambda htarget hrun)
  rw [hresources, hresources', hmanifest, hmanifest']
  exact ⟨hsame, hreport, grants, grants', front, back, hgrants, hgrants', hown, hown'⟩

/-- Without the storage account that it declares, an app of the small application on Azure has one
role assignment less, and everything else is as before. -/
theorem permission_isolation_notes : "users" ∈ notes.lambdas.keys ∧
    ∃ pass pass' front own own' back, notes.generate [] = .ok pass ∧
      (notes.declaring "users" []).generate [] = .ok pass' ∧ pass'.manifest = pass.manifest ∧
      pass.resources = front ++ own ++ back ∧ pass'.resources = front ++ own' ++ back ∧
      (∀ r ∈ own ++ own', r.kind = Azure.FunctionApp.roleKind) ∧ own.length = own'.length + 1 := by
  have htarget : "users" ∈ notes.lambdas.keys := by decide
  obtain ⟨pass, hgen, hlength⟩ : ∃ pass, notes.generate [] = .ok pass ∧
      pass.resources.length = 8 := exists_of_map_toOption (by decide +kernel)
  obtain ⟨pass', hgen', hlength'⟩ : ∃ pass', (notes.declaring "users" []).generate [] = .ok pass' ∧
      pass'.resources.length = 7 := exists_of_map_toOption (by decide +kernel)
  obtain ⟨hmanifest, -, grants, grants', front, back, -, -, hown, hown'⟩ :=
    permission_isolation htarget hgen hgen'
  refine ⟨htarget, pass, pass', front, _, _, back, hgen, hgen', hmanifest, hown, hown', ?_, ?_⟩
  · intro r hr
    rcases List.mem_append.mp hr with hr | hr
    · exact kind_of_mem_permissionsOf hr
    · exact kind_of_mem_permissionsOf hr
  · rw [hown] at hlength
    rw [hown'] at hlength'
    simp only [List.length_append] at hlength hlength'
    omega

end Schema
end InfraGraph
