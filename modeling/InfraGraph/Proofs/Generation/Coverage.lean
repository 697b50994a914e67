import InfraGraph.Proofs.Aws.Readiness
import InfraGraph.Proofs.Azure.Closed
import InfraGraph.Proofs.Generation.Footprint

/-!
# Readiness covers every read

A producer that may run finds every output that it reads.  Some of them it never asked for: it reads
the REST API where it only asked for a parent path or the deployment.  What makes up for that is a
property of the outputs, which every step keeps: a path or a deployment is registered only where the
REST API is.  Main statements:

* `Context.Supported` — the outputs are there that registered ones were generated from;
* `Producer.Covers`, `Producer.covers` — what a producer reads is there when it may run;
* `Producer.Grows`, `Producer.grows` — a producer that may run still may when more is registered;
* `Context.Supported.complete` — an item keeps the state supported, be it refused or not;
* `WorkItem.complete_error_of_ready` — a ready item does not fail for want of an output.
-/

namespace InfraGraph

/-- Paths and deployments are registered only where the REST API of the schema is. -/
structure Context.Supported (s : Schema) (ctx : Context) : Prop where
  schema_eq : ctx.schema = s
  restApi : ∀ api, s.api = some api → ∀ id,
    ctx.has Aws.PathResource.name id = true ∨ ctx.has Aws.Publication.name id = true →
      ctx.has Aws.RestApi.name (.api api.name) = true

theorem Context.Supported.initial (s : Schema) (grants : Grants) :
    (Context.initial s grants).Supported s := by
  constructor
  · rfl
  · intro api _ id hid
    rcases hid with hpath | hdeployment
    · cases hpath
    · cases hdeployment

/-- Whatever the producer reads for the entity is there when it may run. -/
def Producer.Covers (p : Producer) (s : Schema) (e : Entity) : Prop :=
  ∃ keys, Reads s keys (fun ctx => p.generate ctx e) ∧
    ∀ ctx : Context, ctx.Supported s → p.mayRun ctx e = true →
      ∀ key ∈ keys, ctx.has key.1 key.2 = true

namespace Producer

variable {p : Producer} {s : Schema} {e : Entity}

/-- A generator that reads nothing reads nothing too early. -/
theorem Covers.of_noReads (h : Reads s [] fun ctx => p.generate ctx e) : p.Covers s e := by
  refine ⟨[], h, ?_⟩
  intro ctx _ _ key hkey
  cases hkey

/-- An entity that the producer does not generate for is refused without reading. -/
theorem Covers.of_unexpected
    (h : ∀ ctx : Context, ctx.schema = s →
      p.generate ctx e = .error (.unexpectedEntity p.name e.id)) : p.Covers s e := by
  apply of_noReads
  have hfail : Reads s [] fun _ =>
      (.error (.unexpectedEntity p.name e.id) : Except GenerationError Generated) :=
    Reads.fail rfl
  exact hfail.congr h

end Producer

namespace Aws

variable {s : Schema} {keys : List (String × EntityId)} {api : Api} {ctx : Context}

/-! ## Reading the outputs of AWS producers -/

theorem RestApi.reads_ids {id : EntityId} (hkey : (RestApi.name, id) ∈ keys) :
    Reads s keys fun ctx => RestApi.ids ctx id :=
  Reads.read _ hkey

theorem Function.reads_ids {id : String} (hkey : (Function.name, EntityId.lambda id) ∈ keys) :
    Reads s keys fun ctx => Function.ids ctx id :=
  Reads.read _ hkey

theorem Publication.reads_stage (hkey : (Publication.name, Publication.idFor api) ∈ keys) :
    Reads s keys fun ctx => Publication.stage ctx api :=
  Reads.read _ hkey

/-- What the resource of a path is read from. -/
def PathResource.key (api : Api) (p : UriPath) : String × EntityId :=
  if p.isRoot then (RestApi.name, .api api.name) else (PathResource.name, .path p)

/-- The reference of a path is read under the key of the path, that of the root from the REST
API. -/
theorem PathResource.reads_idOf {p : UriPath} (hkey : PathResource.key api p ∈ keys) :
    Reads s keys fun ctx => PathResource.idOf ctx api p := by
  unfold PathResource.key at hkey
  unfold PathResource.idOf
  by_cases hroot : p.isRoot = true
  · simp only [if_pos hroot] at hkey ⊢
    exact (RestApi.reads_ids hkey).map _
  · simp only [if_neg hroot] at hkey ⊢
    exact Reads.read _ hkey

/-- A step that asks for the API of the schema, in a schema that has one. -/
theorem reads_api (hapi : s.api = some api) {α : Type}
    {f : Api → Context → Except GenerationError α} {producer : String} {entity : Entity}
    (h : Reads s keys (f api)) :
    Reads s keys fun ctx => ctx.api producer entity >>= fun a => f a ctx := by
  apply h.congr
  intro ctx hs
  simp only [Context.api, hs, hapi]
  rfl

/-- In a schema without an API, such a step ends the computation. -/
theorem covers_of_no_api {p : Producer} {e : Entity} (hapi : s.api = none)
    {f : Api → Context → Except GenerationError Generated}
    (h : ∀ ctx : Context, p.generate ctx e = ctx.api p.name e >>= fun a => f a ctx) :
    p.Covers s e := by
  apply Producer.Covers.of_unexpected
  intro ctx hs
  simp only [h, Context.api, hs, hapi]
  rfl

/-! ## What is there when a path is ready -/

/-- A path is ready only if the output that it is read from is there. -/
theorem PathResource.has_of_isReady (hsupported : ctx.Supported s) (hapi : s.api = some api)
    {p : UriPath} (hready : PathResource.isReady ctx p = true) :
    ctx.has RestApi.name (.api api.name) = true ∧
      ctx.has (PathResource.key api p).1 (PathResource.key api p).2 = true := by
  unfold PathResource.isReady at hready
  unfold PathResource.key
  by_cases hroot : p.isRoot = true
  · rw [if_pos hroot] at hready ⊢
    have hrest := (RestApi.isSchemaApiThere_iff (by rw [hsupported.schema_eq, hapi])).mp hready
    exact ⟨hrest, hrest⟩
  · rw [if_neg hroot] at hready ⊢
    exact ⟨hsupported.restApi api hapi _ (Or.inl hready), hready⟩

/-! ## Each AWS producer -/

/-- Each of the eleven producers covers what it reads. -/
theorem RestApi.covers (s : Schema) (e : Entity) : RestApi.producer.Covers s e := by
  cases e with
  | api api =>
      apply Producer.Covers.of_noReads
      exact Reads.value fun schema _ => RestApi.generated schema api
  | _ => exact .of_unexpected fun _ _ => rfl

theorem PathResource.covers (s : Schema) (e : Entity) : PathResource.producer.Covers s e := by
  cases e with
  | path p =>
      cases hparent : p.parent? with
      | none =>
          apply Producer.Covers.of_unexpected
          intro ctx _
          simp only [PathResource.producer, hparent]
      | some parent =>
          cases hlast : p.last? with
          | none =>
              apply Producer.Covers.of_unexpected
              intro ctx _
              simp only [PathResource.producer, hparent, hlast]
          | some segment =>
              have hgen : ∀ ctx, PathResource.producer.generate ctx (.path p) =
                  PathResource.generateFor ctx p parent segment := by
                intro ctx
                simp only [PathResource.producer, hparent, hlast]
              cases hapi : s.api with
              | none => exact covers_of_no_api hapi hgen
              | some api =>
                  refine ⟨[(RestApi.name, .api api.name), PathResource.key api parent], ?_, ?_⟩
                  · simp only [hgen]
                    apply reads_api hapi
                    apply Reads.bind (RestApi.reads_ids (by simp))
                    intro rest
                    apply Reads.bind (PathResource.reads_idOf (by simp))
                    intro parentId
                    exact Reads.value fun _ _ => PathResource.generated api rest parentId p segment
                  · intro ctx hsupported hready
                    -- readiness asks for the parent alone
                    simp only [PathResource.producer, hparent] at hready
                    obtain ⟨hrest, hpath⟩ := PathResource.has_of_isReady hsupported hapi hready
                    simp [hrest, hpath]
  | _ => exact .of_unexpected fun _ _ => rfl

theorem Function.covers (s : Schema) (e : Entity) : Function.producer.Covers s e := by
  cases e with
  | lambda id l =>
      apply Producer.Covers.of_noReads
      constructor
      · intro ctx next _ hagree
        simp only [Function.producer, Function.generateFor, hagree.schema_eq, hagree.grants_eq]
      · intro ctx _ _ e he
        cases he
  | _ => exact .of_unexpected fun _ _ => rfl

/-- A route waits for its path and its lambda, which bring the REST API with them. -/
theorem Route.covers (s : Schema) (e : Entity) : Route.producer.Covers s e := by
  cases e with
  | route r =>
      have hasLambda_of : ∀ ctx : Context, ctx.schema = s →
          ctx.hasLambda r.lambda = s.hasLambda r.lambda := by
        rintro ctx rfl
        rfl
      cases hlambda : s.hasLambda r.lambda with
      | false =>
          -- a lambda that the schema lacks is not waited for, and nothing is read
          apply Producer.Covers.of_noReads
          apply Reads.congr (Reads.fail (e := .unknownLambda (Entity.route r).id r.lambda) rfl)
          intro ctx hs
          simp only [Route.producer, Route.generateFor, hasLambda_of ctx hs, hlambda]
          rfl
      | true =>
          have hgen : ∀ ctx : Context, ctx.schema = s → Route.producer.generate ctx (.route r) =
              ctx.api Route.name (.route r) >>= fun api =>
                RestApi.ids ctx (.api api.name) >>= fun rest =>
                  Function.ids ctx r.lambda >>= fun target =>
                    PathResource.idOf ctx api r.path >>= fun id =>
                      .ok (Route.generated api rest target id r) := by
            intro ctx hs
            simp only [Route.producer, Route.generateFor, hasLambda_of ctx hs, hlambda]
            rfl
          cases hapi : s.api with
          | none =>
              apply Producer.Covers.of_unexpected
              intro ctx hs
              rw [hgen ctx hs]
              simp only [Context.api, hs, hapi]
              rfl
          | some api =>
              refine ⟨[(RestApi.name, .api api.name), (Function.name, .lambda r.lambda),
                PathResource.key api r.path], ?_, ?_⟩
              · apply Reads.congr _ hgen
                apply reads_api hapi
                apply Reads.bind (RestApi.reads_ids (by simp))
                intro rest
                apply Reads.bind (Function.reads_ids (by simp))
                intro target
                apply Reads.bind (PathResource.reads_idOf (by simp))
                intro id
                exact Reads.value fun _ _ => Route.generated api rest target id r
              · intro ctx hsupported hready
                simp only [Route.producer, Bool.and_eq_true] at hready
                obtain ⟨hrest, hpath⟩ := PathResource.has_of_isReady hsupported hapi hready.2
                have hfunction : ctx.has Function.name (.lambda r.lambda) = true := by
                  apply Function.isThere_of_ready hready.1
                  rw [hasLambda_of ctx hsupported.schema_eq, hlambda]
                simp [hrest, hpath, hfunction]
  | _ => exact .of_unexpected fun _ _ => rfl

theorem StaticFile.covers (s : Schema) (e : Entity) : StaticFile.producer.Covers s e := by
  cases e with
  | static r =>
      cases hbucket : s.bucket with
      | none =>
          apply Producer.Covers.of_unexpected
          intro ctx hs
          simp only [StaticFile.producer, hs, hbucket]
      | some bucket =>
          have hgen : ∀ ctx : Context, ctx.schema = s →
              StaticFile.producer.generate ctx (.static r) =
                StaticFile.generateFor ctx r bucket := by
            intro ctx hs
            simp only [StaticFile.producer, hs, hbucket]
          cases hapi : s.api with
          | none =>
              apply Producer.Covers.of_unexpected
              intro ctx hs
              rw [hgen ctx hs]
              simp only [StaticFile.generateFor, Context.api, hs, hapi]
              rfl
          | some api =>
              refine ⟨[(RestApi.name, .api api.name), PathResource.key api r.path], ?_, ?_⟩
              · apply Reads.congr _ hgen
                apply reads_api hapi
                apply Reads.bind (RestApi.reads_ids (by simp))
                intro rest
                apply Reads.bind (PathResource.reads_idOf (by simp))
                intro id
                exact Reads.value fun schema _ =>
                  StaticFile.generated schema api rest id bucket r
              · intro ctx hsupported hready
                simp only [StaticFile.producer] at hready
                obtain ⟨hrest, hpath⟩ := PathResource.has_of_isReady hsupported hapi hready
                simp [hrest, hpath]
  | _ => exact .of_unexpected fun _ _ => rfl

theorem Publication.covers (s : Schema) (e : Entity) : Publication.producer.Covers s e := by
  cases e with
  | deployment d =>
      cases hapi : s.api with
      | none => exact covers_of_no_api hapi fun _ => rfl
      | some api =>
          refine ⟨[(RestApi.name, .api api.name)], ?_, ?_⟩
          · apply reads_api hapi
            apply Reads.bind (RestApi.reads_ids (by simp))
            intro rest
            exact Reads.value fun _ _ => Publication.generated api rest d
          · intro ctx hsupported hready
            have hrest := (RestApi.isSchemaApiThere_iff (by rw [hsupported.schema_eq, hapi])).mp
              hready
            simp [hrest]
  | _ => exact .of_unexpected fun _ _ => rfl

theorem Preflight.covers (s : Schema) (e : Entity) : Preflight.producer.Covers s e := by
  cases e with
  | api api =>
      refine ⟨[(RestApi.name, .api api.name)], ?_, ?_⟩
      · apply Reads.bind (RestApi.reads_ids (by simp))
        intro rest
        exact Reads.value fun schema _ => Preflight.generated schema api rest
      · intro ctx _ hready
        simp only [Preflight.producer, Bool.and_eq_true] at hready
        have hrest : ctx.has RestApi.name (.api api.name) = true := hready.2
        simp [hrest]
  | _ => exact .of_unexpected fun _ _ => rfl

/-- An alias waits for the deployment, which brings the REST API with it. -/
theorem DomainAlias.covers (s : Schema) (e : Entity) : DomainAlias.producer.Covers s e := by
  cases e with
  | dns d =>
      cases hapi : s.api with
      | none => exact covers_of_no_api hapi fun _ => rfl
      | some api =>
          refine ⟨[(RestApi.name, .api api.name), (Publication.name, Publication.idFor api)],
            ?_, ?_⟩
          · apply reads_api hapi
            apply Reads.bind (RestApi.reads_ids (by simp))
            intro rest
            apply Reads.bind (Publication.reads_stage (by simp))
            intro st
            exact Reads.value fun _ _ => DomainAlias.generated rest st d
          · intro ctx hsupported hready
            -- readiness asks for the deployment alone
            simp only [DomainAlias.producer, hsupported.schema_eq, hapi] at hready
            have hstage : ctx.has Publication.name (Publication.idFor api) = true := hready
            have hrest := hsupported.restApi api hapi _ (Or.inr hstage)
            simp [hrest, hstage]
  | _ => exact .of_unexpected fun _ _ => rfl

end Aws

/-! ## Timers and the producers of Azure -/

theorem Timers.covers (s : Schema) (e : Entity) : Timers.producer.Covers s e := by
  cases e with
  | timer t =>
      cases hlambda : s.lambdas.get? t.lambda with
      | none =>
          apply Producer.Covers.of_noReads
          apply Reads.congr (Reads.fail (e := .unknownLambda (Entity.timer t).id t.lambda) rfl)
          intro ctx hs
          simp only [Timers.producer, Timers.generateFor, hs, hlambda]
      | some l =>
          cases hplatform : s.platform with
          | azure =>
              apply Producer.Covers.of_noReads
              apply Reads.congr (Reads.value fun _ _ => Azure.TimerBinding.generateFor l t)
              intro ctx hs
              simp only [Timers.producer, Timers.generateFor, hs, hlambda, hplatform]
          | aws =>
              refine ⟨[(Aws.Function.name, .lambda t.lambda)], ?_, ?_⟩
              · have hreads : Reads s [(Aws.Function.name, .lambda t.lambda)] fun ctx =>
                    Aws.EventRule.generateFor ctx t := by
                  apply Reads.bind (Aws.Function.reads_ids (by simp))
                  intro function
                  exact Reads.value fun schema _ => Aws.EventRule.generated schema t function
                apply hreads.congr
                intro ctx hs
                simp only [Timers.producer, Timers.generateFor, hs, hlambda, hplatform]
              · intro ctx hsupported hready
                simp only [Timers.producer, hsupported.schema_eq, hplatform] at hready
                have hthere : ctx.has Aws.Function.name (.lambda t.lambda) = true := by
                  apply Aws.Function.isThere_of_ready hready
                  simp [Context.hasLambda, hsupported.schema_eq, OrderedMap.contains, hlambda]
                simp [hthere]
  | _ => exact .of_unexpected fun _ _ => rfl

namespace Azure

theorem FunctionApp.covers (s : Schema) (e : Entity) : FunctionApp.producer.Covers s e := by
  cases e with
  | lambda id l =>
      apply Producer.Covers.of_noReads
      constructor
      · intro ctx next _ hagree
        simp only [FunctionApp.producer, FunctionApp.generateFor, hagree.schema_eq,
          hagree.grants_eq]
      · intro ctx _ _ e he
        cases he
  | _ => exact .of_unexpected fun _ _ => rfl

theorem HttpBinding.covers (s : Schema) (e : Entity) : HttpBinding.producer.Covers s e := by
  cases e with
  | route r =>
      cases hlambda : s.lambdas.get? r.lambda with
      | none =>
          apply Producer.Covers.of_noReads
          apply Reads.congr (Reads.fail (e := .unknownLambda (Entity.route r).id r.lambda) rfl)
          intro ctx hs
          simp only [HttpBinding.producer, HttpBinding.generateFor, hs, hlambda]
      | some l =>
          refine ⟨[(FunctionApp.name, .lambda r.lambda)], ?_, ?_⟩
          · have hreads : Reads s [(FunctionApp.name, .lambda r.lambda)] fun ctx =>
                FunctionApp.ids ctx r.lambda >>= fun app =>
                  .ok (HttpBinding.generated l r app) := by
              apply Reads.bind (Reads.read _ (by simp))
              intro app
              exact Reads.value fun _ _ => HttpBinding.generated l r app
            apply hreads.congr
            intro ctx hs
            simp only [HttpBinding.producer, HttpBinding.generateFor, hs, hlambda]
            rfl
          · intro ctx hsupported hready
            have hlambda' : ctx.hasLambda r.lambda = true := by
              simp [Context.hasLambda, hsupported.schema_eq, OrderedMap.contains, hlambda]
            have hthere : ctx.has FunctionApp.name (.lambda r.lambda) = true := by
              simpa [HttpBinding.producer, FunctionApp.isReady, hlambda'] using hready
            simp [hthere]
  | _ => exact .of_unexpected fun _ _ => rfl

end Azure

namespace Producer

variable {p : Producer}

/-- The producers there are, one by one. -/
theorem mem_all_iff : p ∈ all ↔
    p = Aws.RestApi.producer ∨ p = Aws.PathResource.producer ∨ p = Aws.Function.producer ∨
      p = Aws.Route.producer ∨ p = Aws.StaticFile.producer ∨ p = Aws.Publication.producer ∨
        p = Aws.Preflight.producer ∨ p = Timers.producer ∨ p = Aws.DomainAlias.producer ∨
          p = Azure.FunctionApp.producer ∨ p = Azure.HttpBinding.producer := by
  simp only [all, Platform.producers, List.cons_append, List.nil_append, List.mem_cons,
    List.not_mem_nil, or_false]

/-- Whatever one of the producers reads is there when it may run. -/
theorem covers (hp : p ∈ all) (s : Schema) (e : Entity) : p.Covers s e := by
  rcases mem_all_iff.mp hp with rfl | rfl | rfl | rfl | rfl | rfl | rfl | rfl | rfl | rfl | rfl
  · exact Aws.RestApi.covers s e
  · exact Aws.PathResource.covers s e
  · exact Aws.Function.covers s e
  · exact Aws.Route.covers s e
  · exact Aws.StaticFile.covers s e
  · exact Aws.Publication.covers s e
  · exact Aws.Preflight.covers s e
  · exact Timers.covers s e
  · exact Aws.DomainAlias.covers s e
  · exact Azure.FunctionApp.covers s e
  · exact Azure.HttpBinding.covers s e

end Producer

/-! ## Registering more -/

/-- Whatever the producer may run for stays so when more is registered. -/
def Producer.Grows (p : Producer) : Prop :=
  ∀ (e : Entity) (ctx next : Context), next.Extends ctx → p.mayRun ctx e = true →
    p.mayRun next e = true

theorem Context.Extends.hasLambda_eq {ctx next : Context} (h : next.Extends ctx) (id : String) :
    next.hasLambda id = ctx.hasLambda id := by
  simp only [Context.hasLambda, h.schema_eq]

namespace Aws

variable {ctx next : Context}

theorem RestApi.isSchemaApiThere_grows (h : next.Extends ctx)
    (hready : isSchemaApiThere ctx = true) : isSchemaApiThere next = true := by
  unfold isSchemaApiThere at hready ⊢
  rw [h.schema_eq]
  cases hapi : ctx.schema.apiId? with
  | none =>
      rw [hapi] at hready
      cases hready
  | some id =>
      rw [hapi] at hready
      exact h.kept _ _ hready

theorem PathResource.isReady_grows (h : next.Extends ctx) {p : UriPath}
    (hready : isReady ctx p = true) : isReady next p = true := by
  unfold isReady at hready ⊢
  by_cases hroot : p.isRoot = true
  · rw [if_pos hroot] at hready ⊢
    exact RestApi.isSchemaApiThere_grows h hready
  · rw [if_neg hroot] at hready ⊢
    exact h.kept _ _ hready

theorem Function.isReady_grows (h : next.Extends ctx) {id : String}
    (hready : isReady ctx id = true) : isReady next id = true := by
  simp only [isReady, Bool.or_eq_true, h.hasLambda_eq] at hready ⊢
  exact hready.imp_right fun hthere => h.kept _ _ hthere

theorem PathResource.grows : PathResource.producer.Grows := by
  intro e ctx next h hready
  cases e with
  | path p =>
      simp only [PathResource.producer] at hready ⊢
      cases hparent : p.parent? with
      | none =>
          rw [hparent] at hready
          cases hready
      | some parent =>
          rw [hparent] at hready
          exact isReady_grows h hready
  | _ => cases hready

theorem Route.grows : Route.producer.Grows := by
  intro e ctx next h hready
  cases e with
  | route r =>
      simp only [Route.producer, Bool.and_eq_true] at hready ⊢
      exact ⟨Function.isReady_grows h hready.1, PathResource.isReady_grows h hready.2⟩
  | _ => cases hready

theorem StaticFile.grows : StaticFile.producer.Grows := by
  intro e ctx next h hready
  cases e with
  | static r => exact PathResource.isReady_grows h hready
  | _ => cases hready

theorem Preflight.grows : Preflight.producer.Grows := by
  intro e ctx next h hready
  cases e with
  | api api =>
      simp only [Preflight.producer, Bool.and_eq_true] at hready ⊢
      exact ⟨hready.1, h.kept _ _ hready.2⟩
  | _ => cases hready

theorem DomainAlias.grows : DomainAlias.producer.Grows := by
  intro e ctx next h hready
  simp only [DomainAlias.producer, h.schema_eq] at hready ⊢
  cases hapi : ctx.schema.api with
  | none =>
      rw [hapi] at hready
      cases hready
  | some api =>
      rw [hapi] at hready
      exact h.kept _ _ hready

end Aws

theorem Timers.grows : Timers.producer.Grows := by
  intro e ctx next h hready
  cases e with
  | timer t =>
      simp only [Timers.producer, h.schema_eq] at hready ⊢
      cases hplatform : ctx.schema.platform with
      | azure => rfl
      | aws =>
          rw [hplatform] at hready
          exact Aws.Function.isReady_grows h hready
  | _ => cases hready

theorem Azure.HttpBinding.grows : Azure.HttpBinding.producer.Grows := by
  intro e ctx next h hready
  cases e with
  | route r =>
      simp only [producer, FunctionApp.isReady, Bool.or_eq_true, h.hasLambda_eq] at hready ⊢
      exact hready.imp_right fun hthere => h.kept _ _ hthere
  | _ => cases hready

/-- One of the producers that may run still may when more is registered. -/
theorem Producer.grows {p : Producer} (hp : p ∈ all) : p.Grows := by
  -- the REST API, functions and apps wait for nothing
  rcases mem_all_iff.mp hp with rfl | rfl | rfl | rfl | rfl | rfl | rfl | rfl | rfl | rfl | rfl
  · exact fun _ _ _ _ hready => hready
  · exact Aws.PathResource.grows
  · exact fun _ _ _ _ hready => hready
  · exact Aws.Route.grows
  · exact Aws.StaticFile.grows
  · exact fun _ _ _ h hready => Aws.RestApi.isSchemaApiThere_grows h hready
  · exact Aws.Preflight.grows
  · exact Timers.grows
  · exact Aws.DomainAlias.grows
  · exact fun _ _ _ _ hready => hready
  · exact Azure.HttpBinding.grows

/-! ## What every step keeps -/

/-- A path or a deployment that is generated was generated from the REST API. -/
theorem Producer.restApi_of_generate {p : Producer} (hp : p ∈ all)
    (hname : p.name = Aws.PathResource.name ∨ p.name = Aws.Publication.name) {ctx : Context}
    {e : Entity} {g : Generated} (hg : p.generate ctx e = .ok g) {api : Api}
    (hapi : ctx.schema.api = some api) : ctx.has Aws.RestApi.name (.api api.name) = true := by
  have hsame : p = Aws.PathResource.producer ∨ p = Aws.Publication.producer := by
    -- the other names are different ones
    rcases mem_all_iff.mp hp with
        rfl | rfl | rfl | rfl | rfl | rfl | rfl | rfl | rfl | rfl | rfl <;>
      first
        | exact Or.inl rfl
        | exact Or.inr rfl
        | exact absurd hname (by decide)
  rcases hsame with rfl | rfl
  · cases e with
    | path p =>
        obtain ⟨_, _, api', rest, _, _, _, hapi', hrest, _⟩ :=
          Aws.PathResource.generate_eq_ok_iff.mp hg
        rw [hapi] at hapi'
        cases hapi'
        exact Context.has_iff.mpr ⟨_, Aws.RestApi.ids_eq_ok_iff.mp hrest⟩
    | _ => cases hg
  · cases e with
    | deployment d =>
        obtain ⟨api', rest, hapi', hrest, _⟩ := Aws.Publication.generate_eq_ok_iff.mp hg
        rw [hapi] at hapi'
        cases hapi'
        exact Context.has_iff.mpr ⟨_, Aws.RestApi.ids_eq_ok_iff.mp hrest⟩
    | _ => cases hg

/-- An item keeps the state supported, be it refused or not. -/
theorem Context.Supported.complete {s : Schema} {ctx next : Context} (h : ctx.Supported s)
    {item : WorkItem} (hp : item.producer ∈ Producer.all)
    {result : Except GenerationError Unit} (hcomplete : item.complete ctx = (next, result)) :
    next.Supported s := by
  obtain ⟨hschema, _, houtputs⟩ := WorkItem.complete_state hcomplete
  refine ⟨hschema.trans h.schema_eq, ?_⟩
  intro api hapi id hid
  rcases houtputs with hsame | ⟨g, hg, hmore⟩
  · have hhas : ∀ producer entity, next.has producer entity = ctx.has producer entity := by
      intro producer entity
      simp only [Context.has, Context.lookup?, hsame]
    simp only [hhas] at hid ⊢
    exact h.restApi api hapi id hid
  · have hhas : ∀ producer entity, next.has producer entity = true ↔
        ctx.has producer entity = true ∨
          (item.producer.name = producer ∧ item.entity.id = entity) := by
      intro producer entity
      simp [Context.has_iff_mem, hmore, or_and_right, exists_or]
    -- a path or a deployment is either an old one, or was generated from the REST API just now
    simp only [hhas] at hid ⊢
    left
    rcases hid with (hpath | ⟨hname, _⟩) | (hdeployment | ⟨hname, _⟩)
    · exact h.restApi api hapi id (Or.inl hpath)
    · exact Producer.restApi_of_generate hp (Or.inl hname) hg (by rw [h.schema_eq, hapi])
    · exact h.restApi api hapi id (Or.inr hdeployment)
    · exact Producer.restApi_of_generate hp (Or.inr hname) hg (by rw [h.schema_eq, hapi])

/-- A ready item does not fail for want of an output. -/
theorem WorkItem.complete_error_of_ready {s : Schema} {ctx next : Context} (h : ctx.Supported s)
    {item : WorkItem} (hp : item.producer ∈ Producer.all) (hready : item.ready ctx = true)
    {e : GenerationError} (hcomplete : item.complete ctx = (next, .error e)) :
    e.isMissing = false := by
  rcases WorkItem.complete_error hcomplete with
    hbad | ⟨_, he⟩ | ⟨_, _, _, _, _, _, he, _⟩
  · obtain ⟨keys, hreads, hthere⟩ := Producer.covers hp s item.entity
    exact hreads.found ctx h.schema_eq (hthere ctx h hready) e hbad
  · rw [he]
    rfl
  · rw [he]
    rfl

end InfraGraph
