import InfraGraph.Generation.Pass
import InfraGraph.Proofs.Generation.Timers
import InfraGraph.Proofs.UriPath

/-!
# What each AWS producer generates for, and when it succeeds

For each producer two statements: the entities it generates for, and the inversion of its
generator, which says everything that is read on the way to a result.

* `mem_entities_iff` — the entities of a producer;
* `generate_eq_ok_iff` — a generator succeeds iff everything it reads is there.
-/

namespace InfraGraph

theorem Context.api_eq_ok_iff {ctx : Context} {producer : String} {entity : Entity} {api : Api} :
    ctx.api producer entity = .ok api ↔ ctx.schema.api = some api := by
  unfold Context.api
  cases ctx.schema.api <;> simp

namespace Aws

variable {s : Schema} {ctx : Context} {e : Entity} {g : Generated}

/-! ## REST API -/

namespace RestApi

theorem mem_entities_iff : e ∈ producer.entities s ↔ ∃ api, s.api = some api ∧ e = .api api := by
  simp [producer, eq_comm]

/-- Generating for the API of the schema never fails. -/
theorem generate_eq_ok_iff {api : Api} :
    producer.generate ctx (.api api) = .ok g ↔ g = generated ctx.schema api := by
  simp [producer, eq_comm]

theorem ids_eq_ok_iff {id : EntityId} {ids : RestApiIds} :
    RestApi.ids ctx id = .ok ids ↔ ctx.lookup? name id = some (.restApi ids) := by
  unfold RestApi.ids
  exact Context.read_eq_ok_iff_of_sort fun output a => by cases output <;> simp

end RestApi

/-! ## Path resources -/

namespace PathResource

theorem mem_entities_iff : e ∈ producer.entities s ↔
    ∃ api, s.api = some api ∧ ∃ p ∈ s.routePaths, e = .path p := by
  cases hapi : s.api with
  | none => simp [producer, hapi]
  | some api =>
      simp only [producer, hapi, Option.isNone_some, Bool.false_eq_true, if_false, List.map_reverse,
        List.mem_reverse, List.mem_map, Option.some.injEq, exists_eq_left']
      exact exists_congr fun p => and_congr_right fun _ => eq_comm

/-- The root has the resource of the REST API. -/
theorem idOf_root {api : Api} {id : String} :
    idOf ctx api .root = .ok id ↔
      ∃ rest, RestApi.ids ctx (.api api.name) = .ok rest ∧ id = rest.rootResourceId := by
  unfold idOf
  rw [if_pos (UriPath.isRoot_iff.mpr rfl)]
  cases RestApi.ids ctx (.api api.name) with
  | error err => simp [Except.map]
  | ok rest => simp [Except.map, @eq_comm _ id]

/-- Any other path has the resource that was stored for it. -/
theorem idOf_of_ne_root {api : Api} {p : UriPath} {id : String} (h : p ≠ .root) :
    idOf ctx api p = .ok id ↔ ctx.lookup? name (.path p) = some (.pathResource id) := by
  unfold idOf
  rw [if_neg fun e => h (UriPath.isRoot_iff.mp e)]
  exact Context.read_eq_ok_iff_of_sort fun output a => by cases output <;> simp

/-- A path is generated for once its parent is there. -/
theorem generate_eq_ok_iff {p : UriPath} :
    producer.generate ctx (.path p) = .ok g ↔
      ∃ parent segment api rest parentId, p.parent? = some parent ∧ p.last? = some segment ∧
        ctx.schema.api = some api ∧ RestApi.ids ctx (.api api.name) = .ok rest ∧
        idOf ctx api parent = .ok parentId ∧ g = generated api rest parentId p segment := by
  cases hparent : p.parent? with
  | none => simp [producer, hparent]
  | some parent =>
      cases hlast : p.last? with
      | none => simp [producer, hparent, hlast]
      | some segment =>
          simp only [producer, hparent, hlast, generateFor, bind_eq_ok_iff, Context.api_eq_ok_iff,
            pure, Except.pure, Except.ok.injEq]
          constructor
          · rintro ⟨api, hapi, rest, hrest, id, hid, rfl⟩
            exact ⟨parent, segment, api, rest, id, rfl, rfl, hapi, hrest, hid, rfl⟩
          · rintro ⟨_, _, api, rest, id, ⟨⟩, ⟨⟩, hapi, hrest, hid, rfl⟩
            exact ⟨api, hapi, rest, hrest, id, hid, rfl⟩

end PathResource

/-! ## Functions -/

namespace Function

theorem mem_entities_iff : e ∈ producer.entities s ↔
    ∃ id l, (id, l) ∈ s.lambdas.entries ∧ e = .lambda id l := by
  simp [producer, Schema.lambdaEntities, eq_comm]

theorem generate_eq_ok_iff {id : String} {l : Lambda} :
    producer.generate ctx (.lambda id l) = .ok g ↔ g = generateFor ctx id l := by
  simp [producer, eq_comm]

theorem ids_eq_ok_iff {id : String} {ids : FunctionIds} :
    Function.ids ctx id = .ok ids ↔ ctx.lookup? name (.lambda id) = some (.function ids) := by
  unfold Function.ids
  exact Context.read_eq_ok_iff_of_sort fun output a => by cases output <;> simp

end Function

/-! ## Routes -/

namespace Route

theorem mem_entities_iff : e ∈ producer.entities s ↔
    ∃ api, s.api = some api ∧ ∃ r ∈ s.routes.dynamic, e = .route r := by
  cases hapi : s.api with
  | none => simp [producer, hapi]
  | some api =>
      simp only [producer, hapi, Option.isNone_some, Bool.false_eq_true, if_false, List.mem_map,
        Option.some.injEq, exists_eq_left']
      exact exists_congr fun r => and_congr_right fun _ => eq_comm

/-- A route is generated for once its path and the function of its lambda are there. -/
theorem generate_eq_ok_iff {r : DynamicRoute} :
    producer.generate ctx (.route r) = .ok g ↔
      ctx.hasLambda r.lambda = true ∧ ∃ api rest target id, ctx.schema.api = some api ∧
        RestApi.ids ctx (.api api.name) = .ok rest ∧ Function.ids ctx r.lambda = .ok target ∧
        PathResource.idOf ctx api r.path = .ok id ∧ g = generated api rest target id r := by
  cases hlambda : ctx.hasLambda r.lambda with
  | false => simp [producer, generateFor, hlambda, throw, throwThe, MonadExceptOf.throw, bind,
      Except.bind]
  | true =>
      simp only [producer, generateFor, hlambda, Bool.true_eq_false, if_false, bind_eq_ok_iff,
        Context.api_eq_ok_iff, pure, Except.pure, Except.ok.injEq, true_and]
      constructor
      · rintro ⟨api, hapi, rest, hrest, target, htarget, id, hid, rfl⟩
        exact ⟨api, rest, target, id, hapi, hrest, htarget, hid, rfl⟩
      · rintro ⟨api, rest, target, id, hapi, hrest, htarget, hid, rfl⟩
        exact ⟨api, hapi, rest, hrest, target, htarget, id, hid, rfl⟩

end Route

/-! ## Static files -/

namespace StaticFile

theorem mem_entities_iff : e ∈ producer.entities s ↔
    ∃ api, s.api = some api ∧ ∃ r ∈ s.routes.static, e = .static r := by
  cases hapi : s.api with
  | none => simp [producer, hapi]
  | some api =>
      simp only [producer, hapi, Option.isNone_some, Bool.false_eq_true, if_false, List.mem_map,
        Option.some.injEq, exists_eq_left']
      exact exists_congr fun r => and_congr_right fun _ => eq_comm

/-- A static route is generated for once its path is there, with the bucket of the schema. -/
theorem generate_eq_ok_iff {r : StaticRoute} :
    producer.generate ctx (.static r) = .ok g ↔
      ∃ bucket api rest id, ctx.schema.bucket = some bucket ∧ ctx.schema.api = some api ∧
        RestApi.ids ctx (.api api.name) = .ok rest ∧ PathResource.idOf ctx api r.path = .ok id ∧
        g = generated ctx.schema api rest id bucket r := by
  cases hbucket : ctx.schema.bucket with
  | none => simp [producer, hbucket]
  | some bucket =>
      simp only [producer, hbucket, generateFor, bind_eq_ok_iff, Context.api_eq_ok_iff, pure,
        Except.pure, Except.ok.injEq, Option.some.injEq]
      constructor
      · rintro ⟨api, hapi, rest, hrest, id, hid, rfl⟩
        exact ⟨bucket, api, rest, id, rfl, hapi, hrest, hid, rfl⟩
      · rintro ⟨_, api, rest, id, rfl, hapi, hrest, hid, rfl⟩
        exact ⟨api, hapi, rest, hrest, id, hid, rfl⟩

end StaticFile

/-! ## Publication and domain alias -/

namespace Publication

theorem mem_entities_iff : e ∈ producer.entities s ↔
    ∃ api, s.api = some api ∧ e = .deployment api.resolvedDeployment := by
  simp [producer, eq_comm]

theorem generate_eq_ok_iff {d : Deployment} :
    producer.generate ctx (.deployment d) = .ok g ↔
      ∃ api rest, ctx.schema.api = some api ∧ RestApi.ids ctx (.api api.name) = .ok rest ∧
        g = generated api rest d := by
  simp only [producer, generateFor, bind_eq_ok_iff, Context.api_eq_ok_iff, pure, Except.pure,
    Except.ok.injEq]
  constructor
  · rintro ⟨api, hapi, rest, hrest, rfl⟩
    exact ⟨api, rest, hapi, hrest, rfl⟩
  · rintro ⟨api, rest, hapi, hrest, rfl⟩
    exact ⟨api, hapi, rest, hrest, rfl⟩

theorem stage_eq_ok_iff {api : Api} {st : Stage} :
    stage ctx api = .ok st ↔ ctx.lookup? name (idFor api) = some (.deployment st) := by
  unfold stage
  exact Context.read_eq_ok_iff_of_sort fun output a => by cases output <;> simp

end Publication

namespace DomainAlias

theorem mem_entities_iff : e ∈ producer.entities s ↔
    ∃ api d, s.api = some api ∧ api.dns = some d ∧ e = .dns d := by
  cases hapi : s.api with
  | none => simp [producer, hapi]
  | some api => simp [producer, hapi, eq_comm]

/-- An alias is generated for once the API is published. -/
theorem generate_eq_ok_iff {d : DnsAlias} :
    producer.generate ctx (.dns d) = .ok g ↔
      ∃ api rest st, ctx.schema.api = some api ∧ RestApi.ids ctx (.api api.name) = .ok rest ∧
        Publication.stage ctx api = .ok st ∧ g = generated rest st d := by
  simp only [producer, generateFor, bind_eq_ok_iff, Context.api_eq_ok_iff, pure, Except.pure,
    Except.ok.injEq]
  constructor
  · rintro ⟨api, hapi, rest, hrest, st, hst, rfl⟩
    exact ⟨api, rest, st, hapi, hrest, hst, rfl⟩
  · rintro ⟨api, rest, st, hapi, hrest, hst, rfl⟩
    exact ⟨api, hapi, rest, hrest, st, hst, rfl⟩

end DomainAlias

/-! ## Preflight handlers -/

namespace Preflight

theorem mem_entities_iff : e ∈ producer.entities s ↔
    ∃ api, s.api = some api ∧ api.allowCors = true ∧ e = .api api := by
  cases hapi : s.api with
  | none => simp [producer, hapi]
  | some api =>
      by_cases hcors : api.allowCors = true
      · simp [producer, hapi, hcors, List.filter]
      · simp [producer, hapi, hcors, List.filter]

/-- Handlers are generated for once the REST API is there. -/
theorem generate_eq_ok_iff {api : Api} :
    producer.generate ctx (.api api) = .ok g ↔
      ∃ rest, RestApi.ids ctx (.api api.name) = .ok rest ∧ g = generated ctx.schema api rest := by
  simp [producer, generateFor, bind_eq_ok_iff, pure, Except.pure, @eq_comm _ g]

end Preflight

end Aws

end InfraGraph
