import InfraGraph.Proofs.Schema.Acceptance

/-!
# Valid schemas are those without violations

A valid schema is described without looking at how it is checked: what a lambda, a route and a timer
must have, which names must differ, and what belongs to one platform only.  The checks report
nothing exactly where all of this holds.  Main statements:

* `Lambda.Valid`, `Schema.Names`, `Schema.Valid` — what a valid schema is;
* `Schema.headerViolations_eq_nil_iff`, `Schema.lambdaViolations_eq_nil_iff` and others — each group
  of rules by itself;
* `Schema.violations_eq_nil_iff_valid` — a schema has no violation iff it is valid.
-/

namespace InfraGraph

/-! ## What a valid schema is -/

/-- A lambda has a file and a handler, keeps its limits, and declares what its platform offers. -/
structure Lambda.Valid (platform : Platform) (l : Lambda) : Prop where
  file : l.file ≠ ""
  handler : l.handler ≠ ""
  timeout : 1 ≤ l.timeoutSec.toNat ∧ l.timeoutSec.toNat ≤ 900
  memory : 128 ≤ l.memoryMb.toNat
  permissions : ∀ d ∈ l.permissions, d.resource.platform = platform

namespace Schema

/-- Paths that name resources: the root and every prefix of the path of a route. -/
def Names (s : Schema) (p : UriPath) : Prop := p = .root ∨ ∃ q ∈ s.routes.paths, p ∈ q.prefixes

/-- What a schema must be to generate from it. -/
structure Valid (s : Schema) : Prop where
  version : s.version = "1.0"
  name : s.name ≠ ""
  region : s.platform = .aws → s.region ≠ ""
  account : s.platform = .aws → s.account ≠ ""
  lambdas : ∀ entry ∈ s.lambdas.entries, entry.2.Valid s.platform
  library : ∀ d ∈ s.libraryPermissions, d.resource.platform = s.platform
  api : s.platform = .aws → s.routes.dynamic ≠ [] ∨ s.routes.static ≠ [] → s.api ≠ none
  route_lambda : ∀ r ∈ s.routes.dynamic, r.lambda ∈ s.lambdas.keys
  routes_distinct : (s.routes.dynamic.map fun r => (r.method, r.path)).Nodup
  static_platform : ∀ r ∈ s.routes.static, s.platform = .aws
  static_bucket : ∀ r ∈ s.routes.static, s.bucket ≠ none
  static_file : ∀ r ∈ s.routes.static, r.file ≠ ""
  static_distinct : (s.routes.static.map StaticRoute.path).Nodup
  static_not_get : ∀ r ∈ s.routes.static, ∀ d ∈ s.routes.dynamic, d.method = .get → d.path ≠ r.path
  timer_lambda : ∀ t ∈ s.timers, t.lambda ∈ s.lambdas.keys
  timer_cron : ∀ t ∈ s.timers, ∃ c ∈ t.cron.toList, Text.isBlank c = false
  timers_distinct : (s.timers.map Timer.id).Nodup
  lambda_identifiers : ∀ a ∈ s.lambdas.keys, ∀ b ∈ s.lambdas.keys, a ≠ b →
    Name.identifier [a] ≠ Name.identifier [b]
  function_names : ∀ a ∈ s.lambdas.keys, ∀ b ∈ s.lambdas.keys, a ≠ b →
    Name.cloud [s.name, a] ≠ Name.cloud [s.name, b]
  path_identifiers : ∀ p q, s.Names p → s.Names q → p ≠ q →
    Name.identifier p.nameParts ≠ Name.identifier q.nameParts
  timer_identifiers : ∀ t ∈ s.timers, ∀ u ∈ s.timers, t.id ≠ u.id → t.fqId ≠ u.fqId
  rule_names : ∀ t ∈ s.timers, ∀ u ∈ s.timers, t.id ≠ u.id →
    Name.cloud [s.name, t.fqId] ≠ Name.cloud [s.name, u.fqId]
  cors : s.platform ≠ .aws → ∀ api, s.api = some api → api.allowCors = false
  dns : s.platform ≠ .aws → ∀ api, s.api = some api → api.dns = none

/-! ## Each group of rules -/

variable {s : Schema}

/-- The header is in order: version, name and, on AWS, region and account. -/
theorem headerViolations_eq_nil_iff : s.headerViolations = [] ↔
    s.version = "1.0" ∧ s.name ≠ "" ∧ (s.platform = .aws → s.region ≠ "") ∧
      (s.platform = .aws → s.account ≠ "") := by
  simp only [headerViolations, List.append_eq_nil_iff, violates_eq_nil_iff, bne_eq_false_iff_eq,
    String.isEmpty_eq_false_iff, Bool.and_eq_false_imp, beq_iff_eq, and_assoc]

/-- A lambda is reported for nothing when it is valid on the platform. -/
theorem lambdaViolations_eq_nil_iff {id : String} {l : Lambda} :
    s.lambdaViolations id l = [] ↔ l.Valid s.platform := by
  have htimeout : (decide (l.timeoutSec < 1) || decide (900 < l.timeoutSec)) = false ↔
      1 ≤ l.timeoutSec.toNat ∧ l.timeoutSec.toNat ≤ 900 := by
    simp only [UInt32.lt_iff_toNat_lt, Bool.or_eq_false_iff, decide_eq_false_iff_not, Nat.not_lt]
    rfl
  have hmemory : decide (l.memoryMb < 128) = false ↔ 128 ≤ l.memoryMb.toNat := by
    simp [UInt32.lt_iff_toNat_lt]
  simp only [lambdaViolations, List.append_eq_nil_iff, violates_eq_nil_iff,
    String.isEmpty_eq_false_iff, htimeout, hmemory, List.flatMap_eq_nil_iff, bne_eq_false_iff_eq]
  constructor
  · rintro ⟨⟨⟨⟨hfile, hhandler⟩, htime⟩, hmem⟩, hpermissions⟩
    exact ⟨hfile, hhandler, htime, hmem, hpermissions⟩
  · rintro ⟨hfile, hhandler, htime, hmem, hpermissions⟩
    exact ⟨⟨⟨⟨hfile, hhandler⟩, htime⟩, hmem⟩, hpermissions⟩

/-- Permissions of the library must be of the platform. -/
theorem libraryViolations_eq_nil_iff :
    s.libraryViolations = [] ↔ ∀ d ∈ s.libraryPermissions, d.resource.platform = s.platform := by
  simp [libraryViolations]

theorem hasLambda_iff {id : String} : s.hasLambda id = true ↔ id ∈ s.lambdas.keys :=
  OrderedMap.contains_iff

/-- A path that gets a name is the root or lies above a route. -/
theorem mem_namedPaths_iff_names {p : UriPath} : p ∈ s.namedPaths ↔ s.Names p := by
  simp [namedPaths, Names]

/-- Different names have different identifiers iff one identifier stands for one name. -/
theorem collisions_map_eq_nil_iff_ne {α : Type} {family : NameFamily} {bearers : List α}
    {name identifier : α → String} :
    collisions family (bearers.map fun a => (name a, identifier a)) = [] ↔
      ∀ a ∈ bearers, ∀ b ∈ bearers, name a ≠ name b → identifier a ≠ identifier b := by
  rw [collisions_map_eq_nil_iff]
  constructor
  · intro h a ha b hb hne hid
    exact hne (h a ha b hb hid)
  · intro h a ha b hb hid
    exact Decidable.byContradiction fun hne => h a ha b hb hne hid

/-- CORS and an alias are for AWS alone. -/
theorem featureViolations_eq_nil_iff : s.featureViolations = [] ↔
    (s.platform ≠ .aws → ∀ api, s.api = some api → api.allowCors = false) ∧
      (s.platform ≠ .aws → ∀ api, s.api = some api → api.dns = none) := by
  unfold featureViolations
  cases hplatform : s.platform <;> cases hapi : s.api <;> simp

/-- Routes are in order when there is an api to hold them and each list is. -/
theorem routeViolations_eq_nil_iff : s.routeViolations = [] ↔
    (s.platform = .aws → s.routes.dynamic ≠ [] ∨ s.routes.static ≠ [] → s.api ≠ none) ∧
      s.dynamicViolations [] s.routes.dynamic = [] ∧
      s.staticViolations [] s.routes.static = [] := by
  have hapi : ((!s.routes.dynamic.isEmpty || !s.routes.static.isEmpty) && s.api.isNone &&
      s.platform == .aws) = false ↔
      (s.platform = .aws → s.routes.dynamic ≠ [] ∨ s.routes.static ≠ [] → s.api ≠ none) := by
    cases s.api <;> cases s.platform <;> simp
  simp only [routeViolations, List.append_eq_nil_iff, violates_eq_nil_iff, hapi, and_assoc]

/-- Names are in order when no two lambdas, paths or timers share one. -/
theorem identifierViolations_eq_nil_iff : s.identifierViolations = [] ↔
    (∀ a ∈ s.lambdas.keys, ∀ b ∈ s.lambdas.keys, a ≠ b →
      Name.identifier [a] ≠ Name.identifier [b]) ∧
    (∀ a ∈ s.lambdas.keys, ∀ b ∈ s.lambdas.keys, a ≠ b →
      Name.cloud [s.name, a] ≠ Name.cloud [s.name, b]) ∧
    (∀ p q, s.Names p → s.Names q → p ≠ q →
      Name.identifier p.nameParts ≠ Name.identifier q.nameParts) ∧
    (∀ t ∈ s.timers, ∀ u ∈ s.timers, t.id ≠ u.id → t.fqId ≠ u.fqId) ∧
    (∀ t ∈ s.timers, ∀ u ∈ s.timers, t.id ≠ u.id →
      Name.cloud [s.name, t.fqId] ≠ Name.cloud [s.name, u.fqId]) := by
  -- paths are compared as texts, which tell them apart
  have hne : ∀ p q : UriPath, p.absolute ≠ q.absolute ↔ p ≠ q := fun p q =>
    not_congr ⟨UriPath.absolute_injective, congrArg UriPath.absolute⟩
  have hpaths : (∀ p ∈ s.namedPaths.toList, ∀ q ∈ s.namedPaths.toList, p.absolute ≠ q.absolute →
      Name.identifier p.nameParts ≠ Name.identifier q.nameParts) ↔
      ∀ p q, s.Names p → s.Names q → p ≠ q →
        Name.identifier p.nameParts ≠ Name.identifier q.nameParts := by
    simp only [← OrderedSet.mem_def, mem_namedPaths_iff_names, hne]
    exact ⟨fun h p q hp hq => h p hp q hq, fun h p hp q hq => h p q hp hq⟩
  simp only [identifierViolations, List.append_eq_nil_iff, collisions_map_eq_nil_iff_ne, hpaths,
    and_assoc]

/-! ## All rules -/

/-- A schema has no violation iff it is valid. -/
theorem violations_eq_nil_iff_valid (s : Schema) : s.violations = [] ↔ s.Valid := by
  have hbucket : s.bucket.isNone = false ↔ s.bucket ≠ none := by
    cases s.bucket <;> simp
  have hcron : ∀ t : Timer, t.cron.toList.all Text.isBlank = false ↔
      ∃ c ∈ t.cron.toList, Text.isBlank c = false := by
    simp
  rw [violations_eq_nil_iff, headerViolations_eq_nil_iff, libraryViolations_eq_nil_iff,
    routeViolations_eq_nil_iff, dynamicViolations_eq_nil_iff, staticViolations_eq_nil_iff,
    timerViolations_eq_nil_iff, identifierViolations_eq_nil_iff, featureViolations_eq_nil_iff]
  simp only [lambdaViolations_eq_nil_iff, hasLambda_iff, hbucket, hcron,
    String.isEmpty_eq_false_iff, List.not_mem_nil, not_false_eq_true, true_and, implies_true]
  constructor
  · rintro ⟨⟨hversion, hname, hregion, haccount⟩, hlambdas, hlibrary,
      ⟨hapi, ⟨hroute, hroutes⟩, hstatic, hstaticDistinct⟩, ⟨htimer, htimers⟩,
      ⟨hids, hfunctions, hpaths, htimerIds, hrules⟩, hcors, hdns⟩
    exact
      { version := hversion
        name := hname
        region := hregion
        account := haccount
        lambdas := hlambdas
        library := hlibrary
        api := hapi
        route_lambda := hroute
        routes_distinct := hroutes
        static_platform := fun r hr => (hstatic r hr).1
        static_bucket := fun r hr => (hstatic r hr).2.1
        static_file := fun r hr => (hstatic r hr).2.2.1
        static_distinct := hstaticDistinct
        static_not_get := fun r hr => (hstatic r hr).2.2.2
        timer_lambda := fun t ht => (htimer t ht).2
        timer_cron := fun t ht => (htimer t ht).1
        timers_distinct := htimers
        lambda_identifiers := hids
        function_names := hfunctions
        path_identifiers := hpaths
        timer_identifiers := htimerIds
        rule_names := hrules
        cors := hcors
        dns := hdns }
  · intro h
    exact ⟨⟨h.version, h.name, h.region, h.account⟩, h.lambdas, h.library,
      ⟨h.api, ⟨h.route_lambda, h.routes_distinct⟩,
        fun r hr => ⟨h.static_platform r hr, h.static_bucket r hr, h.static_file r hr,
          h.static_not_get r hr⟩, h.static_distinct⟩,
      ⟨fun t ht => ⟨h.timer_cron t ht, h.timer_lambda t ht⟩, h.timers_distinct⟩,
      ⟨h.lambda_identifiers, h.function_names, h.path_identifiers, h.timer_identifiers,
        h.rule_names⟩, h.cors, h.dns⟩

end Schema
end InfraGraph
