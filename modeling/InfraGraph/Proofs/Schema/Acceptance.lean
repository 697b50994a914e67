import InfraGraph.Proofs.UriPath
import InfraGraph.Schema.Violation

/-!
# What a schema without violations keeps

Each rule of the validator said as a property of the schema.  Main statements:

* `collisions_eq_nil_iff` — no collision is reported iff names with one identifier are one name;
* `Schema.dynamicViolations_eq_nil_iff`, `Schema.staticViolations_eq_nil_iff`,
  `Schema.timerViolations_eq_nil_iff` — the rules for routes and timers;
* `Schema.violations_eq_nil_iff` — a schema has no violation iff no group of rules reports one;
* `Schema.Accepted`, `Schema.accepted_of_violations_eq_nil` — what generation may rely on;
* `Schema.Accepted.path_eq` — paths are told apart by the words of their segments.
-/

namespace InfraGraph

/-- A violation is reported when its condition holds, and only then. -/
@[simp]
theorem violates_eq_nil_iff {condition : Bool} {v : Violation} :
    violates condition v = [] ↔ condition = false := by
  cases condition <;> simp [violates]

/-! ## Collisions -/

/-- Names with one identifier are one name. -/
def OneName (names : List (String × String)) : Prop :=
  ∀ a ∈ names, ∀ b ∈ names, a.2 = b.2 → a.1 = b.1

/-- Names agree with those that took their identifiers first. -/
def AgreeWith (taken names : List (String × String)) : Prop :=
  ∀ a ∈ names, ∀ first, Entries.get? a.2 taken = some first → first = a.1

/-- One name for each text, for the first and among the rest. -/
theorem oneName_cons {a : String × String} {rest : List (String × String)} :
    OneName (a :: rest) ↔ (∀ b ∈ rest, a.2 = b.2 → a.1 = b.1) ∧ OneName rest := by
  constructor
  · intro h
    refine ⟨fun b hb => h a List.mem_cons_self b (List.mem_cons_of_mem _ hb), ?_⟩
    intro b hb c hc
    exact h b (List.mem_cons_of_mem _ hb) c (List.mem_cons_of_mem _ hc)
  · rintro ⟨hfirst, hrest⟩ b hb c hc hbc
    rcases List.mem_cons.mp hb with rfl | hbr <;> rcases List.mem_cons.mp hc with rfl | hcr
    · rfl
    · exact hfirst c hcr hbc
    · exact (hfirst b hbr hbc.symm).symm
    · exact hrest b hbr c hcr hbc

/-- A name that takes a free identifier is one more to agree with. -/
theorem agreeWith_push {taken names : List (String × String)} {identifier name : String}
    (hfree : Entries.get? identifier taken = none) :
    AgreeWith ((identifier, name) :: taken) names ↔
      AgreeWith taken names ∧ ∀ a ∈ names, identifier = a.2 → name = a.1 := by
  constructor
  · intro h
    refine ⟨fun a ha first hfirst => ?_, fun a ha hid => ?_⟩
    · have hne : identifier ≠ a.2 := by
        rintro rfl
        rw [hfree] at hfirst
        cases hfirst
      exact h a ha first (by simpa [Entries.get?, hne] using hfirst)
    · exact h a ha name (by simp [Entries.get?, hid])
  · rintro ⟨htaken, hname⟩ a ha first hfirst
    by_cases hid : identifier = a.2
    · rw [Entries.get?, if_pos hid] at hfirst
      cases hfirst
      exact hname a ha hid
    · rw [Entries.get?, if_neg hid] at hfirst
      exact htaken a ha first hfirst

/-- The names agree with those that took their identifiers first, and with one another. -/
theorem collisionsFrom_eq_nil_iff {family : NameFamily} {taken names : List (String × String)} :
    collisionsFrom family taken names = [] ↔ AgreeWith taken names ∧ OneName names := by
  induction names generalizing taken with
  | nil => simp [collisionsFrom, AgreeWith, OneName]
  | cons entry rest ih =>
      rcases entry with ⟨name, identifier⟩
      have hcons : AgreeWith taken ((name, identifier) :: rest) ↔
          (∀ first, Entries.get? identifier taken = some first → first = name) ∧
            AgreeWith taken rest := by
        simp [AgreeWith]
      unfold collisionsFrom
      rw [hcons, oneName_cons]
      cases hget : Entries.get? identifier taken with
      | some first =>
          simp only [List.append_eq_nil_iff, violates_eq_nil_iff, bne_eq_false_iff_eq, ih,
            Option.some.injEq, forall_eq']
          constructor
          · rintro ⟨rfl, htaken, hrest⟩
            -- later names with this identifier agree with the one that took it
            have hlater : ∀ b ∈ rest, identifier = b.2 → first = b.1 := by
              rintro b hb rfl
              exact htaken b hb first hget
            exact ⟨⟨rfl, htaken⟩, hlater, hrest⟩
          · rintro ⟨⟨hfirst, htaken⟩, _, hrest⟩
            exact ⟨hfirst, htaken, hrest⟩
      | none =>
          simp only [ih, agreeWith_push hget, reduceCtorEq, false_implies, implies_true, true_and,
            and_assoc]

/-- No collision is reported iff names with one identifier are one name. -/
theorem collisions_eq_nil_iff {family : NameFamily} {names : List (String × String)} :
    collisions family names = [] ↔ ∀ a ∈ names, ∀ b ∈ names, a.2 = b.2 → a.1 = b.1 := by
  unfold collisions
  rw [collisionsFrom_eq_nil_iff]
  simp [AgreeWith, OneName, Entries.get?]

/-- The same for names listed by what bears them. -/
theorem collisions_map_eq_nil_iff {α : Type} {family : NameFamily} {bearers : List α}
    {name identifier : α → String} :
    collisions family (bearers.map fun a => (name a, identifier a)) = [] ↔
      ∀ a ∈ bearers, ∀ b ∈ bearers, identifier a = identifier b → name a = name b := by
  rw [collisions_eq_nil_iff]
  simp

namespace Schema

variable {s : Schema}

/-! ## Routes and timers -/

/-- Dynamic routes are in order when their lambdas are there and no endpoint is taken, by an earlier
route or by another of them. -/
theorem dynamicViolations_eq_nil_iff {seen : List (HttpMethod × UriPath)}
    {routes : List DynamicRoute} :
    s.dynamicViolations seen routes = [] ↔
      (∀ r ∈ routes, s.hasLambda r.lambda = true) ∧
        (∀ r ∈ routes, ¬(r.method, r.path) ∈ seen) ∧
          (routes.map fun r => (r.method, r.path)).Nodup := by
  induction routes generalizing seen with
  | nil => simp [dynamicViolations]
  | cons r rest ih =>
      simp only [dynamicViolations, List.append_eq_nil_iff, violates_eq_nil_iff, ih,
        Bool.not_eq_false', List.contains_eq_mem, decide_eq_false_iff_not, List.mem_cons,
        List.map_cons, List.nodup_cons, List.mem_map, forall_eq_or_imp]
      constructor
      · rintro ⟨⟨hlambda, hr⟩, hlambdas, hseen, hnodup⟩
        refine ⟨⟨hlambda, hlambdas⟩, ⟨hr, fun t ht hm => hseen t ht (Or.inr hm)⟩, ?_, hnodup⟩
        rintro ⟨t, ht, he⟩
        exact hseen t ht (Or.inl he)
      · rintro ⟨⟨hlambda, hlambdas⟩, ⟨hr, hseen⟩, hnot, hnodup⟩
        refine ⟨⟨hlambda, hr⟩, hlambdas, ?_, hnodup⟩
        rintro t ht (he | hm)
        · exact hnot ⟨t, ht, he⟩
        · exact hseen t ht hm

/-- Static routes are in order when the platform serves them from a bucket and no path is taken, by
another static route or by a dynamic GET. -/
theorem staticViolations_eq_nil_iff {seen : List UriPath} {routes : List StaticRoute} :
    s.staticViolations seen routes = [] ↔
      (∀ r ∈ routes, s.platform = .aws ∧ s.bucket.isNone = false ∧ r.file.isEmpty = false ∧
          ¬r.path ∈ seen ∧ ∀ d ∈ s.routes.dynamic, d.method = .get → d.path ≠ r.path) ∧
        (routes.map StaticRoute.path).Nodup := by
  induction routes generalizing seen with
  | nil => simp [staticViolations]
  | cons r rest ih =>
      simp only [staticViolations, List.append_eq_nil_iff, violates_eq_nil_iff, ih,
        bne_eq_false_iff_eq, Bool.or_eq_false_iff, List.contains_eq_mem,
        decide_eq_false_iff_not, List.any_eq_false, Bool.and_eq_true, beq_iff_eq, not_and,
        List.mem_cons, not_or, List.map_cons, List.nodup_cons, List.mem_map, forall_eq_or_imp]
      constructor
      · rintro ⟨⟨⟨⟨hp, hb⟩, hf⟩, hseen, hget⟩, hrest, hnodup⟩
        refine ⟨⟨⟨hp, hb, hf, hseen, hget⟩, fun t ht => ?_⟩, ?_, hnodup⟩
        · rcases hrest t ht with ⟨hp', hb', hf', hs', hg'⟩
          exact ⟨hp', hb', hf', hs'.2, hg'⟩
        · rintro ⟨t, ht, he⟩
          exact (hrest t ht).2.2.2.1.1 he
      · rintro ⟨⟨⟨hp, hb, hf, hseen, hget⟩, hrest⟩, hnot, hnodup⟩
        refine ⟨⟨⟨⟨hp, hb⟩, hf⟩, hseen, hget⟩, fun t ht => ?_, hnodup⟩
        rcases hrest t ht with ⟨hp', hb', hf', hs', hg'⟩
        exact ⟨hp', hb', hf', ⟨fun he => hnot ⟨t, ht, he⟩, hs'⟩, hg'⟩

/-- Timers are in order when their lambdas are there, their crons are not blank and no id is
taken. -/
theorem timerViolations_eq_nil_iff {seen : List String} {timers : List Timer} :
    s.timerViolations seen timers = [] ↔
      (∀ t ∈ timers, ¬t.id ∈ seen ∧ t.cron.toList.all Text.isBlank = false ∧
          s.hasLambda t.lambda = true) ∧
        (timers.map Timer.id).Nodup := by
  induction timers generalizing seen with
  | nil => simp [timerViolations]
  | cons t rest ih =>
      simp only [timerViolations, List.append_eq_nil_iff, violates_eq_nil_iff, ih,
        List.contains_eq_mem, decide_eq_false_iff_not, Bool.not_eq_false', List.mem_cons, not_or,
        List.map_cons, List.nodup_cons, List.mem_map, forall_eq_or_imp]
      constructor
      · rintro ⟨⟨⟨hseen, hcron⟩, hlambda⟩, hrest, hnodup⟩
        refine ⟨⟨⟨hseen, hcron, hlambda⟩, fun u hu => ?_⟩, ?_, hnodup⟩
        · rcases hrest u hu with ⟨hs', hc', hl'⟩
          exact ⟨hs'.2, hc', hl'⟩
        · rintro ⟨u, hu, he⟩
          exact (hrest u hu).1.1 he
      · rintro ⟨⟨⟨hseen, hcron, hlambda⟩, hrest⟩, hnot, hnodup⟩
        refine ⟨⟨⟨hseen, hcron⟩, hlambda⟩, fun u hu => ?_, hnodup⟩
        rcases hrest u hu with ⟨hs', hc', hl'⟩
        exact ⟨⟨fun he => hnot ⟨u, hu, he⟩, hs'⟩, hc', hl'⟩

/-! ## All rules -/

/-- A schema has no violation iff no group of rules reports one. -/
theorem violations_eq_nil_iff :
    s.violations = [] ↔
      s.headerViolations = [] ∧ (∀ entry ∈ s.lambdas.entries,
        s.lambdaViolations entry.1 entry.2 = []) ∧ s.libraryViolations = [] ∧
        s.routeViolations = [] ∧ s.timerViolations [] s.timers = [] ∧
        s.identifierViolations = [] ∧ s.featureViolations = [] := by
  simp [violations, List.flatMap_eq_nil_iff]

/-- The paths that get a name are the root and those of the routes with everything above. -/
theorem mem_namedPaths_iff {p : UriPath} : p ∈ s.namedPaths ↔ p = .root ∨ p ∈ s.routePaths := by
  simp [namedPaths, routePaths]

/-- Without an API there are no routes. -/
theorem routes_eq_nil_of_api_eq_none (haws : s.platform = .aws) (hvalid : s.violations = [])
    (hapi : s.api = none) : s.routes.dynamic = [] ∧ s.routes.static = [] := by
  have hroutes := (violations_eq_nil_iff.mp hvalid).2.2.2.1
  simp only [routeViolations, List.append_eq_nil_iff, violates_eq_nil_iff] at hroutes
  simpa [hapi, haws] using hroutes.1.1

/-! ## What generation may rely on -/

/-- The rules that generation rests on, as properties of a schema. -/
structure Accepted (s : Schema) : Prop where
  lambda_permissions : ∀ entry ∈ s.lambdas.entries, ∀ d ∈ entry.2.permissions,
    d.resource.platform = s.platform
  route_lambda : ∀ r ∈ s.routes.dynamic, s.hasLambda r.lambda = true
  routes_distinct : (s.routes.dynamic.map fun r => (r.method, r.path)).Nodup
  static_bucket : ∀ r ∈ s.routes.static, ∃ bucket, s.bucket = some bucket
  static_not_get : ∀ r ∈ s.routes.static, ∀ d ∈ s.routes.dynamic, d.method = .get → d.path ≠ r.path
  static_distinct : (s.routes.static.map StaticRoute.path).Nodup
  timer_lambda : ∀ t ∈ s.timers, s.hasLambda t.lambda = true
  timers_distinct : (s.timers.map Timer.id).Nodup
  lambda_identifiers : ∀ a ∈ s.lambdas.keys, ∀ b ∈ s.lambdas.keys,
    Name.identifier [a] = Name.identifier [b] → a = b
  function_names : ∀ a ∈ s.lambdas.keys, ∀ b ∈ s.lambdas.keys,
    Name.cloud [s.name, a] = Name.cloud [s.name, b] → a = b
  path_identifiers : ∀ p ∈ s.namedPaths, ∀ q ∈ s.namedPaths,
    Name.identifier p.nameParts = Name.identifier q.nameParts → p.absolute = q.absolute
  timer_identifiers : ∀ t ∈ s.timers, ∀ u ∈ s.timers, t.fqId = u.fqId → t.id = u.id
  rule_names : ∀ t ∈ s.timers, ∀ u ∈ s.timers,
    Name.cloud [s.name, t.fqId] = Name.cloud [s.name, u.fqId] → t.id = u.id

/-- A schema without violations keeps all of them. -/
theorem accepted_of_violations_eq_nil (h : s.violations = []) : s.Accepted := by
  rcases violations_eq_nil_iff.mp h with ⟨_, hlambdas, _, hroutes, htimers, hnames, _⟩
  -- among the rules for a lambda, the one for its declarations comes last
  have hpermissions : ∀ entry ∈ s.lambdas.entries, ∀ d ∈ entry.2.permissions,
      d.resource.platform = s.platform := by
    intro entry hentry d hd
    have hlambda := hlambdas entry hentry
    simp only [lambdaViolations, List.append_eq_nil_iff, List.flatMap_eq_nil_iff,
      violates_eq_nil_iff, bne_eq_false_iff_eq] at hlambda
    exact hlambda.2 d hd
  simp only [routeViolations, List.append_eq_nil_iff, dynamicViolations_eq_nil_iff,
    staticViolations_eq_nil_iff] at hroutes
  rcases hroutes with ⟨⟨_, hlambda, _, hdistinct⟩, hstatic, hstaticDistinct⟩
  rcases timerViolations_eq_nil_iff.mp htimers with ⟨htimer, htimersDistinct⟩
  simp only [identifierViolations, List.append_eq_nil_iff, collisions_map_eq_nil_iff] at hnames
  rcases hnames with ⟨⟨⟨⟨hids, hfunctions⟩, hpaths⟩, htimerIds⟩, hrules⟩
  exact
    { lambda_permissions := hpermissions
      route_lambda := hlambda
      routes_distinct := hdistinct
      static_bucket := fun r hr =>
        Option.isSome_iff_exists.mp (by simpa using (hstatic r hr).2.1)
      static_not_get := fun r hr => (hstatic r hr).2.2.2.2
      static_distinct := hstaticDistinct
      timer_lambda := fun t ht => (htimer t ht).2.2
      timers_distinct := htimersDistinct
      lambda_identifiers := hids
      function_names := hfunctions
      path_identifiers := hpaths
      timer_identifiers := htimerIds
      rule_names := hrules }

/-! ## Paths of an accepted schema -/

/-- Paths of an accepted schema are told apart by the words of their segments. -/
theorem Accepted.path_eq {s : Schema} (h : s.Accepted) {p q : UriPath}
    (hp : p ∈ s.namedPaths) (hq : q ∈ s.namedPaths)
    (hwords : Name.words p.nameParts = Name.words q.nameParts) : p = q :=
  UriPath.absolute_injective (h.path_identifiers p hp q hq (Name.identifier_eq_iff.mpr hwords))

theorem mem_namedPaths_of_mem_paths {s : Schema} {p : UriPath} (h : p ∈ s.routes.paths) :
    p ∈ s.namedPaths :=
  mem_namedPaths_iff.mpr (mem_routePaths_of_mem_paths h)

/-- A served path gets a name. -/
theorem mem_namedPaths_of_mem_servedPaths {s : Schema} {p : UriPath}
    (h : p ∈ s.servedPaths) : p ∈ s.namedPaths :=
  mem_namedPaths_iff.mpr (mem_routePaths_of_mem_servedPaths h)

/-! ## A small application -/

/-- A schema that uses every AWS producer. -/
def shop : Schema where
  version := "1.0"
  name := "shop"
  description := none
  platform := .aws
  region := "us-east-1"
  account := "123"
  bucket := some "site"
  api := some ⟨"shop-api", true, .unnamed, some ⟨"api", "shop.example", none⟩⟩
  lambdas := .ofList [("users", ⟨"users.jar", "Users", Lambda.defaultMemoryMb,
    Lambda.defaultTimeoutSec, Lambda.defaultRuntime, .empty, []⟩)]
  routes :=
    { dynamic := [⟨.parse "/users/{id}", .get, "users"⟩]
      static := [⟨.root, "index.html", "text/html"⟩] }
  timers := [⟨"nightly", "0 3 * * ? *", "users"⟩]
  libraryPermissions := []

theorem violations_shop : shop.violations = [] := by
  decide +kernel

end Schema
end InfraGraph
