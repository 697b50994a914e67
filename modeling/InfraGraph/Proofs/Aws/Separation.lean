import InfraGraph.Generation.Schedule
import InfraGraph.Proofs.Aws.Emission
import InfraGraph.Proofs.Generation.History

/-!
# When two AWS producers name the same resource

Most producers have kinds of their own.  Routes, static files and preflight handlers share the kinds
of a method, and routes and timers share the kind of a permission.  What their names begin with does
not keep them apart: a segment may be the word `static` or `cors`, and the API may be called
`timer`.  The condition that is needed besides is `Schema.NamesApart`.  Main statements:

* `Aws.Family.shared_kinds` — the producers that share kinds;
* `Aws.labels_apart` — where names are apart, two producers do not share labels;
* `Aws.emitsApart_of_namesApart` — nor do they emit the same address.
-/

namespace InfraGraph

/-! ## The condition -/

/-- In some state of the schema, the item generates a resource with the address. -/
def WorkItem.Emits (item : WorkItem) (s : Schema) (address : String) : Prop :=
  ∃ ctx g, ctx.schema = s ∧ item.producer.generate ctx item.entity = .ok g ∧
    address ∈ g.resources.map Resource.address

namespace Schema

/-- No two items of different producers emit the same address. -/
def EmitsApart (s : Schema) : Prop :=
  ∀ i ∈ Schedule.items s.platform.producers s, ∀ j ∈ Schedule.items s.platform.producers s,
    i.producer.name ≠ j.producer.name → ∀ address, i.Emits s address → ¬j.Emits s address

/-- No route is named like a static route, a preflight handler or a timer of the schema. -/
structure NamesApart (s : Schema) : Prop where
  static : ∀ api, s.api = some api → ∀ r ∈ s.routes.dynamic, ∀ t ∈ s.routes.static,
    Aws.Route.tail r ≠ Aws.StaticFile.tail t
  preflight : ∀ api, s.api = some api → api.allowCors = true → ∀ r ∈ s.routes.dynamic,
    ∀ p ∈ s.servedPaths, Aws.Route.tail r ≠ Aws.Preflight.tail "options" p
  timer : ∀ api, s.api = some api → ∀ r ∈ s.routes.dynamic, ∀ t ∈ s.timers,
    Name.tokens [api.name] ++ Aws.Route.tail r ≠ Name.tokens ["timer", t.id]

end Schema

namespace Aws

variable {s : Schema} {api : Api}

/-! ## Names of different producers -/

/-- A dynamic route is named like a static one iff their tokens behind the name of the API are the
same. -/
theorem routeName_eq_static_iff {r : DynamicRoute} {t : StaticRoute} :
    Route.routeName api r = StaticFile.identifier api t ↔ Route.tail r = StaticFile.tail t :=
  identifier_eq_iff_tails (Route.tokens_routeName api r) (StaticFile.tokens_identifier api t)
    (Route.tail_ne_nil r) (StaticFile.tail_ne_nil t)

/-- It is named like a handler iff the tokens are, in the same way. -/
theorem routeName_eq_handlerName_iff {r : DynamicRoute} {p : UriPath} {role : String}
    (hrole : role = "options" ∨ role = "response") :
    Route.routeName api r = Preflight.handlerName api role p ↔
      Route.tail r = Preflight.tail role p :=
  identifier_eq_iff_tails (Route.tokens_routeName api r)
    (Preflight.tokens_handlerName api hrole p) (Route.tail_ne_nil r) (Preflight.tail_ne_nil role p)

/-- The words `static` and `cors` keep static routes and handlers apart. -/
theorem identifier_ne_handlerName {t : StaticRoute} {p : UriPath} {role : String}
    (hrole : role = "options" ∨ role = "response") :
    StaticFile.identifier api t ≠ Preflight.handlerName api role p := by
  intro h
  have htails : StaticFile.tail t = Preflight.tail role p :=
    (identifier_eq_iff_tails (StaticFile.tokens_identifier api t)
      (Preflight.tokens_handlerName api hrole p) (StaticFile.tail_ne_nil t)
      (Preflight.tail_ne_nil role p)).mp h
  exact absurd (List.cons.inj htails).1 (by decide)

/-- It is named like a timer iff all tokens are. -/
theorem routeName_eq_fqId_iff {r : DynamicRoute} {t : Timer} :
    Route.routeName api r = t.fqId ↔
      Name.tokens [api.name] ++ Route.tail r = Name.tokens ["timer", t.id] := by
  -- a timer does not bear the name of the API, so nothing cancels
  have htimer : Name.tokens ["timer", t.id] ≠ [] := by
    have hword : Name.tokens ["timer"] = ["timer".toList] := Name.tokens_of_isToken (by decide)
    rw [Name.tokens_cons, hword]
    simp
  have hroute : Name.tokens (api.name :: r.path.nameParts ++ [r.method.text]) ≠ [] := by
    rw [Route.tokens_routeName]
    simp [Route.tail]
  unfold Route.routeName Timer.fqId
  rw [Name.identifier_eq_iff_tokens hroute htimer, Route.tokens_routeName]

/-! ## Kinds of different producers -/

namespace Family

def sharing : List (Family × Family) :=
  [(route, static), (route, preflight), (static, preflight), (route, timer)]

/-- The kinds of two producers are different, unless the producers are known to share kinds. -/
theorem shared_kinds {a b : Family} {kind : String} (hne : a ≠ b) (ha : kind ∈ a.kinds)
    (hb : kind ∈ b.kinds) : (a, b) ∈ sharing ∨ (b, a) ∈ sharing := by
  -- kinds are fixed words, so the table of all pairs can be checked
  have htable : ∀ a ∈ all, ∀ b ∈ all, ∀ kind ∈ a.kinds, kind ∈ b.kinds →
      a = b ∨ (a, b) ∈ sharing ∨ (b, a) ∈ sharing := by decide +kernel
  exact (htable a a.mem_all b b.mem_all kind ha hb).resolve_left hne

/-- Families have producers of different names. -/
theorem producer_name_ne {a b : Family} (hne : a ≠ b) : a.producer.name ≠ b.producer.name := by
  have hnames : (all.map fun family => family.producer.name).Nodup :=
    Platform.aws.nodup_producer_names
  exact fun he => hne (List.inj_on_of_nodup_map hnames a.mem_all b.mem_all he)

end Family

/-! ## Names apart are enough -/

variable {e f : Entity} {l : String × String}

/-- Labels of dynamic routes have the name of a route. -/
theorem Route.of_mem_labels (he : e ∈ Route.producer.entities s) (hl : l ∈ Route.labels s e) :
    ∃ api r, s.api = some api ∧ r ∈ s.routes.dynamic ∧ l.2 = Route.routeName api r := by
  rcases Route.mem_entities_iff.mp he with ⟨api, hapi, r, hr, rfl⟩
  simp only [Route.labels, hapi, Option.toList_some, List.flatMap_singleton, List.mem_map] at hl
  rcases hl with ⟨_, _, rfl⟩
  exact ⟨api, r, hapi, hr, rfl⟩

theorem StaticFile.of_mem_labels (he : e ∈ StaticFile.producer.entities s)
    (hl : l ∈ StaticFile.labels s e) :
    ∃ api t, s.api = some api ∧ t ∈ s.routes.static ∧ l.2 = StaticFile.identifier api t := by
  rcases StaticFile.mem_entities_iff.mp he with ⟨api, hapi, t, ht, rfl⟩
  simp only [StaticFile.labels, hapi, Option.toList_some, List.flatMap_singleton,
    List.mem_map] at hl
  rcases hl with ⟨_, _, rfl⟩
  exact ⟨api, t, hapi, ht, rfl⟩

/-- Labels of handlers have the name of a handler, for a served path. -/
theorem Preflight.of_mem_labels (he : e ∈ Preflight.producer.entities s)
    (hl : l ∈ Preflight.labels s e) :
    ∃ api p part, s.api = some api ∧ api.allowCors = true ∧ p ∈ s.servedPaths ∧ part ∈ parts ∧
      l = (part.1, handlerName api part.2 p) := by
  rcases Preflight.mem_entities_iff.mp he with ⟨api, hapi, hcors, rfl⟩
  rcases List.mem_flatMap.mp hl with ⟨p, hp, hmem⟩
  rcases List.mem_map.mp hmem with ⟨part, hpart, rfl⟩
  exact ⟨api, p, part, hapi, hcors, hp, hpart, rfl⟩

theorem EventRule.of_mem_labels (he : e ∈ Timers.producer.entities s)
    (hl : l ∈ EventRule.labels e) : ∃ t ∈ s.timers, l.2 = t.fqId := by
  rcases Timers.mem_entities_iff.mp he with ⟨t, ht, rfl⟩
  rcases List.mem_map.mp hl with ⟨_, _, rfl⟩
  exact ⟨t, ht, rfl⟩

/-- Of the parts of a handler, only those that a route also has could meet a route. -/
theorem Preflight.role_of_route_kind {part : String × String} (hpart : part ∈ Preflight.parts)
    (hkind : part.1 ∈ Route.kinds) : part.2 = "options" := by
  have htable : ∀ part ∈ Preflight.parts, part.1 ∈ Route.kinds → part.2 = "options" := by
    decide
  exact htable part hpart hkind

/-- Where names are apart, two producers that share kinds do not share labels. -/
theorem sharing_apart (hapart : s.NamesApart) {a b : Family} (hab : (a, b) ∈ Family.sharing)
    (he : e ∈ a.producer.entities s) (hf : f ∈ b.producer.entities s) (ha : l ∈ a.labels s e) :
    ¬l ∈ b.labels s f := by
  intro hb
  have hkind := (a.of_mem_labels he ha).1
  simp only [Family.sharing, List.mem_cons, List.not_mem_nil, or_false, Prod.mk.injEq] at hab
  rcases hab with ⟨rfl, rfl⟩ | ⟨rfl, rfl⟩ | ⟨rfl, rfl⟩ | ⟨rfl, rfl⟩
  · rcases Route.of_mem_labels he ha with ⟨api, r, hapi, hr, hname⟩
    rcases StaticFile.of_mem_labels hf hb with ⟨api', t, hapi', ht, hname'⟩
    cases hapi.symm.trans hapi'
    exact hapart.static api hapi r hr t ht (routeName_eq_static_iff.mp (hname.symm.trans hname'))
  · rcases Route.of_mem_labels he ha with ⟨api, r, hapi, hr, hname⟩
    rcases Preflight.of_mem_labels hf hb with ⟨api', p, part, hapi', hcors, hp, hpart, rfl⟩
    cases hapi.symm.trans hapi'
    -- responses have kinds that routes lack
    have hrole := Preflight.role_of_route_kind hpart hkind
    have htail := (routeName_eq_handlerName_iff (Or.inl hrole)).mp hname.symm
    rw [hrole] at htail
    exact hapart.preflight api hapi hcors r hr p hp htail
  · rcases StaticFile.of_mem_labels he ha with ⟨api, t, hapi, _, hname⟩
    rcases Preflight.of_mem_labels hf hb with ⟨api', p, part, hapi', _, _, hpart, rfl⟩
    cases hapi.symm.trans hapi'
    exact identifier_ne_handlerName (Preflight.role_cases hpart) hname.symm
  · rcases Route.of_mem_labels he ha with ⟨api, r, hapi, hr, hname⟩
    rcases EventRule.of_mem_labels hf hb with ⟨t, ht, hname'⟩
    exact hapart.timer api hapi r hr t ht (routeName_eq_fqId_iff.mp (hname.symm.trans hname'))

/-- Where names are apart, two producers do not share labels. -/
theorem labels_apart (hapart : s.NamesApart) {a b : Family} (hne : a ≠ b)
    (he : e ∈ a.producer.entities s) (hf : f ∈ b.producer.entities s) (ha : l ∈ a.labels s e) :
    ¬l ∈ b.labels s f := by
  intro hb
  rcases Family.shared_kinds hne (a.of_mem_labels he ha).1 (b.of_mem_labels hf hb).1 with hab | hba
  · exact sharing_apart hapart hab he hf ha hb
  · exact sharing_apart hapart hba hf he hb ha

/-! ## What an item emits -/

/-- An address that is emitted belongs to a label of the entity. -/
theorem exists_label_of_emits (haws : s.platform = .aws) {a : Family}
    (he : e ∈ a.producer.entities s) {address : String}
    (hemits : WorkItem.Emits ⟨a.producer, e⟩ s address) :
    ∃ r : Resource, r.Addressable ∧ r.address = address ∧ r.label ∈ a.labels s e := by
  rcases hemits with ⟨ctx, g, hs, hg, haddress⟩
  rcases List.mem_map.mp haddress with ⟨r, hr, rfl⟩
  refine ⟨r, addressable (Family.mem_producers_iff.mpr ⟨a, rfl⟩) haws hs he hg r hr, rfl, ?_⟩
  rw [← a.map_label haws hs he hg]
  exact List.mem_map_of_mem hr

/-- Where names are apart, so is what different producers emit. -/
theorem emitsApart_of_namesApart (haws : s.platform = .aws) (hapart : s.NamesApart) :
    s.EmitsApart := by
  rintro ⟨p, e⟩ hi ⟨q, f⟩ hj hne address hp hq
  rw [haws] at hi hj
  rcases Schedule.mem_items_iff.mp hi with ⟨hpmem, he⟩
  rcases Schedule.mem_items_iff.mp hj with ⟨hqmem, hf⟩
  rcases Family.mem_producers_iff.mp hpmem with ⟨a, rfl⟩
  rcases Family.mem_producers_iff.mp hqmem with ⟨b, rfl⟩
  rcases exists_label_of_emits haws he hp with ⟨r, hr, hra, hrl⟩
  rcases exists_label_of_emits haws hf hq with ⟨t, ht, hta, htl⟩
  -- one address, one label
  rw [← Resource.label_eq_of_address_eq hr ht (hra.trans hta.symm)] at htl
  exact labels_apart hapart (fun hab => hne (by rw [hab])) he hf hrl htl

end Aws
end InfraGraph
