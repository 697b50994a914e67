import InfraGraph.Proofs.Aws.Completion
import InfraGraph.Proofs.Aws.Separation

/-!
# Passes that fail for an address of two producers

A pass for an accepted schema on AWS succeeds iff names are apart.  Where they are not, it fails for
an address that an item of another producer emitted first; within one producer addresses never
meet.  Main statements:

* `Aws.namesApart_of_completed` — a pass that completes everything had names apart;
* `Aws.exists_other_of_taken` — an address that is taken was emitted by another producer;
* `Schema.aws_namesApart_iff` — both, for the whole pass.
-/

namespace InfraGraph

namespace Aws

variable {s : Schema} {grants : Grants} {done : List Completion} {ctx : Context}
  {e f : Entity} {l : String × String}

/-! ## Names apart are necessary -/

/-- Where everything has been completed, two producers share no label. -/
theorem labels_apart_of_completed (haws : s.platform = .aws)
    (h : History Platform.aws.producers s grants done ctx)
    (hall : ∀ i ∈ Schedule.items Platform.aws.producers s, ∃ c ∈ done, c.item = i) {a b : Family}
    (hne : a ≠ b) (he : e ∈ a.producer.entities s) (hf : f ∈ b.producer.entities s)
    (ha : l ∈ a.labels s e) : ¬l ∈ b.labels s f := by
  intro hb
  rcases exists_completion_of_label haws h hall he ha with ⟨c, hc, hca, r, hr, hrl⟩
  rcases exists_completion_of_label haws h hall hf hb with ⟨d, hd, hdb, t, ht, htl⟩
  have haddress : t.address = r.address := by
    rcases Prod.mk.inj (htl.trans hrl.symm) with ⟨hkind, hname⟩
    unfold Resource.address
    rw [hkind, hname]
  -- both completions emitted the address, but a pass emits it once
  have hsame : c = d := h.eq_of_common_address hc hd (List.mem_map_of_mem hr)
    (List.mem_map.mpr ⟨t, ht, haddress⟩)
  refine Family.producer_name_ne hne ?_
  rw [← hca, ← hdb, hsame]

/-- A pass that completes everything had names apart. -/
theorem namesApart_of_completed (haws : s.platform = .aws)
    (h : History Platform.aws.producers s grants done ctx)
    (hall : ∀ i ∈ Schedule.items Platform.aws.producers s, ∃ c ∈ done, c.item = i) :
    s.NamesApart := by
  -- each condition names two items with a label in common, the first of them that of a route
  have hroute : ∀ {api r kind}, s.api = some api → r ∈ s.routes.dynamic → kind ∈ Route.kinds →
      Entity.route r ∈ Family.route.producer.entities s ∧
        (kind, Route.routeName api r) ∈ Family.route.labels s (.route r) := by
    intro api r kind hapi hr hkind
    refine ⟨Route.mem_entities_iff.mpr ⟨api, hapi, r, hr, rfl⟩, ?_⟩
    simpa [Family.labels, Route.labels, hapi] using hkind
  have hmethod : Gateway.methodKind ∈ Route.kinds := by simp [Route.kinds]
  have hpermission : Gateway.permissionKind ∈ Route.kinds := by simp [Route.kinds]
  refine ⟨?_, ?_, ?_⟩
  · intro api hapi r hr t ht htail
    rcases hroute hapi hr hmethod with ⟨he, hl⟩
    have hf : Entity.static t ∈ Family.static.producer.entities s :=
      StaticFile.mem_entities_iff.mpr ⟨api, hapi, t, ht, rfl⟩
    refine labels_apart_of_completed haws h hall (by decide) he hf hl ?_
    rw [routeName_eq_static_iff.mpr htail]
    simp [Family.labels, StaticFile.labels, StaticFile.kinds, hapi]
  · intro api hapi hcors r hr p hp htail
    rcases hroute hapi hr hmethod with ⟨he, hl⟩
    have hf : Entity.api api ∈ Family.preflight.producer.entities s :=
      Preflight.mem_entities_iff.mpr ⟨api, hapi, hcors, rfl⟩
    refine labels_apart_of_completed haws h hall (by decide) he hf hl ?_
    rw [(routeName_eq_handlerName_iff (Or.inl rfl)).mpr htail]
    refine List.mem_flatMap.mpr ⟨p, hp, ?_⟩
    simp [Preflight.parts]
  · intro api hapi r hr t ht htokens
    rcases hroute hapi hr hpermission with ⟨he, hl⟩
    have hf : Entity.timer t ∈ Family.timer.producer.entities s :=
      Timers.mem_entities_iff.mpr ⟨t, ht, rfl⟩
    refine labels_apart_of_completed haws h hall (by decide) he hf hl ?_
    rw [routeName_eq_fqId_iff.mpr htokens]
    simp [Family.labels, EventRule.labels, EventRule.kinds]

/-! ## Failures are between two producers -/

namespace Family

/-- What is generated for one entity has different addresses. -/
theorem nodup_generated (a : Family) (haws : s.platform = .aws) (haccepted : s.Accepted)
    (hs : ctx.schema = s) (he : e ∈ a.producer.entities s) {g : Generated}
    (hg : a.producer.generate ctx e = .ok g) : (g.resources.map Resource.address).Nodup := by
  have hplain := addressable (mem_producers_iff.mpr ⟨a, rfl⟩) haws hs he hg
  refine Resource.nodup_addresses hplain ?_
  rw [a.map_label haws hs he hg]
  exact (List.nodup_flatMap.mp (a.nodup_labels haccepted)).1 e he

/-- Within one producer an address tells the entity, whatever the states are. -/
theorem entity_eq_of_address_eq (a : Family) (haws : s.platform = .aws) (haccepted : s.Accepted)
    {state : Context} (hs : ctx.schema = s) (hs' : state.schema = s)
    (he : e ∈ a.producer.entities s) (hf : f ∈ a.producer.entities s) {g g' : Generated}
    (hg : a.producer.generate ctx e = .ok g) (hg' : a.producer.generate state f = .ok g')
    {r t : Resource} (hr : r ∈ g.resources) (ht : t ∈ g'.resources)
    (h : t.address = r.address) : f = e := by
  have hp := mem_producers_iff.mpr ⟨a, rfl⟩
  have hlabel : t.label = r.label :=
    Resource.label_eq_of_address_eq (addressable hp haws hs' hf hg' t ht)
      (addressable hp haws hs he hg r hr) h
  have hrl : r.label ∈ a.labels s e := by
    rw [← a.map_label haws hs he hg]
    exact List.mem_map_of_mem hr
  have htl : r.label ∈ a.labels s f := by
    rw [← a.map_label haws hs' hf hg', ← hlabel]
    exact List.mem_map_of_mem ht
  exact Distinct.eq_of_mem_flatMap (a.nodup_labels haccepted) hf he htl hrl

end Family

/-- An address that an unregistered item finds taken was emitted by another producer. -/
theorem exists_other_of_taken (haws : s.platform = .aws) (haccepted : s.Accepted)
    (h : History Platform.aws.producers s grants done ctx) {item : WorkItem}
    (hitem : item ∈ Schedule.items Platform.aws.producers s)
    (hnew : ctx.has item.producer.name item.entity.id = false) {g : Generated}
    (hg : item.producer.generate ctx item.entity = .ok g) {before after : List Resource}
    {r : Resource} (hsplit : g.resources = before ++ r :: after)
    (htaken : r.address ∈ ctx.addresses ∨ r.address ∈ before.map Resource.address) :
    ∃ c ∈ done, c.item.producer.name ≠ item.producer.name ∧
      r.address ∈ c.generated.resources.map Resource.address := by
  rcases item with ⟨p, e⟩
  rcases Schedule.mem_items_iff.mp hitem with ⟨hp, he⟩
  rcases Family.mem_producers_iff.mp hp with ⟨a, rfl⟩
  rcases htaken with htaken | hbefore
  · rw [h.addresses_eq, List.mem_reverse, h.resources_eq] at htaken
    rcases List.mem_map.mp htaken with ⟨t, ht, hta⟩
    rcases List.mem_flatMap.mp ht with ⟨c, hc, htc⟩
    refine ⟨c, hc, ?_, List.mem_map.mpr ⟨t, htc, hta⟩⟩
    intro hname
    rcases h.origin_of_mem hc with ⟨hcp, state, horigin⟩
    have hsame : c.item.producer = a.producer := Producer.eq_of_name_eq
      (Platform.aws.producers_subset_all hcp) (Platform.aws.producers_subset_all hp) hname
    rw [hsame] at horigin
    -- the item would be the completed one, but it has not been registered
    have hentity : c.item.entity = e :=
      a.entity_eq_of_address_eq haws haccepted h.schema_eq horigin.schema_eq he
        horigin.entity_mem hg horigin.generates (by simp [hsplit]) htc hta
    have hhas := h.has_of_mem hc
    rw [hname, hentity, hnew] at hhas
    cases hhas
  · have haddresses := a.nodup_generated haws haccepted h.schema_eq he hg
    rw [hsplit, List.map_append, List.map_cons] at haddresses
    exact absurd rfl ((List.nodup_append.mp haddresses).2.2 _ hbefore _ List.mem_cons_self)

end Aws

namespace Schema

variable {s : Schema} {library : List Declaration}

/-- An address for which a pass fails is emitted by items of two producers. -/
theorem emits_of_duplicate (haws : s.platform = .aws) (hvalid : s.violations = [])
    (hlibrary : ∀ d ∈ library, d.resource.platform = .aws) {address producer : String}
    {entity : EntityId}
    (hgen : s.generate library = .error (.duplicateResource address producer entity)) :
    ∃ i ∈ Schedule.items s.platform.producers s, ∃ j ∈ Schedule.items s.platform.producers s,
      i.producer.name ≠ producer ∧ j.producer.name = producer ∧ j.entity.id = entity ∧
        i.Emits s address ∧ j.Emits s address := by
  rcases aws_generate_error haws hvalid hlibrary hgen with
      ⟨grants, done, ctx, item, g, before, r, after, hist, hitem, hnew, hg, hsplit, he, htaken⟩
  cases he
  have haccepted := accepted_of_violations_eq_nil hvalid
  rcases Aws.exists_other_of_taken haws haccepted hist hitem hnew hg hsplit htaken with
      ⟨c, hc, hother, haddress⟩
  rcases hist.origin_of_mem hc with ⟨_, state, horigin⟩
  rw [haws]
  refine ⟨c.item, hist.mem_items c hc, item, hitem, hother, rfl, rfl, ?_, ?_⟩
  · exact ⟨state, c.generated, horigin.schema_eq, horigin.generates, haddress⟩
  · exact ⟨ctx, g, hist.schema_eq, hg, List.mem_map.mpr ⟨r, by simp [hsplit], rfl⟩⟩

/-- A pass that succeeds had names apart. -/
theorem namesApart_of_generate_ok (haws : s.platform = .aws) {pass : Pass}
    (hgen : s.generate library = .ok pass) : s.NamesApart := by
  rcases generate_ok hgen with ⟨grants, done, ctx, _, hist, hperm, _⟩
  rw [haws] at hist hperm
  refine Aws.namesApart_of_completed haws hist fun i hi => ?_
  exact List.mem_map.mp (hperm.mem_iff.mp hi)

/-- A pass for an accepted schema fails iff some address is emitted by items of two producers, and
this is so iff some route is named like a static route, a preflight handler or a timer. -/
theorem aws_namesApart_iff (haws : s.platform = .aws) (hvalid : s.violations = []) :
    (s.NamesApart ↔ s.EmitsApart) ∧
      ∀ library : List Declaration, (∀ d ∈ library, d.resource.platform = .aws) →
        (s.NamesApart ↔ ∃ pass, s.generate library = .ok pass) ∧
        ∀ address producer entity,
          s.generate library = .error (.duplicateResource address producer entity) →
            ∃ i ∈ Schedule.items s.platform.producers s,
              ∃ j ∈ Schedule.items s.platform.producers s,
                i.producer.name ≠ producer ∧ j.producer.name = producer ∧
                  j.entity.id = entity ∧ i.Emits s address ∧ j.Emits s address := by
  -- a pass that does not succeed shows two items that are not apart
  have hfails : ∀ library : List Declaration, (∀ d ∈ library, d.resource.platform = .aws) →
      (∀ pass, s.generate library ≠ .ok pass) → ¬s.EmitsApart := by
    intro library hlibrary hno hapart
    cases hgen : s.generate library with
    | ok pass => exact hno pass hgen
    | error e =>
        rcases aws_generate_error haws hvalid hlibrary hgen with
            ⟨_, _, _, _, _, _, _, _, _, _, _, _, _, he, _⟩
        rw [he] at hgen
        rcases emits_of_duplicate haws hvalid hlibrary hgen with
            ⟨i, hi, j, hj, hne, hname, _, hei, hej⟩
        exact hapart i hi j hj (by rw [hname]; exact hne) _ hei hej
  refine ⟨⟨Aws.emitsApart_of_namesApart haws, fun hapart => ?_⟩, fun library hlibrary =>
    ⟨⟨fun hapart => ?_, fun ⟨pass, hgen⟩ => namesApart_of_generate_ok haws hgen⟩, ?_⟩⟩
  · by_contra hnames
    exact hfails [] (by simp)
      (fun pass hgen => hnames (namesApart_of_generate_ok haws hgen)) hapart
  · by_contra hno
    exact hfails library hlibrary (fun pass hgen => hno ⟨pass, hgen⟩)
      (Aws.emitsApart_of_namesApart haws hapart)
  · intro address producer entity hgen
    exact emits_of_duplicate haws hvalid hlibrary hgen

/-- The small application has names apart. -/
theorem namesApart_shop :
    shop.platform = .aws ∧ shop.violations = [] ∧ shop.NamesApart ∧ shop.EmitsApart := by
  have hok := isOk_generate_shop
  rcases aws_namesApart_iff (s := shop) rfl violations_shop with ⟨hemits, hpasses⟩
  have hapart : shop.NamesApart := by
    refine (hpasses [] (by simp)).1.mpr ?_
    cases hgen : shop.generate [] with
    | ok pass => exact ⟨pass, rfl⟩
    | error e => rw [hgen] at hok; cases hok
  exact ⟨rfl, violations_shop, hapart, hemits.mp hapart⟩

/-- A route below `/static` is named like the static route for what follows. -/
def clashing : Schema :=
  { shop with
    api := some ⟨"shop-api", false, .unnamed, none⟩
    routes :=
      { dynamic := [⟨.parse "/static/foo", .get, "users"⟩]
        static := [⟨.parse "/foo/get", "a.css", "text/css"⟩] }
    timers := [] }

/-- That no violation is reported does not keep producers apart: there is an accepted schema for
which the pass fails, since two of them emit one address. -/
theorem not_emitsApart_clashing :
    clashing.platform = .aws ∧ clashing.violations = [] ∧
      clashing.generate [] = .error (.duplicateResource
        "aws_api_gateway_method.shop_api_static_foo_get" "static_route" ⟨"static:/foo/get"⟩) ∧
      ¬clashing.EmitsApart := by
  have hvalid : clashing.violations = [] := by decide +kernel
  have hfailure : (match clashing.generate [] with
      | .ok _ => none
      | .error e => some e) = some (GenerationError.duplicateResource
        "aws_api_gateway_method.shop_api_static_foo_get" "static_route" ⟨"static:/foo/get"⟩) := by
    decide +kernel
  have hgen : clashing.generate [] = .error (.duplicateResource
      "aws_api_gateway_method.shop_api_static_foo_get" "static_route" ⟨"static:/foo/get"⟩) := by
    cases hgen : clashing.generate [] with
    | ok pass =>
        rw [hgen] at hfailure
        cases hfailure
    | error e =>
        rw [hgen] at hfailure
        rw [Option.some.inj hfailure]
  refine ⟨rfl, hvalid, hgen, fun hapart => ?_⟩
  rcases emits_of_duplicate (s := clashing) rfl hvalid (by simp) hgen with
      ⟨i, hi, j, hj, hne, hname, _, hei, hej⟩
  exact hapart i hi j hj (by rw [hname]; exact hne) _ hei hej

end Schema
end InfraGraph
