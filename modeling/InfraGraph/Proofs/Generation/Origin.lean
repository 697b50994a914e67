import InfraGraph.Generation.Pass
import InfraGraph.Proofs.Generation.History
import Mathlib.Data.List.Nodup

/-!
# Where an output comes from

The producers have different names, so an output that stands under the name of a producer was
generated by that producer, for one of its entities, and the resources generated with it are there.
Main statements:

* `Producer.eq_of_name_eq` — a name stands for one producer;
* `WorkItem.nodup_keys` — work items are told apart by producer and entity id;
* `Origin`, `History.exists_origin` — who left an output, and when;
* `History.has_of_completed` — a completed item has left its output.
-/

namespace InfraGraph

namespace Producer

/-- The producers have different names. -/
theorem nodup_names : (all.map name).Nodup := by decide

/-- A name stands for one producer. -/
theorem eq_of_name_eq {p q : Producer} (hp : p ∈ all) (hq : q ∈ all) (h : p.name = q.name) :
    p = q :=
  List.inj_on_of_nodup_map nodup_names hp hq h

end Producer

namespace Platform

theorem producers_subset_all (platform : Platform) : platform.producers ⊆ Producer.all := by
  cases platform with
  | aws => exact List.subset_append_left _ _
  | azure => simp [producers, Producer.all]

/-- So no two producers of a platform share a name. -/
theorem nodup_producer_names (platform : Platform) :
    (platform.producers.map Producer.name).Nodup := by
  cases platform <;> decide

end Platform

/-- Work items are told apart by producer and entity id, where the entities of each producer are
told apart by id. -/
theorem WorkItem.nodup_keys {platform : Platform} {s : Schema}
    (hids : ∀ p ∈ platform.producers, ((p.entities s).map Entity.id).Nodup) :
    ((Schedule.items platform.producers s).map key).Nodup := by
  have hkeys : (Schedule.items platform.producers s).map key =
      platform.producers.flatMap fun p => (p.entities s).map fun e => (p.name, e.id) := by
    simp [Schedule.items, List.map_flatMap, key, Function.comp_def]
  rw [hkeys, List.nodup_flatMap]
  constructor
  · intro p hp
    exact Distinct.nodup_map_of_key (hids p hp) fun a _ b _ he => (Prod.mk.inj he).2
  · refine (List.pairwise_map.mp platform.nodup_producer_names).imp ?_
    intro p q hne pair hp hq
    rcases List.mem_map.mp hp with ⟨a, _, rfl⟩
    rcases List.mem_map.mp hq with ⟨b, _, he⟩
    exact hne (Prod.mk.inj he).1.symm

/-- In a state before, a producer generated for an entity what now is part of the state. -/
structure Origin (s : Schema) (ctx : Context) (p : Producer) (e : Entity) (g : Generated)
    (before : Context) : Prop where
  entity_mem : e ∈ p.entities s
  schema_eq : before.schema = s
  generates : p.generate before e = .ok g
  /-- What was registered before still is. -/
  kept : ∀ producer entity, before.has producer entity = true → ctx.has producer entity = true
  emitted : ∀ r ∈ g.resources, r ∈ ctx.resources

namespace History

variable {platform : Platform} {s : Schema} {grants : Grants} {done : List Completion}
  {ctx : Context}

/-- What was completed was generated in a state before. -/
theorem origin_of_mem (h : History platform.producers s grants done ctx) {c : Completion}
    (hc : c ∈ done) :
    c.item.producer ∈ platform.producers ∧
      ∃ before, Origin s ctx c.item.producer c.item.entity c.generated before := by
  rcases Schedule.mem_items_iff.mp (h.mem_items c hc) with ⟨hproducer, hentity⟩
  rcases h.exists_before hc with ⟨_, before, hbefore, hsub, hfits⟩
  refine ⟨hproducer, before, hentity, hbefore.schema_eq, hfits.generate, ?_, ?_⟩
  · exact fun producer entity hhas => h.has_of_subset hbefore hsub hhas
  · exact fun r hr => h.mem_resources hc hr

/-- An output under the name of a producer was left by that producer for one of its entities. -/
theorem exists_origin (h : History platform.producers s grants done ctx) {p : Producer}
    (hp : p ∈ platform.producers) {id : EntityId} {output : Output}
    (hl : ctx.lookup? p.name id = some output) :
    ∃ e g before, Origin s ctx p e g before ∧ e.id = id ∧ g.output = output := by
  rcases h.exists_of_lookup hl with ⟨c, hc, hname, hid, houtput⟩
  rcases h.origin_of_mem hc with ⟨hproducer, before, horigin⟩
  -- the name under which the output stands is that of one producer only
  rw [Producer.eq_of_name_eq (platform.producers_subset_all hproducer)
    (platform.producers_subset_all hp) hname] at horigin
  exact ⟨c.item.entity, c.generated, before, horigin, hid, houtput⟩

/-- A completed item has left its output. -/
theorem has_of_completed (h : History platform.producers s grants done ctx) {p : Producer}
    {e : Entity} (hc : ∃ c ∈ done, c.item = ⟨p, e⟩) : ctx.has p.name e.id = true := by
  rcases hc with ⟨c, hc, hitem⟩
  have hhas := h.has_of_mem hc
  rw [hitem] at hhas
  exact hhas

end History
end InfraGraph
