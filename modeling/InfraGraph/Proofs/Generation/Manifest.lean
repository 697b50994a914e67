import InfraGraph.Proofs.Aws.Completion
import InfraGraph.Proofs.Generation.Footprint
import InfraGraph.Proofs.Generation.Retention

/-!
# The manifest of a pass

Outputs are kept under a producer, which is told by its name, and an entity; the manifest has them
under texts, the name and the id of the entity with a slash between them.  Ids have slashes of their
own, so one text could stand for two outputs, and the map would lose one of them.  Names have no
slash, so none is lost.  Main statements:

* `Manifest.key_injective` — a key tells the producer and the entity;
* `Manifest.Shows` — a manifest has every output of a state, in order, and finds no others;
* `Context.PlainNames`, `Operation.apply_plainNames` — names with a slash do not get in;
* `Context.manifest_shows` — the manifest of a tidy state shows it;
* `Schema.size_manifest` — the manifest of a pass has one entry for each completed item;
* `Context.manifest_faithful` — what holds after any operations, and of every pass.
-/

namespace InfraGraph

namespace Manifest

variable {producer other : String} {entity entity' : EntityId}

/-- The first slash of a key ends the name of the producer. -/
theorem key_injective (hproducer : '/' ∉ producer.toList) (hother : '/' ∉ other.toList)
    (h : key producer entity = key other entity') : producer = other ∧ entity = entity' := by
  obtain ⟨id⟩ := entity
  obtain ⟨id'⟩ := entity'
  have hsplit : producer.toList ++ '/' :: id.toList = other.toList ++ '/' :: id'.toList := by
    simpa [key, String.toList_append] using congrArg String.toList h
  obtain ⟨rfl, hid⟩ := Marker.text_eq_of_append_cons hproducer hother hsplit
  rw [String.toList_injective hid]
  exact ⟨rfl, rfl⟩

-- with a slash in a name, two outputs would have one key
example : key "clerk" ⟨"page/1"⟩ = key "clerk/page" ⟨"1"⟩ := by decide

/-- A manifest has one entry for each output of a state, in order of registration, and what it finds
under the name of a producer is what the state has for that producer. -/
structure Shows (m : Manifest) (ctx : Context) : Prop where
  entries_eq : m.outputs.entries = ctx.outputs.map Registration.entry
  get?_eq : ∀ producer entity, '/' ∉ producer.toList →
    m.get? producer entity = (ctx.lookup? producer entity).map Output.toJson

end Manifest

namespace Context

/-- No output stands under a name with a slash. -/
def PlainNames (ctx : Context) : Prop := ∀ r ∈ ctx.outputs, '/' ∉ r.producer.toList

variable {ctx : Context}

/-- Where names are plain and no key is taken twice, no two outputs share a text. -/
theorem manifest_shows (htidy : ctx.Tidy) (hplain : ctx.PlainNames) :
    ctx.manifest.Shows ctx := by
  have hkeys : ((ctx.outputs.map Registration.entry).map Prod.fst).Nodup := by
    rw [List.map_map]
    refine Distinct.nodup_map_of_key htidy.nodup_keys ?_
    intro r hr t ht hkey
    obtain ⟨hproducer, hentity⟩ := Manifest.key_injective (hplain r hr) (hplain t ht) hkey
    exact Prod.ext hproducer hentity
  have hentries : ctx.manifest.outputs.entries = ctx.outputs.map Registration.entry :=
    OrderedMap.entries_ofList hkeys
  refine ⟨hentries, ?_⟩
  intro producer entity hname
  cases hl : ctx.lookup? producer entity with
  | some output =>
      refine OrderedMap.get?_eq_some_iff.mpr ?_
      rw [hentries]
      exact List.mem_map_of_mem (f := Registration.entry) (mem_outputs_of_lookup hl)
  | none =>
      refine Entries.get?_eq_none_iff.mpr ?_
      rw [hentries, List.map_map]
      intro hmem
      -- an output under the text is one of the producer for the entity
      obtain ⟨r, hr, hkey⟩ := List.mem_map.mp hmem
      obtain ⟨hproducer, hentity⟩ := Manifest.key_injective (hplain r hr) hname hkey
      have hhas : ctx.has producer entity = true := has_iff_mem.mpr ⟨r, hr, hproducer, hentity⟩
      rw [has, hl] at hhas
      cases hhas

end Context

/-! ## Operations with plain names -/

/-- Names of the producers that an operation can register outputs for. -/
def Operation.names : Operation → List String
  | register producer _ _ => [producer]
  | append _ _ _ => []
  | run producers => producers.map Producer.name

variable {ctx next : Context}

/-- A run of producers with plain names registers plain names. -/
theorem Schedule.run_plainNames {producers : List Producer}
    {result : Except GenerationError SweepReport}
    (hnames : ∀ p ∈ producers, '/' ∉ p.name.toList) (hctx : ctx.PlainNames)
    (hrun : run producers ctx = (next, result)) : next.PlainNames := by
  refine run_preserves ?_ hctx hrun
  intro item hitem state reached outcome hstate hcomplete
  exact WorkItem.forall_outputs_of_complete hcomplete hstate
    fun _ _ => hnames _ (mem_items_iff.mp hitem).1

theorem Operation.apply_plainNames {op : Operation} (hnames : ∀ name ∈ op.names, '/' ∉ name.toList)
    (hctx : ctx.PlainNames) : (op.apply ctx).1.PlainNames := by
  obtain ⟨next, result, happly⟩ : ∃ next result, op.apply ctx = (next, result) := ⟨_, _, rfl⟩
  rw [happly]
  cases op with
  | register producer entity output =>
      rcases apply_register_cases happly with ⟨o, _, _, _, rfl⟩ | ⟨_, rfl, _⟩
      · exact List.forall_mem_append.mpr
          ⟨hctx, List.forall_mem_singleton.mpr (hnames producer List.mem_cons_self)⟩
      · exact hctx
  | append producer entity resources =>
      cases result with
      | ok u =>
          obtain ⟨_, _, rfl⟩ := Context.append_eq_ok_iff.mp happly
          exact hctx
      | error e =>
          obtain ⟨before, _, _, rfl, _⟩ := Context.append_refused happly
          exact hctx
  | run producers =>
      obtain ⟨rfl, _⟩ := Prod.mk.inj happly
      exact Schedule.run_plainNames (fun p hp => hnames _ (List.mem_map_of_mem hp)) hctx rfl

/-! ## The producers there are -/

/-- The names of the producers are plain. -/
theorem Producer.slash_not_mem_name : ∀ p ∈ all, '/' ∉ p.name.toList := by
  have hnames : ∀ name ∈ all.map Producer.name, '/' ∉ name.toList := by decide
  intro p hp
  exact hnames p.name (List.mem_map_of_mem hp)

namespace Schema

variable {s : Schema} {library : List Declaration} {pass : Pass}

/-- The manifest of a pass shows the state that the pass ends in. -/
theorem manifest_shows_of_generate (h : s.generate library = .ok pass) :
    ∃ grants ctx, s.grants library = .ok grants ∧
      Schedule.run s.platform.producers (.initial s grants) = (ctx, .ok pass.report) ∧
      pass.manifest.Shows ctx := by
  obtain ⟨grants, ctx, hgrants, hrun, _, hmanifest⟩ := generate_run h
  refine ⟨grants, ctx, hgrants, hrun, ?_⟩
  rw [hmanifest]
  refine Context.manifest_shows ?_ ?_
  · exact (Schedule.run_keeps hrun).tidy (.initial s grants)
  · refine Schedule.run_plainNames ?_ ?_ hrun
    · exact fun p hp => Producer.slash_not_mem_name p (s.platform.producers_subset_all hp)
    · intro r hr
      cases hr

/-- The manifest of a pass has one entry for each completed item. -/
theorem size_manifest (h : s.generate library = .ok pass) :
    pass.manifest.outputs.size = pass.report.completed := by
  obtain ⟨grants, ctx, _, hrun, hshows⟩ := manifest_shows_of_generate h
  calc
    pass.manifest.outputs.size = ctx.outputs.length := by
      rw [OrderedMap.size, hshows.entries_eq, List.length_map]
    _ = 0 + pass.report.completed := Schedule.length_outputs_run hrun
    _ = pass.report.completed := Nat.zero_add _

end Schema

namespace Context

/-- After any operations of producers whose names have no slash, refused ones included and whatever
the ids of the entities are, the manifest has one entry for each output, in order of registration,
and finds each under its producer and entity and nothing else.  The producers have such names, all
different, so the manifest of every pass has as many entries as items were completed. -/
theorem manifest_faithful :
    (∀ (s : Schema) (grants : Grants) (ops : List Operation),
      (∀ op ∈ ops, ∀ name ∈ op.names, '/' ∉ name.toList) →
        (after ops (.initial s grants)).manifest.Shows (after ops (.initial s grants))) ∧
      ((Producer.all.map Producer.name).Nodup ∧ ∀ p ∈ Producer.all, '/' ∉ p.name.toList) ∧
      ∀ (s : Schema) (library : List Declaration) (pass : Pass), s.generate library = .ok pass →
        pass.manifest.outputs.size = pass.report.completed := by
  refine ⟨?_, ⟨Producer.nodup_names, Producer.slash_not_mem_name⟩, ?_⟩
  · intro s grants ops hops
    refine manifest_shows ((keeps_after ops _).tidy (.initial s grants)) ?_
    refine after_preserves ?_ ?_
    · exact fun op hop state hstate => Operation.apply_plainNames (hops op hop) hstate
    · intro r hr
      cases hr
  · intro s library pass h
    exact Schema.size_manifest h

/-- Outputs for ids that have slashes: two are refused, and the run ends with an error after its
first item. -/
def shelves : List Operation :=
  [.register "clerk" ⟨"page/1"⟩ (.ok (.value (.str "first"))),
    .register "clerk" ⟨"page/1"⟩ (.ok (.value (.str "second"))),
    .register "scribe" ⟨"page/1"⟩ (.ok (.value (.str "copy"))),
    .register "scribe" ⟨"/1"⟩ (.error "unreadable"),
    .register "clerk" ⟨"/page/1"⟩ (.ok (.value (.str "third"))),
    .run [Aws.RestApi.producer, Aws.RestApi.producer]]

theorem manifest_faithful_shelves :
    (∀ op ∈ shelves, ∀ name ∈ op.names, '/' ∉ name.toList) ∧
      (after shelves (.initial Schema.shop ⟨.empty⟩)).manifest.outputs.keys =
        ["clerk/page/1", "scribe/page/1", "clerk//page/1", "rest_api/api:shop-api"] ∧
      (after shelves (.initial Schema.shop ⟨.empty⟩)).manifest.get? "clerk" ⟨"page/1"⟩ =
        some (.str "first") ∧
      (after shelves (.initial Schema.shop ⟨.empty⟩)).manifest.get? "scribe" ⟨"/1"⟩ = none ∧
      ∃ pass, Schema.shop.generate [] = .ok pass ∧
        pass.manifest.outputs.size = pass.report.completed := by
  obtain ⟨hany, _, hpasses⟩ := manifest_faithful
  have hplain : ∀ op ∈ shelves, ∀ name ∈ op.names, '/' ∉ name.toList := by decide
  obtain ⟨hentries, hget⟩ := hany Schema.shop ⟨.empty⟩ shelves hplain
  obtain ⟨pass, hpass⟩ := exists_of_isOk Schema.isOk_generate_shop
  refine ⟨hplain, ?_, ?_, ?_, pass, hpass, hpasses _ _ pass hpass⟩
  · rw [OrderedMap.keys, hentries]
    decide +kernel
  · have hlater := keeps_after (shelves.drop 1)
      (after (shelves.take 1) (.initial Schema.shop ⟨.empty⟩))
    rw [← after_append, List.take_append_drop] at hlater
    rw [hget "clerk" _ (by decide), (hlater.lookup? rfl).1]
    rfl
  · rw [hget "scribe" _ (by decide)]
    decide +kernel

end Context
end InfraGraph
