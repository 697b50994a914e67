import InfraGraph.Proofs.Generation.Calls

/-!
# The order of producers decides the order of emission alone

Where readiness only grows and a generator reads nothing that its readiness does not wait for, all
runs of the same work complete the same items with the same results, as far as they get: one that
gets through shows that every other does.  Main statements:

* `Schedule.OrderFree` — what is asked of the producers;
* `Schedule.OrderFree.subset_full` — whatever some run completes, a run that gets through completes
  with the same result;
* `Schedule.OrderFree.isOk_of_perm` — if a run gets through, it does so in every other order;
* `Schema.orderFree`, `Schema.run_perm` — the producers of a platform, in every order.
-/

namespace InfraGraph

/-! ## Histories of the same work -/

/-- Under no key do the states have different outputs. -/
def Context.Consistent (ctx next : Context) : Prop :=
  ∀ producer entity output output', ctx.lookup? producer entity = some output →
    next.lookup? producer entity = some output' → output = output'

namespace Schedule

/-- Items that stay ready once they are, and that generate the same in consistent states in which
they are ready. -/
structure OrderFree (producers : List Producer) (s : Schema) (grants : Grants) : Prop where
  grows : ∀ i ∈ items producers s, ∀ ctx next : Context, next.Extends ctx →
    i.ready ctx = true → i.ready next = true
  determined : ∀ i ∈ items producers s, ∀ done ctx done' ctx',
    History producers s grants done ctx → History producers s grants done' ctx' →
      ctx.Consistent ctx' → i.ready ctx = true → i.ready ctx' = true →
        i.producer.generate ctx' i.entity = i.producer.generate ctx i.entity

namespace OrderFree

variable {producers order : List Producer} {s : Schema} {grants : Grants}
  {full done : List Completion} {final ctx : Context} {left : List WorkItem}

/-! ## A history against one that is complete -/

section Full

variable (hfree : OrderFree producers s grants) (hfull : History producers s grants full final)
  (hall : (items producers s).Perm (full.map Completion.item))

include hfull in
/-- States made of completions of one history are consistent. -/
theorem consistent_of_subset {done' : List Completion} {ctx' : Context}
    (h : History producers s grants done ctx) (h' : History producers s grants done' ctx')
    (hsub : done ⊆ full) (hsub' : done' ⊆ full) : ctx.Consistent ctx' := by
  intro producer entity output output' hl hl'
  obtain ⟨c, hc, hname, hid, rfl⟩ := h.exists_of_lookup hl
  obtain ⟨d, hd, hname', hid', rfl⟩ := h'.exists_of_lookup hl'
  have hkey : c.item.key = d.item.key := by
    simp only [WorkItem.key, hname, hid, hname', hid']
  have hsame : c = d :=
    List.inj_on_of_nodup_map hfull.chain.nodup_keys.1 (hsub hc) (hsub' hd) hkey
  rw [hsame]

include hfree hfull in
/-- What the complete history generated for an item is what it generates in every such state. -/
theorem generate_eq {d : Completion} (hd : d ∈ full) (h : History producers s grants done ctx)
    (hsub : done ⊆ full) (hready : d.item.ready ctx = true) :
    d.item.producer.generate ctx d.item.entity = .ok d.generated := by
  obtain ⟨earlier, before, hbefore, hearlier, hfits⟩ := hfull.exists_before hd
  have hconsistent : before.Consistent ctx :=
    consistent_of_subset hfull hbefore h hearlier hsub
  calc
    d.item.producer.generate ctx d.item.entity
        = d.item.producer.generate before d.item.entity :=
          hfree.determined d.item (hfull.mem_items d hd) earlier before done ctx hbefore h
            hconsistent hfits.ready hready
    _ = .ok d.generated := hfits.generate

include hall in
/-- Every item has its completion in the complete history. -/
theorem exists_full {i : WorkItem} (hi : i ∈ items producers s) : ∃ d ∈ full, d.item = i :=
  List.mem_map.mp (hall.mem_iff.mp hi)

include hfree hfull hall in
/-- Whatever some history completes, the complete one completes with the same result. -/
theorem subset_full (h : History producers s grants done ctx) : done ⊆ full := by
  induction h with
  | start => exact List.nil_subset _
  | @step done ctx c hist hitem hfits ih =>
      -- by induction the state holds nothing but results of the complete history, so the item
      -- generates here what it generates there
      obtain ⟨d, hd, hsame⟩ := exists_full hall hitem
      have hgen := generate_eq hfree hfull hd hist ih (by rw [hsame]; exact hfits.ready)
      rw [hsame, hfits.generate] at hgen
      have hgenerated : c.generated = d.generated := Except.ok.inj hgen
      have hcd : c = d := by
        cases c
        cases d
        simp only at hsame hgenerated
        rw [hsame, hgenerated]
      intro b hb
      rcases List.mem_append.mp hb with hold | hnew
      · exact ih hold
      · rw [List.mem_singleton.mp hnew, hcd]
        exact hd

include hfull hall in
/-- The work has distinct keys, for it is that of a history. -/
theorem nodup_keys : ((items producers s).map WorkItem.key).Nodup := by
  have hmap : (full.map Completion.item).map WorkItem.key = full.map fun c => c.item.key :=
    List.map_map
  apply (hall.map WorkItem.key).nodup_iff.mpr
  rw [hmap]
  exact hfull.chain.nodup_keys.1

include hfree hfull hall in
/-- No item fails on the way. -/
theorem no_error (h : History producers s grants done ctx)
    (hperm : (items producers s).Perm (done.map Completion.item ++ left)) {item : WorkItem}
    (hitem : item ∈ left) (hready : item.ready ctx = true) {next : Context} {e : GenerationError} :
    item.complete ctx ≠ (next, .error e) := by
  have hsub := subset_full hfree hfull hall h
  have hkeys := nodup_keys hfull hall
  obtain ⟨d, hd, rfl⟩ := exists_full hall (hperm.mem_iff.mpr (List.mem_append_right _ hitem))
  obtain ⟨_, _, _, _, hfits⟩ := hfull.exists_before hd
  -- what the complete history generated for the item is what it generates here, and there is room
  apply WorkItem.complete_ne_error (generate_eq hfree hfull hd h hsub hready)
  · exact h.not_has_of_left hkeys hperm hitem
  · exact hfits.distinct
  · intro r hr htaken
    rcases h.chain.mem_addresses_iff.mp htaken with hstart | ⟨c, hc, haddress⟩
    · cases hstart
    · have hsame : c = d :=
        hfull.eq_of_common_address (hsub hc) hd haddress (List.mem_map_of_mem hr)
      exact key_ne_of_left hperm hkeys hitem c hc (by rw [hsame])

/-- Where no item that is left is ready, the items of a chain are not left, one after the other. -/
theorem not_left_of_chain (hfree : OrderFree producers s grants)
    (h : History producers s grants done ctx)
    (hperm : (items producers s).Perm (done.map Completion.item ++ left))
    (hstuck : ∀ i ∈ left, i.ready ctx = false) {base next : Context} {rest : List Completion}
    (hrest : Chain base rest next) (hitems : ∀ d ∈ rest, d.item ∈ items producers s)
    (hext : ctx.Extends base) : ∀ d ∈ rest, ¬d.item ∈ left := by
  induction hrest with
  | nil => simp
  | @cons base next d rest hfits _ ih =>
      obtain ⟨hd, hmore⟩ := List.forall_mem_cons.mp hitems
      have hready : d.item.ready ctx = true := hfree.grows d.item hd base ctx hext hfits.ready
      have hnot : ¬d.item ∈ left := by
        intro hleft
        rw [hstuck d.item hleft] at hready
        cases hready
      obtain ⟨c, hc, hsame⟩ := List.mem_map.mp
        ((List.mem_append.mp (hperm.mem_iff.mp hd)).resolve_right hnot)
      -- the item has been completed here too, so what the chain registers is registered
      have hnext : ctx.Extends (d.commit base) := by
        refine ⟨hext.schema_eq, hext.grants_eq, ?_⟩
        intro producer entity hhas
        rcases Completion.has_commit.mp hhas with hold | hkey
        · exact hext.kept producer entity hold
        · rw [← hsame] at hkey
          exact h.chain.has_iff.mpr (Or.inr ⟨c, hc, hkey⟩)
      exact List.forall_mem_cons.mpr ⟨hnot, ih hmore hnext⟩

include hfree hfull hall in
/-- No history gets stuck on the way. -/
theorem not_stuck (h : History producers s grants done ctx)
    (hperm : (items producers s).Perm (done.map Completion.item ++ left))
    (hstuck : ∀ i ∈ left, i.ready ctx = false) : left = [] := by
  by_contra hne
  obtain ⟨i, hi⟩ := List.exists_mem_of_ne_nil left hne
  obtain ⟨d, hd, rfl⟩ := exists_full hall (hperm.mem_iff.mpr (List.mem_append_right _ hi))
  exact not_left_of_chain hfree h hperm hstuck hfull.chain hfull.mem_items h.chain.extended d hd hi

end Full

/-! ## Runs in another order -/

/-- A run in another order has a history of the same items. -/
theorem history_of_run {next : Context} (hperm : (items order s).Perm (items producers s))
    {report : SweepReport} (hrun : run order (.initial s grants) = (next, .ok report)) :
    report.completed = (items producers s).length ∧
      ∃ done, History producers s grants done next ∧
        (items producers s).Perm (done.map Completion.item) := by
  obtain ⟨hcompleted, done, hdone, hitems⟩ := run_ok hrun
  refine ⟨hcompleted.trans hperm.length_eq, done, ?_, hperm.symm.trans hitems⟩
  apply History.of_chain hdone
  intro c hc
  exact hperm.mem_iff.mp (hitems.mem_iff.mpr (List.mem_map_of_mem hc))

/-- If a run gets through, it does so in every other order. -/
theorem isOk_of_perm (hfree : OrderFree producers s grants) {order' : List Producer}
    (hperm : (items order s).Perm (items producers s))
    (hperm' : (items order' s).Perm (items producers s))
    (hok : ∃ report, (run order (.initial s grants)).2 = .ok report) :
    ∃ report, (run order' (.initial s grants)).2 = .ok report := by
  obtain ⟨final, full, hrun⟩ : ∃ final full, run order (.initial s grants) = (final, full) :=
    ⟨_, _, rfl⟩
  obtain ⟨next, result, hrun'⟩ : ∃ next result, run order' (.initial s grants) = (next, result) :=
    ⟨_, _, rfl⟩
  rw [hrun] at hok
  obtain ⟨report, rfl⟩ := hok
  obtain ⟨_, full, hfull, hall⟩ := history_of_run hperm hrun
  rw [hrun']
  cases result with
  | ok report' => exact ⟨report', rfl⟩
  | error e =>
      exfalso
      obtain ⟨done, mid, left, hdone, hsplit, hfail⟩ := run_error hrun'
      have hitems : (items producers s).Perm (done.map Completion.item ++ left) :=
        hperm'.symm.trans hsplit
      have hist : History producers s grants done mid := by
        apply History.of_chain hdone
        intro c hc
        exact hitems.mem_iff.mpr (List.mem_append_left _ (List.mem_map_of_mem hc))
      -- the first run shows that the second neither fails at an item nor gets stuck
      rcases hfail with ⟨item, hitem, hready, hcomplete⟩ | ⟨_, hne, _, hstuck, _⟩
      · exact no_error hfree hfull hall hist hitems hitem hready hcomplete
      · exact hne (not_stuck hfree hfull hall hist hitems hstuck)

/-- Two histories that are complete have the same completions. -/
theorem perm_of_complete (hfree : OrderFree producers s grants)
    (hfull : History producers s grants full final)
    (hall : (items producers s).Perm (full.map Completion.item))
    (h : History producers s grants done ctx)
    (hdone : (items producers s).Perm (done.map Completion.item)) : done.Perm full := by
  apply (List.perm_ext_iff_of_nodup (h.chain.nodup_keys.1.of_map _)
    (hfull.chain.nodup_keys.1.of_map _)).mpr
  intro c
  constructor
  · intro hc
    exact subset_full hfree hfull hall h hc
  · intro hc
    exact subset_full hfree h hdone hfull hc

/-- Histories of the same completions leave the same outputs. -/
theorem lookup_eq_of_perm (hfull : History producers s grants full final)
    (h : History producers s grants done ctx) (hperm : done.Perm full) (producer : String)
    (entity : EntityId) : ctx.lookup? producer entity = final.lookup? producer entity := by
  apply Option.ext
  intro output
  constructor
  · intro hl
    obtain ⟨c, hc, rfl, rfl, rfl⟩ := h.exists_of_lookup hl
    exact hfull.lookup_of_mem (hperm.subset hc)
  · intro hl
    obtain ⟨c, hc, rfl, rfl, rfl⟩ := hfull.exists_of_lookup hl
    exact h.lookup_of_mem (hperm.symm.subset hc)

end OrderFree

end Schedule

/-! ## The producers of a platform -/

namespace Schema

/-- Readiness covers every read, so nothing else can make two runs differ. -/
theorem orderFree (s : Schema) (grants : Grants) :
    Schedule.OrderFree s.platform.producers s grants := by
  have hproducer : ∀ i ∈ Schedule.items s.platform.producers s, i.producer ∈ Producer.all :=
    fun i hi => s.platform.producers_subset_all (Schedule.mem_items_iff.mp hi).1
  have hsupported : ∀ {done ctx}, History s.platform.producers s grants done ctx →
      ctx.Supported s := by
    intro done ctx h
    apply h.chain.supported _ (Context.Supported.initial s grants)
    intro c hc
    exact hproducer _ (h.mem_items c hc)
  constructor
  · intro i hi ctx next hext hready
    exact Producer.grows (hproducer i hi) i.entity ctx next hext hready
  · intro i hi done ctx done' ctx' h h' hconsistent hready hready'
    obtain ⟨keys, hreads, hthere⟩ := Producer.covers (hproducer i hi) s i.entity
    apply hreads.agree ctx ctx' h.schema_eq
    refine ⟨h'.schema_eq.trans h.schema_eq.symm, h'.grants_eq.trans h.grants_eq.symm, ?_⟩
    intro key hkey
    -- what is read is there in both states, and there it is the same
    obtain ⟨output, hl⟩ := Context.has_iff.mp (hthere ctx (hsupported h) hready key hkey)
    obtain ⟨output', hl'⟩ := Context.has_iff.mp (hthere ctx' (hsupported h') hready' key hkey)
    rw [hl, hl', hconsistent key.1 key.2 output output' hl hl']

/-- The order of the producers decides the order of emission alone: a run gets through in one order
iff it does in another, with the same resources, outputs and number of items. -/
theorem run_perm (s : Schema) (grants : Grants) (order : List Producer)
    (horder : order.Perm s.platform.producers) :
    ((∃ report, (Schedule.run order (.initial s grants)).2 = .ok report) ↔
        ∃ report, (Schedule.run s.platform.producers (.initial s grants)).2 = .ok report) ∧
      ∀ ctx ctx' report report', Schedule.run order (.initial s grants) = (ctx, .ok report) →
        Schedule.run s.platform.producers (.initial s grants) = (ctx', .ok report') →
          ctx.resources.Perm ctx'.resources ∧
            (∀ producer entity, ctx.has producer entity = ctx'.has producer entity) ∧
            (∀ producer entity, (ctx.lookup? producer entity).map Output.toJson =
              (ctx'.lookup? producer entity).map Output.toJson) ∧
            report.completed = report'.completed := by
  have hfree := orderFree s grants
  have hperm : (Schedule.items order s).Perm (Schedule.items s.platform.producers s) :=
    horder.flatMap_right _
  constructor
  · exact ⟨hfree.isOk_of_perm hperm (List.Perm.refl _), hfree.isOk_of_perm (List.Perm.refl _) hperm⟩
  · intro ctx ctx' report report' hrun hrun'
    obtain ⟨hcompleted, done, hdone, hitems⟩ := Schedule.OrderFree.history_of_run hperm hrun
    obtain ⟨hcompleted', full, hfull, hall⟩ :=
      Schedule.OrderFree.history_of_run (List.Perm.refl _) hrun'
    have hsame : done.Perm full := hfree.perm_of_complete hfull hall hdone hitems
    have hlookup := Schedule.OrderFree.lookup_eq_of_perm hfull hdone hsame
    refine ⟨?_, ?_, ?_, hcompleted.trans hcompleted'.symm⟩
    · rw [hdone.resources_eq, hfull.resources_eq]
      exact hsame.flatMap_right _
    · intro producer entity
      simp only [Context.has, hlookup]
    · intro producer entity
      rw [hlookup]

/-- In reverse order the small application takes more sweeps and emits its functions first. -/
theorem run_perm_shop :
    Platform.aws.producers.reverse.Perm shop.platform.producers ∧
      (Schedule.run Platform.aws.producers.reverse (.initial shop ⟨.empty⟩)).2 = .ok ⟨4, 10⟩ ∧
      (Schedule.run shop.platform.producers (.initial shop ⟨.empty⟩)).2 = .ok ⟨2, 10⟩ ∧
      (Schedule.run Platform.aws.producers.reverse (.initial shop ⟨.empty⟩)).1.resources.Perm
        (Schedule.run shop.platform.producers (.initial shop ⟨.empty⟩)).1.resources := by
  have horder : Platform.aws.producers.reverse.Perm shop.platform.producers :=
    List.reverse_perm _
  have hreverse : (Schedule.run Platform.aws.producers.reverse (.initial shop ⟨.empty⟩)).2 =
      .ok ⟨4, 10⟩ := by decide +kernel
  have hplain : (Schedule.run shop.platform.producers (.initial shop ⟨.empty⟩)).2 =
      .ok ⟨2, 10⟩ := by decide +kernel
  refine ⟨horder, hreverse, hplain, ?_⟩
  exact ((run_perm shop ⟨.empty⟩ _ horder).2 _ _ _ _ (Prod.ext rfl hreverse)
    (Prod.ext rfl hplain)).1

end Schema
end InfraGraph
