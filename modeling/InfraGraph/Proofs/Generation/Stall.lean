import Mathlib.Order.Bounds.Defs
import InfraGraph.Proofs.Distinct
import InfraGraph.Proofs.Generation.Trace
import InfraGraph.Proofs.Schema.Acceptance

/-!
# What a run can complete

Readiness that only grows as outputs are registered makes the completed items independent of the
order in which they are offered: they are the least set of items closed under becoming ready.  A run
that has work left after that is stuck, with just the other items.  Main statements:

* `Schedule.completable`, `Schedule.isLeast_completable` — the least set closed under readiness;
* `Schedule.Unhindered` — nothing but readiness can keep an item from being completed;
* `Schedule.mem_completable_of_chain`, `Schedule.completable_subset_of_stuck` — what a run completes
  is completable, and a run that is stuck has completed all that is;
* `Schedule.completes_exactly` — the outcome of a run, for every order of the producers.
-/

namespace InfraGraph

namespace Schedule

/-! ## The least set closed under readiness -/

section Completable

variable (work : List WorkItem) (base : Context)

/-- The item is ready once the keys of the items are registered, next to those of the start. -/
def ReadyGiven (items : Set WorkItem) (item : WorkItem) : Prop :=
  ∀ ctx : Context, ctx.Extends base →
    (∀ j ∈ items, ctx.has j.producer.name j.entity.id = true) → item.ready ctx = true

/-- Items that include all the work that they make ready. -/
def ClosedUnderReadiness (items : Set WorkItem) : Prop :=
  ∀ i ∈ work, ReadyGiven base items i → i ∈ items

/-- Work that becomes ready at some time. -/
def completable : Set WorkItem :=
  {i | ∀ items, ClosedUnderReadiness work base items → i ∈ items}

variable {work base}

/-- What becomes ready is the least set of work that is closed under readiness. -/
theorem isLeast_completable :
    IsLeast {items | ClosedUnderReadiness work base items} (completable work base) := by
  constructor
  · intro i hi hready items hclosed
    refine hclosed i hi ?_
    intro ctx hext hkeys
    exact hready ctx hext fun j hj => hkeys j (hj items hclosed)
  · intro items hclosed i hi
    exact hi items hclosed

/-- What becomes ready does not depend on the order of the work. -/
theorem completable_perm {order : List WorkItem} (h : order.Perm work) :
    completable order base = completable work base := by
  unfold completable ClosedUnderReadiness
  simp only [h.mem_iff]

end Completable

/-! ## Work that nothing but readiness keeps back -/

/-- States that completions of work lead to. -/
def Reached (work : List WorkItem) (base ctx : Context) : Prop :=
  ∃ done, Chain base done ctx ∧ ∀ c ∈ done, c.item ∈ work

/-- What an item generates in some state that is reached. -/
def Yields (work : List WorkItem) (base : Context) (item : WorkItem) (g : Generated) : Prop :=
  ∃ ctx, Reached work base ctx ∧ item.ready ctx = true ∧
    item.producer.generate ctx item.entity = .ok g

/-- Only readiness can keep an item from being completed, and it is never lost: whatever is ready
generates, under a key of its own, and takes addresses of its own. -/
structure Unhindered (work : List WorkItem) (base : Context) : Prop where
  monotone : ∀ i ∈ work, ∀ ctx next : Context, ctx.Extends base → next.Extends ctx →
    i.ready ctx = true → i.ready next = true
  generates : ∀ i ∈ work, ∀ ctx, Reached work base ctx → i.ready ctx = true →
    ∃ g, i.producer.generate ctx i.entity = .ok g
  keys_distinct : (work.map WorkItem.key).Nodup
  keys_new : ∀ i ∈ work, base.has i.producer.name i.entity.id = false
  addresses_distinct : ∀ i ∈ work, ∀ g, Yields work base i g →
    (g.resources.map Resource.address).Nodup
  addresses_new : ∀ i ∈ work, ∀ g, Yields work base i g →
    ∀ r ∈ g.resources, ¬r.address ∈ base.addresses
  addresses_apart : ∀ i ∈ work, ∀ j ∈ work, i ≠ j → ∀ g g', Yields work base i g →
    Yields work base j g' → ∀ r ∈ g.resources, ∀ r' ∈ g'.resources, r.address ≠ r'.address

section Runs

variable {work left : List WorkItem} {base ctx next : Context} {done : List Completion}

theorem Reached.perm {order : List WorkItem} (h : order.Perm work) :
    Reached order base ctx ↔ Reached work base ctx := by
  unfold Reached
  simp only [h.mem_iff]

theorem Unhindered.perm {order : List WorkItem} (hwork : Unhindered work base)
    (h : order.Perm work) : Unhindered order base := by
  have hyields : ∀ i g, Yields order base i g ↔ Yields work base i g := by
    intro i g
    unfold Yields
    simp only [Reached.perm h]
  have hmem : ∀ i, i ∈ order → i ∈ work := fun i hi => h.mem_iff.mp hi
  constructor
  · intro i hi
    exact hwork.monotone i (hmem i hi)
  · intro i hi ctx hctx
    exact hwork.generates i (hmem i hi) ctx ((Reached.perm h).mp hctx)
  · exact (h.map WorkItem.key).nodup_iff.mpr hwork.keys_distinct
  · intro i hi
    exact hwork.keys_new i (hmem i hi)
  · intro i hi g hg
    exact hwork.addresses_distinct i (hmem i hi) g ((hyields i g).mp hg)
  · intro i hi g hg
    exact hwork.addresses_new i (hmem i hi) g ((hyields i g).mp hg)
  · intro i hi j hj hne g g' hg hg'
    exact hwork.addresses_apart i (hmem i hi) j (hmem j hj) hne g g' ((hyields i g).mp hg)
      ((hyields j g').mp hg')

/-- What a chain completes was yielded by its item. -/
theorem yields_of_chain (h : Chain base done ctx) (hitems : ∀ c ∈ done, c.item ∈ work) :
    ∀ c ∈ done, Yields work base c.item c.generated := by
  intro c hc
  obtain ⟨before, later, rfl⟩ := List.append_of_mem hc
  -- it was generated in the state that the completions before it have led to
  obtain ⟨mid, hbefore, hfits, _⟩ := h.split
  have hmid : Reached work base mid :=
    ⟨before, hbefore, fun d hd => hitems d (List.mem_append_left _ hd)⟩
  exact ⟨mid, hmid, hfits.ready, hfits.generate⟩

/-! ## What a run completes -/

/-- Whatever a chain registers is in every closed set, if that holds of what was registered
before. -/
theorem mem_closed_of_chain {items : Set WorkItem} (hwork : Unhindered work base)
    (hclosed : ClosedUnderReadiness work base items) (h : Chain ctx done next)
    (hitems : ∀ c ∈ done, c.item ∈ work) (hext : ctx.Extends base)
    (hctx : ∀ producer entity, ctx.has producer entity = true →
      base.has producer entity = true ∨ ∃ j ∈ items, j.key = (producer, entity)) :
    ∀ c ∈ done, c.item ∈ items := by
  -- the first item of a chain is ready by what is registered, so its own key may be added to that
  induction h with
  | nil => simp
  | @cons ctx next c rest hfits _ ih =>
      obtain ⟨hc, hrest⟩ := List.forall_mem_cons.mp hitems
      have hready : ReadyGiven base items c.item := by
        intro state hstate hkeys
        have hmore : state.Extends ctx := by
          refine ⟨hstate.schema_eq.trans hext.schema_eq.symm,
            hstate.grants_eq.trans hext.grants_eq.symm, ?_⟩
          intro producer entity hhas
          rcases hctx producer entity hhas with hbase | ⟨j, hj, hkey⟩
          · exact hstate.kept producer entity hbase
          · cases hkey
            exact hkeys j hj
        exact hwork.monotone c.item hc ctx state hext hmore hfits.ready
      have hmem : c.item ∈ items := hclosed c.item hc hready
      have hstep : Chain ctx [c] (c.commit ctx) := .cons hfits .nil
      refine List.forall_mem_cons.mpr ⟨hmem, ih hrest (hstep.extended.trans hext) ?_⟩
      · intro producer entity hhas
        rcases Completion.has_commit.mp hhas with hold | hkey
        · exact hctx producer entity hold
        · exact Or.inr ⟨c.item, hmem, hkey⟩

/-- Whatever a chain completes becomes ready at some time. -/
theorem mem_completable_of_chain (hwork : Unhindered work base) (h : Chain base done ctx)
    (hitems : ∀ c ∈ done, c.item ∈ work) : ∀ c ∈ done, c.item ∈ completable work base := by
  have hself : base.Extends base := ⟨rfl, rfl, fun _ _ hhas => hhas⟩
  apply mem_closed_of_chain hwork isLeast_completable.1 h hitems hself
  intro producer entity hhas
  exact Or.inl hhas

/-- Where nothing that is left is ready, all that is completable has been completed. -/
theorem completable_subset_of_stuck (h : Chain base done ctx)
    (hperm : work.Perm (done.map Completion.item ++ left))
    (hstuck : ∀ i ∈ left, i.ready ctx = false) :
    completable work base ⊆ {i | i ∈ done.map Completion.item} := by
  -- it suffices that the completed items are closed: what they make ready is ready here
  apply isLeast_completable.2
  intro i hi hready
  have hnow : i.ready ctx = true := by
    apply hready ctx h.extended
    intro j hj
    obtain ⟨c, hc, rfl⟩ := List.mem_map.mp hj
    exact h.has_iff.mpr (Or.inr ⟨c, hc, rfl⟩)
  exact List.mem_map.mpr (completed_of_ready hperm hstuck i hi hnow)

/-- A run that is stuck has completed all that is completable, and nothing else. -/
theorem mem_completed_iff (hwork : Unhindered work base) (h : Chain base done ctx)
    (hperm : work.Perm (done.map Completion.item ++ left))
    (hstuck : ∀ i ∈ left, i.ready ctx = false) (i : WorkItem) :
    i ∈ done.map Completion.item ↔ i ∈ completable work base := by
  constructor
  · intro hi
    obtain ⟨c, hc, rfl⟩ := List.mem_map.mp hi
    apply mem_completable_of_chain hwork h _ c hc
    intro d hd
    exact hperm.mem_iff.mpr (List.mem_append_left _ (List.mem_map_of_mem hd))
  · intro hi
    exact completable_subset_of_stuck h hperm hstuck hi

/-- What is left of a run that is stuck is all that is not completable. -/
theorem mem_left_iff (hwork : Unhindered work base) (h : Chain base done ctx)
    (hperm : work.Perm (done.map Completion.item ++ left))
    (hstuck : ∀ i ∈ left, i.ready ctx = false) {i : WorkItem} (hi : i ∈ work) :
    i ∈ left ↔ ¬i ∈ completable work base := by
  rw [← mem_completed_iff hwork h hperm hstuck i]
  constructor
  · intro hleft hdone
    obtain ⟨c, hc, hsame⟩ := List.mem_map.mp hdone
    exact key_ne_of_left hperm hwork.keys_distinct hleft c hc (congrArg WorkItem.key hsame)
  · intro hnot
    exact (List.mem_append.mp (hperm.mem_iff.mp hi)).resolve_left hnot

/-- An item that is ready does not fail. -/
theorem no_error_of_unhindered (hwork : Unhindered work base) (h : Chain base done ctx)
    (hperm : work.Perm (done.map Completion.item ++ left)) {item : WorkItem} (hitem : item ∈ left)
    (hready : item.ready ctx = true) {e : GenerationError} :
    item.complete ctx ≠ (next, .error e) := by
  have hmem : item ∈ work := hperm.mem_iff.mpr (List.mem_append_right _ hitem)
  have hdone : ∀ c ∈ done, c.item ∈ work := fun c hc =>
    hperm.mem_iff.mpr (List.mem_append_left _ (List.mem_map_of_mem hc))
  have hreached : Reached work base ctx := ⟨done, h, hdone⟩
  obtain ⟨g, hg⟩ := hwork.generates item hmem ctx hreached hready
  have hyields : Yields work base item g := ⟨ctx, hreached, hready, hg⟩
  apply WorkItem.complete_ne_error hg
  · exact not_has_of_left hperm hwork.keys_distinct hitem h (hwork.keys_new item hmem)
  · exact hwork.addresses_distinct item hmem g hyields
  · intro r hr htaken
    -- a taken address is one of the start or of another item
    rcases h.mem_addresses_iff.mp htaken with hbase | ⟨c, hc, haddress⟩
    · exact hwork.addresses_new item hmem g hyields r hr hbase
    · obtain ⟨t, ht, heq⟩ := List.mem_map.mp haddress
      have hne : c.item ≠ item := by
        intro hsame
        exact key_ne_of_left hperm hwork.keys_distinct hitem c hc (congrArg WorkItem.key hsame)
      exact hwork.addresses_apart c.item (hdone c hc) item hmem hne c.generated g
        (yields_of_chain h hdone c hc) hyields t ht r hr heq

end Runs

/-! ## The outcome of a run -/

section Outcome

/-- Elements in the order of a list of distinct elements are those of the list that belong to
them. -/
theorem eq_filter_of_sublist {work left : List WorkItem} {p : WorkItem → Prop} [DecidablePred p]
    (hsub : left.Sublist work) (hnodup : work.Nodup) (hmem : ∀ i ∈ work, i ∈ left ↔ p i) :
    left = work.filter fun i => p i := by
  have hself : left.filter (fun i => p i) = left := by
    apply List.filter_eq_self.mpr
    intro i hi
    exact decide_eq_true ((hmem i (hsub.subset hi)).mp hi)
  have hkept : left.Sublist (work.filter fun i => p i) := by
    have hfilter := hsub.filter fun i => decide (p i)
    rwa [hself] at hfilter
  apply hkept.eq_of_length
  apply List.Perm.length_eq
  apply (List.perm_ext_iff_of_nodup (hnodup.sublist hsub) (hnodup.filter _)).mpr
  intro i
  constructor
  · intro hi
    exact hkept.subset hi
  · intro hi
    obtain ⟨hwork, hp⟩ := List.mem_filter.mp hi
    exact (hmem i hwork).mpr (of_decide_eq_true hp)

open scoped Classical

/-- A run completes just the given items: it succeeds if these are all items, and is stuck with the
others, in the order of the producers, if not; either way the given ones, and nothing else, are
committed. -/
structure CompletesExactly (producers : List Producer) (base : Context) (done : Set WorkItem) :
    Prop where
  isOk_iff : (∃ report, (run producers base).2 = .ok report) ↔
    ∀ i ∈ items producers base.schema, i ∈ done
  stalls : (∃ i ∈ items producers base.schema, ¬i ∈ done) →
    (run producers base).2 = .error (.stalled
      (((items producers base.schema).filter fun i => ¬i ∈ done).map WorkItem.stuck))
  commits : ∃ completions, Chain base completions (run producers base).1 ∧
    (completions.map Completion.item).Perm
      ((items producers base.schema).filter fun i => i ∈ done) ∧
    (run producers base).1.outputs = base.outputs ++ completions.map Completion.registration

variable {producers : List Producer} {base next : Context}

/-- A run that fails has left an item. -/
theorem CompletesExactly.exists_left {done : Set WorkItem}
    (h : CompletesExactly producers base done)
    {e : GenerationError} (hrun : (run producers base).2 = .error e) :
    ∃ i ∈ items producers base.schema, ¬i ∈ done := by
  have hnot : ¬∀ i ∈ items producers base.schema, i ∈ done := by
    intro hall
    obtain ⟨report, hok⟩ := h.isOk_iff.mpr hall
    rw [hrun] at hok
    cases hok
  push Not at hnot
  exact hnot

/-- The items that are left are reported in the order of the producers and entities. -/
theorem CompletesExactly.stuck_eq {done : Set WorkItem} (h : CompletesExactly producers base done)
    {stuck : List StuckItem} (hrun : (run producers base).2 = .error (.stalled stuck)) :
    stuck = ((items producers base.schema).filter fun i => ¬i ∈ done).map WorkItem.stuck := by
  have hstalls := h.stalls (h.exists_left hrun)
  rw [hrun] at hstalls
  cases hstalls
  rfl

/-- A run that succeeds has completed all that becomes ready, which is all there is. -/
theorem completesExactly_of_ok (h : Unhindered (items producers base.schema) base)
    {report : SweepReport} (hrun : run producers base = (next, .ok report)) :
    CompletesExactly producers base (completable (items producers base.schema) base) := by
  obtain ⟨_, done, hdone, hperm⟩ := run_ok hrun
  have hall : ∀ i ∈ items producers base.schema,
      i ∈ completable (items producers base.schema) base := by
    intro i hi
    obtain ⟨c, hc, rfl⟩ := List.mem_map.mp (hperm.mem_iff.mp hi)
    apply mem_completable_of_chain h hdone _ c hc
    intro d hd
    exact hperm.mem_iff.mpr (List.mem_map_of_mem hd)
  constructor
  · rw [hrun]
    exact ⟨fun _ => hall, fun _ => ⟨report, rfl⟩⟩
  · rintro ⟨i, hi, hnot⟩
    exact absurd (hall i hi) hnot
  · rw [hrun, List.filter_eq_self.mpr fun i hi => decide_eq_true (hall i hi)]
    exact ⟨done, hdone, hperm.symm, hdone.outputs_eq⟩

/-- A run that is stuck has completed just what becomes ready. -/
theorem completesExactly_of_stalled (h : Unhindered (items producers base.schema) base)
    {e : GenerationError} (hrun : run producers base = (next, .error e)) :
    CompletesExactly producers base (completable (items producers base.schema) base) := by
  obtain ⟨done, mid, left, hdone, hperm, hfail⟩ := run_error hrun
  rcases hfail with ⟨item, hitem, hready, hcomplete⟩ | ⟨rfl, hne, hsub, hstuck, rfl⟩
  · exact absurd hcomplete (no_error_of_unhindered h hdone hperm hitem hready)
  · have hnodup : (items producers base.schema).Nodup := h.keys_distinct.of_map _
    have hleft : ∀ i ∈ items producers base.schema,
        i ∈ left ↔ ¬i ∈ completable (items producers base.schema) base := fun i hi =>
      mem_left_iff h hdone hperm hstuck hi
    constructor
    · -- something is left, and that is not completable
      obtain ⟨i, hi⟩ := List.exists_mem_of_ne_nil left hne
      have hnot := (hleft i (hsub.subset hi)).mp hi
      rw [hrun]
      constructor
      · rintro ⟨report, hreport⟩
        cases hreport
      · intro hall
        exact absurd (hall i (hsub.subset hi)) hnot
    · intro _
      rw [hrun, ← eq_filter_of_sublist hsub hnodup hleft]
    · rw [hrun]
      refine ⟨done, hdone, ?_, hdone.outputs_eq⟩
      have hdistinct := (List.nodup_append.mp (hperm.nodup_iff.mp hnodup)).1
      apply (List.perm_ext_iff_of_nodup hdistinct (hnodup.filter _)).mpr
      intro i
      rw [mem_completed_iff h hdone hperm hstuck, List.mem_filter, decide_eq_true_iff]
      constructor
      · intro hi
        have hcompleted := (mem_completed_iff h hdone hperm hstuck i).mpr hi
        exact ⟨hperm.mem_iff.mpr (List.mem_append_left _ hcompleted), hi⟩
      · rintro ⟨_, hi⟩
        exact hi

/-- A run completes just what is completable, in whatever order the producers are registered, and
hence is stuck with the same items in every order. -/
theorem completes_exactly (h : Unhindered (items producers base.schema) base) :
    IsLeast {done | ClosedUnderReadiness (items producers base.schema) base done}
        (completable (items producers base.schema) base) ∧
      (∀ order : List Producer, order.Perm producers →
        CompletesExactly order base (completable (items producers base.schema) base)) ∧
      ∀ order : List Producer, order.Perm producers → ∀ stuck : List StuckItem,
        (run producers base).2 = .error (.stalled stuck) →
          ∃ stuck', (run order base).2 = .error (.stalled stuck') ∧ stuck'.Perm stuck := by
  have hperm : ∀ order : List Producer, order.Perm producers →
      (items order base.schema).Perm (items producers base.schema) :=
    fun order horder => horder.flatMap_right _
  have hexact : ∀ order : List Producer, order.Perm producers →
      CompletesExactly order base (completable (items producers base.schema) base) := by
    intro order horder
    have hown := h.perm (hperm order horder)
    obtain ⟨ctx, result, hrun⟩ : ∃ ctx result, run order base = (ctx, result) := ⟨_, _, rfl⟩
    rw [← completable_perm (hperm order horder)]
    cases result with
    | ok report => exact completesExactly_of_ok hown hrun
    | error e => exact completesExactly_of_stalled hown hrun
  refine ⟨isLeast_completable, hexact, ?_⟩
  intro order horder stuck hstuck
  have hplain := hexact producers (.refl _)
  obtain ⟨i, hi, hnot⟩ := hplain.exists_left hstuck
  refine ⟨_, (hexact order horder).stalls ⟨i, (hperm order horder).mem_iff.mpr hi, hnot⟩, ?_⟩
  rw [hplain.stuck_eq hstuck]
  exact ((hperm order horder).filter _).map _

end Outcome

/-! ## Producers that wait for each other -/

/-- Generates for each lambda what the named producers have generated for before. -/
def waiting (name : String) (needs : List String) : Producer where
  name := name
  entities := Schema.lambdaEntities
  mayRun ctx entity := needs.all fun need => ctx.has need entity.id
  generate _ entity := .ok ⟨.value (.str name), [.ofFields name entity.id.text []]⟩

/-- Two producers that wait for each other, behind one that waits for none. -/
def pingPong : List Producer :=
  [waiting "first" [], waiting "ping" ["pong"], waiting "pong" ["ping"]]

/-- Among waiting producers only keys and addresses can hinder. -/
theorem unhindered_of_waiting {producers : List Producer} {base : Context}
    (hform : ∀ p ∈ producers, ∃ name needs, p = waiting name needs)
    (hkeys : ((items producers base.schema).map WorkItem.key).Nodup)
    (hnew : ∀ i ∈ items producers base.schema,
      base.has i.producer.name i.entity.id = false)
    (haddresses : ((items producers base.schema).map fun i =>
      i.producer.name ++ "." ++ i.entity.id.text).Nodup)
    (hunused : base.addresses = []) : Unhindered (items producers base.schema) base := by
  have hgenerate : ∀ i ∈ items producers base.schema, ∀ ctx, i.producer.generate ctx i.entity =
      .ok ⟨.value (.str i.producer.name), [.ofFields i.producer.name i.entity.id.text []]⟩ := by
    intro i hi ctx
    obtain ⟨name, needs, hp⟩ := hform i.producer (mem_items_iff.mp hi).1
    simp only [hp, waiting]
  have hyields : ∀ i ∈ items producers base.schema, ∀ g,
      Yields (items producers base.schema) base i g →
        g.resources = [.ofFields i.producer.name i.entity.id.text []] := by
    rintro i hi g ⟨ctx, _, _, hg⟩
    rw [hgenerate i hi ctx] at hg
    cases hg
    rfl
  constructor
  · intro i hi ctx next _ hext hready
    obtain ⟨name, needs, hp⟩ := hform i.producer (mem_items_iff.mp hi).1
    simp only [WorkItem.ready, hp, waiting, List.all_eq_true] at hready ⊢
    intro need hneed
    exact hext.kept need i.entity.id (hready need hneed)
  · intro i hi ctx _ _
    exact ⟨_, hgenerate i hi ctx⟩
  · exact hkeys
  · exact hnew
  · intro i hi g hg
    simp [hyields i hi g hg]
  · intro i hi g hg r hr
    simp [hunused]
  · intro i hi j hj hne g g' hg hg' r hr r' hr' haddress
    rw [hyields i hi g hg, List.mem_singleton] at hr
    rw [hyields j hj g' hg', List.mem_singleton] at hr'
    subst hr hr'
    exact hne (List.inj_on_of_nodup_map haddresses hi hj haddress)

/-- Two producers that wait for each other are stuck in either order, and the one that waits for
none is not. -/
theorem completes_exactly_pingPong :
    Unhindered (items pingPong Schema.shop) (.initial Schema.shop ⟨.empty⟩) ∧
      (run pingPong (.initial Schema.shop ⟨.empty⟩)).2 =
        .error (.stalled [⟨"ping", .lambda "users"⟩, ⟨"pong", .lambda "users"⟩]) ∧
      CompletesExactly pingPong.reverse (.initial Schema.shop ⟨.empty⟩)
        (completable (items pingPong Schema.shop) (.initial Schema.shop ⟨.empty⟩)) ∧
      ∃ stuck, (run pingPong.reverse (.initial Schema.shop ⟨.empty⟩)).2 = .error (.stalled stuck) ∧
        stuck.Perm [⟨"ping", .lambda "users"⟩, ⟨"pong", .lambda "users"⟩] := by
  have hunhindered : Unhindered (items pingPong Schema.shop) (.initial Schema.shop ⟨.empty⟩) := by
    refine @unhindered_of_waiting pingPong (.initial Schema.shop ⟨.empty⟩) ?_ ?_ ?_ ?_ ?_
    · simp only [pingPong, List.forall_mem_cons]
      exact ⟨⟨_, _, rfl⟩, ⟨_, _, rfl⟩, ⟨_, _, rfl⟩, by simp⟩
    · decide
    · decide
    · decide
    · rfl
  have hstuck : (run pingPong (.initial Schema.shop ⟨.empty⟩)).2 =
      .error (.stalled [⟨"ping", .lambda "users"⟩, ⟨"pong", .lambda "users"⟩]) := by
    decide +kernel
  have hreverse : pingPong.reverse.Perm pingPong := List.reverse_perm _
  obtain ⟨_, hexact, hsame⟩ :=
    @completes_exactly pingPong (.initial Schema.shop ⟨.empty⟩) hunhindered
  exact ⟨hunhindered, hstuck, hexact _ hreverse, hsame _ hreverse _ hstuck⟩

end Schedule
end InfraGraph
