import Mathlib.Data.List.Nodup
import InfraGraph.Generation.Pass
import InfraGraph.Proofs.Distinct
import InfraGraph.Proofs.Generation.Trace

/-!
# Histories of a generation pass

A pass begins with nothing and completes work items of its producers.  A history is the chain of
these completions with everything it rests on, so what every completion preserves holds of the
state a pass ends in.  Main statements:

* `History` — the completions of a pass and the state they lead to;
* `History.chain`, `History.extend` — histories are chains from the start of a pass;
* `History.addresses_nodup` — no address is ever emitted twice;
* `History.exists_of_lookup`, `History.not_has_of_left` — outputs are those of the completions;
* `Schema.generate_ok`, `Schema.generate_error` — a pass is a history, and each way to fail is an
  item that fails, or items of which none is ready.
-/

namespace InfraGraph

/-- Completions of work items of the producers, in order, and the state they lead to. -/
inductive History (producers : List Producer) (s : Schema) (grants : Grants) :
    List Completion → Context → Prop where
  | start : History producers s grants [] (.initial s grants)
  | step {done : List Completion} {ctx : Context} {c : Completion} :
      History producers s grants done ctx → c.item ∈ Schedule.items producers s → c.Fits ctx →
        History producers s grants (done ++ [c]) (c.commit ctx)

namespace History

variable {producers : List Producer} {s : Schema} {grants : Grants} {done : List Completion}
  {ctx : Context}

/-! ## Histories and chains -/

/-- A history is a chain from the start of a pass. -/
theorem chain (h : History producers s grants done ctx) : Chain (.initial s grants) done ctx := by
  induction h with
  | start => exact .nil
  | step _ _ hfits ih => exact ih.append (.cons hfits .nil)

/-- A chain of work items goes on with a history. -/
theorem extend {more : List Completion} {next : Context} (h : History producers s grants done ctx)
    (hmore : Chain ctx more next) (hitems : ∀ c ∈ more, c.item ∈ Schedule.items producers s) :
    History producers s grants (done ++ more) next := by
  induction hmore generalizing done with
  | nil => simpa using h
  | cons hfits _ ih =>
      obtain ⟨hitem, hrest⟩ := List.forall_mem_cons.mp hitems
      simpa using ih (h.step hitem hfits) hrest

/-- Completions of work items that lead from the start of a pass are a history. -/
theorem of_chain (h : Chain (.initial s grants) done ctx)
    (hitems : ∀ c ∈ done, c.item ∈ Schedule.items producers s) :
    History producers s grants done ctx :=
  extend .start h hitems

/-! ## What a history leaves -/

@[simp]
theorem schema_eq (h : History producers s grants done ctx) : ctx.schema = s :=
  h.chain.schema_eq

theorem grants_eq (h : History producers s grants done ctx) : ctx.grants = grants :=
  h.chain.grants_eq

theorem mem_items (h : History producers s grants done ctx) :
    ∀ c ∈ done, c.item ∈ Schedule.items producers s := by
  induction h with
  | start => simp
  | step _ hitem _ ih =>
      intro c hc
      rcases List.mem_append.mp hc with hc | hc
      · exact ih c hc
      · rw [List.mem_singleton.mp hc]
        exact hitem

/-- What is registered is what was completed, in order. -/
theorem outputs_eq (h : History producers s grants done ctx) :
    ctx.outputs = done.map Completion.registration := by
  simpa [Context.initial] using h.chain.outputs_eq

theorem resources_eq (h : History producers s grants done ctx) :
    ctx.resources = done.flatMap fun c => c.generated.resources := by
  simpa [Context.initial] using h.chain.resources_eq

/-- The taken addresses are those of the emitted resources. -/
theorem addresses_eq (h : History producers s grants done ctx) :
    ctx.addresses = (ctx.resources.map Resource.address).reverse := by
  induction h with
  | start => rfl
  | step _ _ _ ih => simp [Completion.commit, Context.commit, ih]

/-- No address is ever emitted twice. -/
theorem addresses_nodup (h : History producers s grants done ctx) :
    (ctx.resources.map Resource.address).Nodup := by
  induction h with
  | start => simp [Context.initial]
  | step hist _ hfits ih =>
      rw [Completion.resources_commit, List.map_append]
      refine List.nodup_append.mpr ⟨ih, hfits.distinct, ?_⟩
      intro a ha b hb hab
      rcases List.mem_map.mp hb with ⟨r, hr, rfl⟩
      -- an address of both would have been taken when the completion happened
      refine hfits.fresh r hr ?_
      rw [hist.addresses_eq, List.mem_reverse, ← hab]
      exact ha

/-- Every completion of a history happened in a state that it had reached before. -/
theorem exists_before (h : History producers s grants done ctx) {c : Completion} (hc : c ∈ done) :
    ∃ earlier before, History producers s grants earlier before ∧ earlier ⊆ done ∧
      c.Fits before := by
  induction h with
  | start => simp at hc
  | step hist _ hfits ih =>
      rcases List.mem_append.mp hc with hc | hc
      · -- an earlier completion had its state then, a prefix of this history
        rcases ih hc with ⟨earlier, before, hbefore, hsub, hfit⟩
        exact ⟨earlier, before, hbefore, fun a ha => List.mem_append_left _ (hsub ha), hfit⟩
      · rw [List.mem_singleton.mp hc]
        exact ⟨_, _, hist, List.subset_append_left _ _, hfits⟩

/-- Registered is what was completed. -/
theorem has_iff (h : History producers s grants done ctx) {producer : String} {entity : EntityId} :
    ctx.has producer entity = true ↔ ∃ c ∈ done, c.item.key = (producer, entity) :=
  h.chain.has_iff.trans (or_iff_right (by simp [Context.has_iff_mem, Context.initial]))

/-- What was completed has registered its output. -/
theorem has_of_mem (h : History producers s grants done ctx) {c : Completion} (hc : c ∈ done) :
    ctx.has c.item.producer.name c.item.entity.id = true :=
  h.has_iff.mpr ⟨c, hc, rfl⟩

/-- Every output was left by a completion. -/
theorem exists_of_lookup (h : History producers s grants done ctx) {producer : String}
    {entity : EntityId} {output : Output} (hl : ctx.lookup? producer entity = some output) :
    ∃ c ∈ done, c.item.producer.name = producer ∧ c.item.entity.id = entity ∧
      c.generated.output = output := by
  have hmem := Context.mem_outputs_of_lookup hl
  rw [h.outputs_eq] at hmem
  obtain ⟨c, hc, hregistration⟩ := List.mem_map.mp hmem
  obtain ⟨hname, hid, houtput⟩ := Registration.mk.inj hregistration
  exact ⟨c, hc, hname, hid, houtput⟩

/-- What was completed is found under its key. -/
theorem lookup_of_mem (h : History producers s grants done ctx) {c : Completion} (hc : c ∈ done) :
    ctx.lookup? c.item.producer.name c.item.entity.id = some c.generated.output := by
  obtain ⟨output, hl⟩ := Context.has_iff.mp (h.has_of_mem hc)
  obtain ⟨d, hd, hname, hid, houtput⟩ := h.exists_of_lookup hl
  -- no key is registered twice, so what is found was left by the completion itself
  have hkey : d.item.key = c.item.key := by simp [WorkItem.key, hname, hid]
  have hsame : d = c := List.inj_on_of_nodup_map h.chain.nodup_keys.1 hd hc hkey
  rw [hl, ← houtput, hsame]

/-- Outputs stay registered. -/
theorem has_of_subset (h : History producers s grants done ctx) {earlier : List Completion}
    {before : Context} (hbefore : History producers s grants earlier before)
    (hsub : earlier ⊆ done) {producer : String} {entity : EntityId}
    (hhas : before.has producer entity = true) : ctx.has producer entity = true := by
  rcases Context.has_iff.mp hhas with ⟨output, hl⟩
  rcases hbefore.exists_of_lookup hl with ⟨c, hc, rfl, rfl, _⟩
  exact h.has_of_mem (hsub hc)

/-- What a completion has generated is there. -/
theorem mem_resources (h : History producers s grants done ctx) {c : Completion} (hc : c ∈ done)
    {r : Resource} (hr : r ∈ c.generated.resources) : r ∈ ctx.resources := by
  rw [h.resources_eq]
  exact List.mem_flatMap.mpr ⟨c, hc, hr⟩

/-- What is completed was generated in a state that a history had reached. -/
theorem exists_generated_of_completed (h : History producers s grants done ctx)
    (hall : ∀ i ∈ Schedule.items producers s, ∃ c ∈ done, c.item = i) {p : Producer} {e : Entity}
    (hp : p ∈ producers) (he : e ∈ p.entities s) :
    ∃ earlier before g, History producers s grants earlier before ∧ p.generate before e = .ok g ∧
      ∀ r ∈ g.resources, r ∈ ctx.resources := by
  obtain ⟨c, hc, hitem⟩ := hall ⟨p, e⟩ (Schedule.mem_items_iff.mpr ⟨hp, he⟩)
  rcases h.exists_before hc with ⟨earlier, before, hbefore, _, hfits⟩
  have hgenerate := hfits.generate
  rw [hitem] at hgenerate
  exact ⟨earlier, before, c.generated, hbefore, hgenerate, fun r hr => h.mem_resources hc hr⟩

/-- What is left has not been registered. -/
theorem not_has_of_left {left : List WorkItem} {item : WorkItem}
    (h : History producers s grants done ctx)
    (hkeys : ((Schedule.items producers s).map WorkItem.key).Nodup)
    (hperm : (Schedule.items producers s).Perm (done.map Completion.item ++ left))
    (hitem : item ∈ left) : ctx.has item.producer.name item.entity.id = false :=
  Schedule.not_has_of_left hperm hkeys hitem h.chain rfl

/-- Two completions of a history that have an address in common are the same. -/
theorem eq_of_common_address (h : History producers s grants done ctx) {c d : Completion}
    (hc : c ∈ done) (hd : d ∈ done) {address : String}
    (hca : address ∈ c.generated.resources.map Resource.address)
    (hda : address ∈ d.generated.resources.map Resource.address) : c = d := by
  have hnodup := h.addresses_nodup
  rw [h.resources_eq, List.map_flatMap] at hnodup
  exact Distinct.eq_of_mem_flatMap hnodup hc hd hca hda

end History

/-! ## A whole pass -/

namespace Schema

variable {s : Schema} {library : List Declaration} {grants : Grants}

/-- Once grants are computed, a pass is a run of the producers of the platform. -/
theorem generate_eq (hgrants : s.grants library = .ok grants) {ctx : Context}
    {result : Except GenerationError SweepReport}
    (hrun : Schedule.run s.platform.producers (.initial s grants) = (ctx, result)) :
    s.generate library =
      result.map fun report => ⟨ctx.resources, ctx.manifest, report⟩ := by
  simp only [generate, hgrants, bind, Except.bind, hrun]
  cases result <;> rfl

/-- A pass without error is a run without error. -/
theorem generate_run {pass : Pass} (h : s.generate library = .ok pass) :
    ∃ grants ctx, s.grants library = .ok grants ∧
      Schedule.run s.platform.producers (.initial s grants) = (ctx, .ok pass.report) ∧
      pass.resources = ctx.resources ∧ pass.manifest = ctx.manifest := by
  cases hgrants : s.grants library with
  | error e =>
      unfold generate at h
      rw [hgrants] at h
      cases h
  | ok grants =>
      obtain ⟨ctx, result, hrun⟩ : ∃ ctx result,
          Schedule.run s.platform.producers (.initial s grants) = (ctx, result) := ⟨_, _, rfl⟩
      rw [generate_eq hgrants hrun] at h
      cases result with
      | error e => cases h
      | ok report =>
          cases h
          exact ⟨grants, ctx, rfl, hrun, rfl, rfl⟩

/-- A pass without error leaves what a history leaves that completes every item. -/
theorem generate_history {pass : Pass} (h : s.generate library = .ok pass) :
    ∃ grants done ctx, s.grants library = .ok grants ∧
      History s.platform.producers s grants done ctx ∧
      (Schedule.items s.platform.producers s).Perm (done.map Completion.item) ∧
      pass.resources = ctx.resources ∧ pass.manifest = ctx.manifest := by
  obtain ⟨grants, ctx, hgrants, hrun, hresources, hmanifest⟩ := generate_run h
  obtain ⟨_, done, hdone, hperm⟩ := Schedule.run_ok hrun
  have hitems : ∀ c ∈ done, c.item ∈ Schedule.items s.platform.producers s :=
    fun c hc => hperm.mem_iff.mpr (List.mem_map_of_mem hc)
  exact ⟨grants, done, ctx, hgrants, .of_chain hdone hitems, hperm, hresources, hmanifest⟩

/-- A pass without error completes every item. -/
theorem generate_ok {pass : Pass} (h : s.generate library = .ok pass) :
    ∃ grants done ctx, s.grants library = .ok grants ∧
      History s.platform.producers s grants done ctx ∧
      (Schedule.items s.platform.producers s).Perm (done.map Completion.item) ∧
      pass.resources = ctx.resources := by
  obtain ⟨grants, done, ctx, hgrants, hist, hperm, hresources, _⟩ := generate_history h
  exact ⟨grants, done, ctx, hgrants, hist, hperm, hresources⟩

/-- No two resources of a pass have one address. -/
theorem addresses_nodup_of_generate {pass : Pass} (h : s.generate library = .ok pass) :
    (pass.resources.map Resource.address).Nodup := by
  obtain ⟨_, _, _, _, hist, _, hresources⟩ := generate_ok h
  rw [hresources]
  exact hist.addresses_nodup

/-- A pass fails for the declarations of a lambda, for an item that fails, or because none of the
items left is ready. -/
theorem generate_error {e : GenerationError} (h : s.generate library = .error e) :
    s.grants library = .error e ∨
      ∃ grants done ctx left, s.grants library = .ok grants ∧
        History s.platform.producers s grants done ctx ∧
        (Schedule.items s.platform.producers s).Perm (done.map Completion.item ++ left) ∧
        ((∃ item ∈ left, item.ready ctx = true ∧ ∃ next, item.complete ctx = (next, .error e)) ∨
          (left ≠ [] ∧ (∀ i ∈ left, i.ready ctx = false) ∧
            e = .stalled (left.map WorkItem.stuck))) := by
  cases hgrants : s.grants library with
  | error e' =>
      unfold generate at h
      rw [hgrants] at h
      cases h
      exact Or.inl rfl
  | ok grants =>
      right
      obtain ⟨next, result, hrun⟩ : ∃ ctx result,
          Schedule.run s.platform.producers (.initial s grants) = (ctx, result) := ⟨_, _, rfl⟩
      rw [generate_eq hgrants hrun] at h
      cases result with
      | ok report => cases h
      | error e' =>
          cases h
          obtain ⟨done, ctx, left, hdone, hperm, hfail⟩ := Schedule.run_error hrun
          have hitems : ∀ c ∈ done, c.item ∈ Schedule.items s.platform.producers s :=
            fun c hc => hperm.mem_iff.mpr (List.mem_append_left _ (List.mem_map_of_mem hc))
          refine ⟨grants, done, ctx, left, rfl, .of_chain hdone hitems, hperm, ?_⟩
          rcases hfail with ⟨item, hitem, hready, hcomplete⟩ | ⟨_, hne, _, hstuck, he⟩
          · exact Or.inl ⟨item, hitem, hready, next, hcomplete⟩
          · exact Or.inr ⟨hne, hstuck, he⟩

end Schema
end InfraGraph
