import InfraGraph.Proofs.Generation.Context

/-!
# Chains of completions

A run of the schedule completes items one after the other, in an order that depends on the
readiness of each.  A chain is that order from the state a run begins in to the state it ends in,
whatever the first of them holds.  Main statements:

* `Completion`, `Completion.Fits` — an item with what was generated for it, and when that can
  happen;
* `Chain` — completions one after the other, from a state to a state;
* `Context.Extends` — at least as much is registered;
* `Chain.has_iff`, `Chain.outputs_eq`, `Chain.resources_eq` — what a chain leaves;
* `Schedule.not_has_of_left` — items that are left are registered under no key;
* `Schedule.sweep_cons`, `Schedule.drain_cases` — what a sweep and a run of sweeps can do;
* `Schedule.run_of_all_ready` — a run that takes one sweep.
-/

namespace InfraGraph

/-! ## Completions -/

/-- An item with what was generated for it. -/
structure Completion where
  item : WorkItem
  generated : Generated

/-- What an output of the item is registered under. -/
def WorkItem.key (item : WorkItem) : String × EntityId := (item.producer.name, item.entity.id)

namespace Completion

def commit (c : Completion) (ctx : Context) : Context :=
  ctx.commit c.item.producer.name c.item.entity.id c.generated

/-- A completion can happen in a state: the item is ready, generates just this, and there is room
for it. -/
structure Fits (c : Completion) (ctx : Context) : Prop where
  ready : c.item.ready ctx = true
  generate : c.item.producer.generate ctx c.item.entity = .ok c.generated
  unregistered : ctx.has c.item.producer.name c.item.entity.id = false
  distinct : (c.generated.resources.map Resource.address).Nodup
  fresh : ∀ r ∈ c.generated.resources, ¬r.address ∈ ctx.addresses

def registration (c : Completion) : Registration :=
  ⟨c.item.producer.name, c.item.entity.id, c.generated.output⟩

def addresses (c : Completion) : List String := c.generated.resources.map Resource.address

theorem outputs_commit (c : Completion) (ctx : Context) :
    (c.commit ctx).outputs = ctx.outputs ++ [c.registration] := rfl

/-- A completion adds the resources that it has generated. -/
theorem resources_commit (c : Completion) (ctx : Context) :
    (c.commit ctx).resources = ctx.resources ++ c.generated.resources := rfl

/-- It takes the addresses of these. -/
theorem mem_addresses_commit {c : Completion} {ctx : Context} {address : String} :
    address ∈ (c.commit ctx).addresses ↔ address ∈ ctx.addresses ∨ address ∈ c.addresses := by
  simp [commit, Context.commit, addresses, or_comm]

/-- It registers one key. -/
theorem has_commit {c : Completion} {ctx : Context} {producer : String} {entity : EntityId} :
    (c.commit ctx).has producer entity = true ↔
      ctx.has producer entity = true ∨ c.item.key = (producer, entity) := by
  simp [Context.has_iff_mem, outputs_commit, registration, WorkItem.key, or_and_right, exists_or]

/-- Completing an item that fits commits what it generates. -/
theorem Fits.complete_eq {c : Completion} {ctx : Context} (h : c.Fits ctx) :
    c.item.complete ctx = (c.commit ctx, .ok ()) :=
  WorkItem.complete_eq_ok_iff.mpr
    ⟨c.generated, h.generate, h.unregistered, h.distinct, h.fresh, rfl⟩

end Completion

/-! ## Chains -/

/-- A state of the same pass in which at least as much is registered. -/
structure Context.Extends (next ctx : Context) : Prop where
  schema_eq : next.schema = ctx.schema
  grants_eq : next.grants = ctx.grants
  kept : ∀ producer entity, ctx.has producer entity = true → next.has producer entity = true

theorem Context.Extends.trans {ctx mid next : Context} (h : next.Extends mid)
    (h' : mid.Extends ctx) : next.Extends ctx := by
  refine ⟨h.schema_eq.trans h'.schema_eq, h.grants_eq.trans h'.grants_eq, ?_⟩
  intro producer entity hhas
  exact h.kept producer entity (h'.kept producer entity hhas)

/-- Completions one after the other, from a state to a state. -/
inductive Chain : Context → List Completion → Context → Prop where
  | nil {ctx : Context} : Chain ctx [] ctx
  | cons {ctx next : Context} {c : Completion} {rest : List Completion} :
      c.Fits ctx → Chain (c.commit ctx) rest next → Chain ctx (c :: rest) next

namespace Chain

variable {ctx mid next : Context} {done more : List Completion}

theorem append (h : Chain ctx done mid) (h' : Chain mid more next) :
    Chain ctx (done ++ more) next := by
  induction h with
  | nil => exact h'
  | cons hfits _ ih => exact .cons hfits (ih h')

/-- Every completion of a chain happened in a state that the chain passed through. -/
theorem split {c : Completion} {later : List Completion} (h : Chain ctx (done ++ c :: later) next) :
    ∃ mid, Chain ctx done mid ∧ c.Fits mid ∧ Chain (c.commit mid) later next := by
  -- the chain loses its first completion with each step, so the state that it begins in varies
  induction done generalizing ctx with
  | nil =>
      cases h with
      | cons hfits hlater => exact ⟨ctx, .nil, hfits, hlater⟩
  | cons d rest ih =>
      cases h with
      | cons hfits hrest =>
          obtain ⟨mid, hbefore, hc, hlater⟩ := ih hrest
          exact ⟨mid, .cons hfits hbefore, hc, hlater⟩

theorem schema_eq (h : Chain ctx done next) : next.schema = ctx.schema := by
  induction h with
  | nil => rfl
  | cons _ _ ih => exact ih

theorem grants_eq (h : Chain ctx done next) : next.grants = ctx.grants := by
  induction h with
  | nil => rfl
  | cons _ _ ih => exact ih

/-- A chain has registered its completions, in order. -/
theorem outputs_eq (h : Chain ctx done next) :
    next.outputs = ctx.outputs ++ done.map Completion.registration := by
  induction h with
  | nil => simp
  | cons _ _ ih => simp [ih, Completion.outputs_commit]

/-- A chain has added what they have generated, in order. -/
theorem resources_eq (h : Chain ctx done next) :
    next.resources = ctx.resources ++ done.flatMap fun c => c.generated.resources := by
  induction h with
  | nil => simp
  | cons _ _ ih => simp [ih, Completion.resources_commit]

/-- A chain has taken the addresses of what it has added. -/
theorem mem_addresses_iff (h : Chain ctx done next) {address : String} :
    address ∈ next.addresses ↔ address ∈ ctx.addresses ∨ ∃ c ∈ done, address ∈ c.addresses := by
  induction h with
  | nil => simp
  | cons _ _ ih => simp [ih, Completion.mem_addresses_commit, or_assoc]

/-- Registered is what was registered before, and what was completed. -/
theorem has_iff (h : Chain ctx done next) {producer : String} {entity : EntityId} :
    next.has producer entity = true ↔
      ctx.has producer entity = true ∨ ∃ c ∈ done, c.item.key = (producer, entity) := by
  induction h with
  | nil => simp
  | cons _ _ ih => simp [ih, Completion.has_commit, or_assoc]

/-- No key is registered twice. -/
theorem nodup_keys (h : Chain ctx done next) :
    (done.map fun c => c.item.key).Nodup ∧
      ∀ c ∈ done, ctx.has c.item.producer.name c.item.entity.id = false := by
  induction h with
  | nil => simp
  | @cons ctx next c rest hfits _ ih =>
      obtain ⟨hnodup, hnew⟩ := ih
      -- a key of the rest was not registered after the first completion, so it is another one
      have hother : ∀ d ∈ rest, c.item.key ≠ d.item.key ∧
          ctx.has d.item.producer.name d.item.entity.id = false := by
        intro d hd
        have hnot := hnew d hd
        rw [← Bool.not_eq_true, Completion.has_commit, not_or, Bool.not_eq_true] at hnot
        exact ⟨hnot.2, hnot.1⟩
      refine ⟨List.nodup_cons.mpr ⟨?_, hnodup⟩, ?_⟩
      · intro hmem
        obtain ⟨d, hd, hkey⟩ := List.mem_map.mp hmem
        exact (hother d hd).1 hkey.symm
      · exact List.forall_mem_cons.mpr ⟨hfits.unregistered, fun d hd => (hother d hd).2⟩

theorem extended (h : Chain ctx done next) : next.Extends ctx := by
  refine ⟨h.schema_eq, h.grants_eq, ?_⟩
  intro producer entity hhas
  exact h.has_iff.mpr (Or.inl hhas)

/-- What every completion of a chain preserves holds of the state that the chain ends in. -/
theorem preserves {P : Context → Prop} (h : Chain ctx done next)
    (hstep : ∀ c ∈ done, ∀ state, P state → c.Fits state → P (c.commit state)) (hctx : P ctx) :
    P next := by
  induction h with
  | nil => exact hctx
  | @cons ctx _ c _ hfits _ ih =>
      have hnext := hstep c List.mem_cons_self ctx hctx hfits
      exact ih (fun d hd => hstep d (List.mem_cons_of_mem _ hd)) hnext

end Chain

namespace Schedule

variable {producers : List Producer} {s : Schema} {ctx next : Context}

/-- A work item is a producer with one of its entities. -/
theorem mem_items_iff {item : WorkItem} :
    item ∈ items producers s ↔
      item.producer ∈ producers ∧ item.entity ∈ item.producer.entities s := by
  simp only [items, List.mem_flatMap, List.mem_map]
  constructor
  · rintro ⟨p, hp, e, he, rfl⟩
    exact ⟨hp, he⟩
  · rintro ⟨hp, he⟩
    exact ⟨item.producer, hp, item.entity, he, rfl⟩

/-! ## What is completed and what is left -/

section Left

variable {work left : List WorkItem} {done : List Completion}
  (hperm : work.Perm (done.map Completion.item ++ left))

include hperm

/-- Where nothing that is left is ready, everything that is ready has been completed. -/
theorem completed_of_ready (hstuck : ∀ i ∈ left, i.ready ctx = false) :
    ∀ i ∈ work, i.ready ctx = true → ∃ c ∈ done, c.item = i := by
  intro i hi hready
  rcases List.mem_append.mp (hperm.mem_iff.mp hi) with hdone | hleft
  · exact List.mem_map.mp hdone
  · rw [hstuck i hleft] at hready
    cases hready

variable (hkeys : (work.map WorkItem.key).Nodup) {item : WorkItem} (hitem : item ∈ left)

include hkeys hitem

/-- An item that is left has another key than those that are done. -/
theorem key_ne_of_left : ∀ c ∈ done, c.item.key ≠ item.key := by
  intro c hc
  have hcompleted : c.item.key ∈ (done.map Completion.item).map WorkItem.key :=
    List.mem_map_of_mem (List.mem_map_of_mem hc)
  have hleft : item.key ∈ left.map WorkItem.key := List.mem_map_of_mem hitem
  have hnodup := (hperm.map WorkItem.key).nodup_iff.mp hkeys
  rw [List.map_append] at hnodup
  exact (List.nodup_append.mp hnodup).2.2 _ hcompleted _ hleft

/-- Nothing is registered under the key of an item that is left, unless it was there before. -/
theorem not_has_of_left (h : Chain ctx done next)
    (hnew : ctx.has item.producer.name item.entity.id = false) :
    next.has item.producer.name item.entity.id = false := by
  rw [← Bool.not_eq_true, h.has_iff, hnew]
  rintro (hbefore | ⟨c, hc, hkey⟩)
  · cases hbefore
  · exact key_ne_of_left hperm hkeys hitem c hc hkey

end Left

/-! ## Sweeps -/

/-- A sweep completes its first item and goes on, or the item fails, or it is left for later. -/
theorem sweep_cons {item : WorkItem} {rest : List WorkItem}
    {result : Except GenerationError (List WorkItem)}
    (hs : sweep ctx (item :: rest) = (next, result)) :
    (∃ c : Completion, c.item = item ∧ c.Fits ctx ∧ sweep (c.commit ctx) rest = (next, result)) ∨
      (∃ e, item.ready ctx = true ∧ item.complete ctx = (next, .error e) ∧ result = .error e) ∨
      (item.ready ctx = false ∧ ∃ left, sweep ctx rest = (next, left) ∧
        result = left.map (List.cons item)) := by
  simp only [sweep] at hs
  cases hready : item.ready ctx with
  | true =>
      rw [if_pos hready] at hs
      obtain ⟨mid, outcome, hcomplete⟩ : ∃ mid outcome, item.complete ctx = (mid, outcome) :=
        ⟨_, _, rfl⟩
      rw [hcomplete] at hs
      cases outcome with
      | error e =>
          rcases Prod.mk.inj hs with ⟨rfl, rfl⟩
          exact Or.inr (Or.inl ⟨e, rfl, hcomplete, rfl⟩)
      | ok u =>
          rcases WorkItem.complete_eq_ok_iff.mp hcomplete with ⟨g, hg, hhas, hnodup, hfresh, rfl⟩
          exact Or.inl ⟨⟨item, g⟩, rfl, ⟨hready, hg, hhas, hnodup, hfresh⟩, hs⟩
  | false =>
      rw [if_neg (by simp [hready])] at hs
      obtain ⟨mid, left, hsweep⟩ : ∃ mid left, sweep ctx rest = (mid, left) := ⟨_, _, rfl⟩
      rw [hsweep] at hs
      cases left with
      | error e =>
          rcases Prod.mk.inj hs with ⟨rfl, rfl⟩
          exact Or.inr (Or.inr ⟨rfl, .error e, hsweep, rfl⟩)
      | ok pending =>
          rcases Prod.mk.inj hs with ⟨rfl, rfl⟩
          exact Or.inr (Or.inr ⟨rfl, .ok pending, hsweep, rfl⟩)

/-- A sweep leaves items in the order in which they were offered. -/
theorem sweep_sublist {work left : List WorkItem} (hs : sweep ctx work = (next, .ok left)) :
    left.Sublist work := by
  -- a completion changes the state that the rest of the sweep begins in, so the state varies
  induction work generalizing ctx left with
  | nil =>
      cases hs
      exact .slnil
  | cons item rest ih =>
      rcases sweep_cons hs with ⟨c, rfl, _, hnext⟩ | ⟨_, _, _, he⟩ | ⟨_, left', hnext, he⟩
      · exact (ih hnext).cons c.item
      · cases he
      · cases left' with
        | error e => cases he
        | ok pending =>
            cases he
            exact (ih hnext).cons_cons item

/-- A sweep in which every item is ready when its turn comes completes them all, in order. -/
theorem sweep_of_all_ready {work left : List WorkItem}
    (hready : ∀ before i after, work = before ++ i :: after → ∀ more mid, Chain ctx more mid →
      more.map Completion.item = before → i.ready mid = true)
    (hs : sweep ctx work = (next, .ok left)) :
    left = [] ∧ ∃ more, Chain ctx more next ∧ more.map Completion.item = work := by
  -- an item completed first moves from the work to what stands before each further item
  induction work generalizing ctx left with
  | nil =>
      cases hs
      exact ⟨rfl, [], .nil, rfl⟩
  | cons item rest ih =>
      rcases sweep_cons hs with ⟨c, rfl, hfits, hnext⟩ | ⟨_, _, _, he⟩ | ⟨hnot, _⟩
      · have hrest : ∀ before i after, rest = before ++ i :: after → ∀ more mid,
            Chain (c.commit ctx) more mid → more.map Completion.item = before →
              i.ready mid = true := by
          intro before i after hsplit more mid hmore hbefore
          apply hready (c.item :: before) i after (by rw [hsplit]; rfl) (c :: more) mid
          · exact .cons hfits hmore
          · rw [List.map_cons, hbefore]
        obtain ⟨hleft, more, hmore, hitems⟩ := ih hrest hnext
        exact ⟨hleft, c :: more, .cons hfits hmore, by rw [List.map_cons, hitems]⟩
      · cases he
      · rw [hready [] item rest rfl [] ctx .nil rfl] at hnot
        cases hnot

/-! ## Sweeping until nothing is pending -/

/-- Draining ends if nothing is pending; otherwise a sweep fails, or leaves fewer items, which are
drained, or is stuck. -/
theorem drain_cases {pending : List WorkItem} {sweeps : Nat} {result : Except GenerationError Nat}
    (hd : drain ctx pending sweeps = (next, result)) :
    (pending = [] ∧ next = ctx ∧ result = .ok sweeps) ∨
      (∃ e, sweep ctx pending = (next, .error e) ∧ result = .error e) ∨
      (∃ mid left, sweep ctx pending = (mid, .ok left) ∧ left.length < pending.length ∧
        drain mid left (sweeps + 1) = (next, result)) ∨
      (∃ left, pending ≠ [] ∧ sweep ctx pending = (next, .ok left) ∧
        ¬left.length < pending.length ∧ result = .error (.stalled (left.map WorkItem.stuck))) := by
  unfold drain at hd
  by_cases hempty : pending.isEmpty = true
  · rw [if_pos hempty] at hd
    rcases Prod.mk.inj hd with ⟨rfl, rfl⟩
    exact Or.inl ⟨List.isEmpty_iff.mp hempty, rfl, rfl⟩
  · rw [if_neg hempty] at hd
    obtain ⟨mid, outcome, hsweep⟩ : ∃ mid outcome, sweep ctx pending = (mid, outcome) :=
      ⟨_, _, rfl⟩
    rw [hsweep] at hd
    cases outcome with
    | error e =>
        rcases Prod.mk.inj hd with ⟨rfl, rfl⟩
        exact Or.inr (Or.inl ⟨e, hsweep, rfl⟩)
    | ok left =>
        simp only at hd
        split at hd
        · next hless => exact Or.inr (Or.inr (Or.inl ⟨mid, left, hsweep, hless, hd⟩))
        · next hstuck =>
          rcases Prod.mk.inj hd with ⟨rfl, rfl⟩
          have hne : pending ≠ [] := fun hnil => hempty (by rw [hnil]; rfl)
          exact Or.inr (Or.inr (Or.inr ⟨left, hne, hsweep, hstuck, rfl⟩))

/-! ## A whole run -/

/-- A run drains the work items of its producers. -/
theorem run_eq {result : Except GenerationError Nat}
    (hd : drain ctx (items producers ctx.schema) 0 = (next, result)) :
    run producers ctx =
      (next, result.map fun sweeps => ⟨sweeps, (items producers ctx.schema).length⟩) := by
  simp only [run, hd]
  cases result <;> rfl

/-- A run in which every item is ready when its turn comes takes one sweep, if there is an item. -/
theorem run_of_all_ready {report : SweepReport}
    (hready : ∀ before i after, items producers ctx.schema = before ++ i :: after →
      ∀ more mid, Chain ctx more mid → more.map Completion.item = before → i.ready mid = true)
    (hr : run producers ctx = (next, .ok report)) :
    report.sweeps = (if (items producers ctx.schema).length = 0 then 0 else 1) ∧
      ∃ done, Chain ctx done next ∧ done.map Completion.item = items producers ctx.schema := by
  obtain ⟨mid, result, hd⟩ : ∃ mid result, drain ctx (items producers ctx.schema) 0 =
      (mid, result) := ⟨_, _, rfl⟩
  rw [run_eq hd] at hr
  obtain ⟨rfl, hresult⟩ := Prod.mk.inj hr
  cases result with
  | error e => cases hresult
  | ok sweeps =>
      cases hresult
      rcases drain_cases hd with ⟨hempty, rfl, he⟩ | ⟨_, _, he⟩ | ⟨mid', left, hsweep, hless, hd⟩ |
        ⟨_, _, _, _, he⟩
      · -- without an item there is no sweep
        cases he
        simp only [hempty]
        exact ⟨rfl, [], .nil, rfl⟩
      · cases he
      · obtain ⟨rfl, more, hmore, hitems⟩ := sweep_of_all_ready hready hsweep
        have hne : (items producers ctx.schema).length ≠ 0 := Nat.ne_of_gt hless
        -- nothing is left, so draining ends after this sweep
        rcases drain_cases hd with ⟨_, rfl, he⟩ | ⟨_, hs, _⟩ | ⟨_, _, _, hlt, _⟩ | ⟨_, hnil, _⟩
        · cases he
          rw [if_neg hne]
          exact ⟨rfl, more, hmore, hitems⟩
        · cases hs
        · cases hlt
        · exact absurd rfl hnil
      · cases he

end Schedule
end InfraGraph
