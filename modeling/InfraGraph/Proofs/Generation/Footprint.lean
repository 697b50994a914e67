import InfraGraph.Proofs.Generation.Context

/-!
# What a generator reads

A generator depends on the schema, the grants and a few outputs; two states that agree on these give
the same result, and where the outputs are there it does not fail for want of one.  Both facts are
put together along the steps of the generator.  Main statements:

* `Context.AgreeOn` — states with the same outputs under some keys;
* `Reads` — a computation reads the outputs under the keys, and no others;
* `Reads.read`, `Reads.bind`, `Reads.map` — how footprints are put together;
* `WorkItem.complete_state`, `WorkItem.forall_outputs_of_complete` — all that completing an item
  does to the outputs, be it refused or not.
-/

namespace InfraGraph

/-! ## Agreement -/

/-- States of one pass with the same outputs under the keys. -/
structure Context.AgreeOn (keys : List (String × EntityId)) (ctx next : Context) : Prop where
  schema_eq : next.schema = ctx.schema
  grants_eq : next.grants = ctx.grants
  lookup_eq : ∀ key ∈ keys, next.lookup? key.1 key.2 = ctx.lookup? key.1 key.2

/-- Whether the error is about an output that is not there: one that was read, or waited for. -/
def GenerationError.isMissing : GenerationError → Bool
  | missingOutput _ _ => true
  | stalled _ => true
  | _ => false

/-- In the states of a schema, a computation reads the outputs under the keys and no others, and
fails for want of an output only if one of these is not there. -/
structure Reads (s : Schema) (keys : List (String × EntityId)) {α : Type}
    (f : Context → Except GenerationError α) : Prop where
  agree : ∀ ctx next, ctx.schema = s → ctx.AgreeOn keys next → f next = f ctx
  found : ∀ ctx, ctx.schema = s → (∀ key ∈ keys, ctx.has key.1 key.2 = true) →
    ∀ e, f ctx = .error e → e.isMissing = false

namespace Reads

variable {α β : Type} {s : Schema} {keys : List (String × EntityId)}
  {f : Context → Except GenerationError α}

/-- A computation reads what another reads that is the same in every state of the schema. -/
theorem congr {f' : Context → Except GenerationError α} (h : Reads s keys f')
    (heq : ∀ ctx, ctx.schema = s → f ctx = f' ctx) : Reads s keys f := by
  constructor
  · intro ctx next hs hagree
    have hs' : next.schema = s := hagree.schema_eq.trans hs
    calc
      f next = f' next := heq next hs'
      _ = f' ctx := h.agree ctx next hs hagree
      _ = f ctx := (heq ctx hs).symm
  · intro ctx hs hkeys e he
    rw [heq ctx hs] at he
    exact h.found ctx hs hkeys e he

/-- A value of the schema and the grants is read from no output. -/
theorem value (a : Schema → Grants → α) :
    Reads s keys fun ctx => .ok (a ctx.schema ctx.grants) := by
  constructor
  · intro ctx next _ hagree
    simp only [hagree.schema_eq, hagree.grants_eq]
  · intro ctx _ _ e he
    cases he

/-- An error is no reading. -/
theorem fail {e : GenerationError} (he : e.isMissing = false) :
    Reads s keys fun _ => (.error e : Except GenerationError α) := by
  constructor
  · intro ctx next _ _
    rfl
  · intro ctx _ _ e' he'
    cases he'
    exact he

/-- What is read under a key of the list is read under the keys. -/
theorem read {producer : String} {entity : EntityId} (part : Output → Option α)
    (hkey : (producer, entity) ∈ keys) : Reads s keys fun ctx => ctx.read producer entity part := by
  constructor
  · intro ctx next _ hagree
    have hl := hagree.lookup_eq (producer, entity) hkey
    simp only [Context.read, hl]
  · intro ctx _ hkeys e he
    obtain ⟨output, hl⟩ := Context.has_iff.mp (hkeys (producer, entity) hkey)
    simp only at hl
    simp only [Context.read, hl] at he
    -- the output is there, so at most its sort is wrong
    cases hpart : part output with
    | none =>
        rw [hpart] at he
        cases he
        rfl
    | some a =>
        rw [hpart] at he
        cases he

/-- A computation that goes on with what another one has read reads the outputs of both. -/
theorem bind {g : α → Context → Except GenerationError β} (hf : Reads s keys f)
    (hg : ∀ a, Reads s keys (g a)) : Reads s keys fun ctx => f ctx >>= fun a => g a ctx := by
  constructor
  · intro ctx next hs hagree
    -- both states give the first step one result, so the second step is the same one
    rw [hf.agree ctx next hs hagree]
    cases hfirst : f ctx with
    | error e => rfl
    | ok a => exact (hg a).agree ctx next hs hagree
  · intro ctx hs hkeys e he
    cases hfirst : f ctx with
    | error e' =>
        rw [hfirst] at he
        cases he
        exact hf.found ctx hs hkeys e hfirst
    | ok a =>
        rw [hfirst] at he
        exact (hg a).found ctx hs hkeys e he

theorem map (g : α → β) (hf : Reads s keys f) : Reads s keys fun ctx => (f ctx).map g := by
  constructor
  · intro ctx next hs hagree
    rw [hf.agree ctx next hs hagree]
  · intro ctx hs hkeys e he
    cases hfirst : f ctx with
    | error e' =>
        rw [hfirst] at he
        cases he
        exact hf.found ctx hs hkeys e hfirst
    | ok a =>
        rw [hfirst] at he
        cases he

end Reads

/-! ## What completing an item leaves of the state -/

/-- The outputs stay, but for the one that is generated; it stays even if a resource is refused. -/
theorem WorkItem.complete_state {item : WorkItem} {ctx next : Context}
    {result : Except GenerationError Unit} (h : item.complete ctx = (next, result)) :
    next.schema = ctx.schema ∧ next.grants = ctx.grants ∧
      (next.outputs = ctx.outputs ∨
        ∃ g, item.producer.generate ctx item.entity = .ok g ∧
          next.outputs = ctx.outputs ++ [⟨item.producer.name, item.entity.id, g.output⟩]) := by
  cases result with
  | ok u =>
      obtain ⟨g, hg, _, _, _, rfl⟩ := complete_eq_ok_iff.mp h
      exact ⟨rfl, rfl, Or.inr ⟨g, hg, rfl⟩⟩
  | error e =>
      rcases complete_refused h with ⟨_, rfl⟩ | ⟨_, _, _, rfl, _⟩ | ⟨g, _, _, hg, _, _, rfl, _⟩
      · exact ⟨rfl, rfl, Or.inl rfl⟩
      · exact ⟨rfl, rfl, Or.inl rfl⟩
      · exact ⟨rfl, rfl, Or.inr ⟨g, hg, rfl⟩⟩

/-- What holds of all outputs, and of what the item generates, holds of all outputs afterwards. -/
theorem WorkItem.forall_outputs_of_complete {P : Registration → Prop} {item : WorkItem}
    {ctx next : Context} {result : Except GenerationError Unit}
    (h : item.complete ctx = (next, result)) (hctx : ∀ r ∈ ctx.outputs, P r)
    (hnew : ∀ g, item.producer.generate ctx item.entity = .ok g →
      P ⟨item.producer.name, item.entity.id, g.output⟩) : ∀ r ∈ next.outputs, P r := by
  rcases (complete_state h).2.2 with hsame | ⟨g, hg, hgrown⟩
  · rw [hsame]
    exact hctx
  · rw [hgrown]
    exact List.forall_mem_append.mpr ⟨hctx, List.forall_mem_singleton.mpr (hnew g hg)⟩

end InfraGraph
