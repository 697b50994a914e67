import InfraGraph.Generation.Schedule

/-!
# Reading the state and completing one work item

What reading needs, what committing does to the state, and when it is refused.  Main statements:

* `bind_eq_ok_iff`, `Context.read_eq_ok_iff` — when steps of a generator succeed;
* `Context.commit` — the state after an output and resources have been accepted;
* `Context.append_eq_ok_iff`, `Context.append_refused` — resources are accepted iff their addresses
  are new and distinct, and otherwise up to the first that is not;
* `WorkItem.complete_eq_ok_iff`, `WorkItem.complete_refused` — the same for a whole item.
-/

namespace InfraGraph

theorem exists_of_isOk {ε α : Type} {x : Except ε α} (h : x.isOk = true) : ∃ a, x = .ok a := by
  cases x with
  | error e => cases h
  | ok a => exact ⟨a, rfl⟩

/-- What is known of a result, where there is one. -/
theorem exists_of_map_toOption {ε α β : Type} {x : Except ε α} {f : α → β} {b : β}
    (h : x.toOption.map f = some b) : ∃ a, x = .ok a ∧ f a = b := by
  cases x with
  | error e => cases h
  | ok a => exact ⟨a, rfl, Option.some.inj h⟩

/-- Steps succeed one after the other iff each of them does. -/
theorem bind_eq_ok_iff {ε α β : Type} {x : Except ε α} {f : α → Except ε β} {b : β} :
    (x >>= f) = .ok b ↔ ∃ a, x = .ok a ∧ f a = .ok b := by
  cases x <;> simp [bind, Except.bind]

namespace Context

variable {ctx next : Context} {producer : String} {entity : EntityId}

/-! ## Reading -/

/-- Something is read iff an output is there and has the part. -/
theorem read_eq_ok_iff {α : Type} {part : Output → Option α} {a : α} :
    ctx.read producer entity part = .ok a ↔
      ∃ output, ctx.lookup? producer entity = some output ∧ part output = some a := by
  unfold read
  cases ctx.lookup? producer entity with
  | none => simp
  | some output => cases hpart : part output <;> simp [hpart]

/-- Reading a part that tells the whole output. -/
theorem read_eq_ok_iff_of_sort {α : Type} {part : Output → Option α} {sort : α → Output} {a : α}
    (hsort : ∀ output a, part output = some a ↔ output = sort a) :
    ctx.read producer entity part = .ok a ↔ ctx.lookup? producer entity = some (sort a) := by
  rw [read_eq_ok_iff]
  constructor
  · rintro ⟨output, hl, hpart⟩
    rw [hl, (hsort output a).mp hpart]
  · intro hl
    exact ⟨sort a, hl, (hsort _ a).mpr rfl⟩

/-- An output is there iff it is found. -/
theorem has_iff : ctx.has producer entity = true ↔
    ∃ output, ctx.lookup? producer entity = some output :=
  Option.isSome_iff_exists

/-- An output is there iff it has been registered. -/
theorem has_iff_mem : ctx.has producer entity = true ↔
    ∃ r ∈ ctx.outputs, r.producer = producer ∧ r.entity = entity := by
  simp [has, lookup?, List.find?_isSome, Registration.isFor]

/-- An output that is found has been registered. -/
theorem mem_outputs_of_lookup {output : Output} (hl : ctx.lookup? producer entity = some output) :
    ⟨producer, entity, output⟩ ∈ ctx.outputs := by
  obtain ⟨r, hfind, rfl⟩ := Option.map_eq_some_iff.mp hl
  have hfor := List.find?_some hfind
  simp only [Registration.isFor, Bool.and_eq_true, beq_iff_eq] at hfor
  obtain ⟨rfl, rfl⟩ := hfor
  exact List.mem_of_find?_eq_some hfind

/-- What is registered is in the manifest. -/
theorem isSome_manifest_of_has (h : ctx.has producer entity = true) :
    (ctx.manifest.get? producer entity).isSome = true := by
  obtain ⟨r, hr, rfl, rfl⟩ := has_iff_mem.mp h
  have hkey : Manifest.key r.producer r.entity ∈ (OrderedMap.ofList
      (ctx.outputs.map Registration.entry)).keys := by
    apply OrderedMap.mem_keys_ofList.mpr
    exact List.mem_map_of_mem (f := Prod.fst) (List.mem_map_of_mem (f := Registration.entry) hr)
  exact OrderedMap.contains_iff.mpr hkey

/-! ## The state after a commit -/

def commit (ctx : Context) (producer : String) (entity : EntityId) (g : Generated) : Context :=
  { ctx with
    outputs := ctx.outputs ++ [⟨producer, entity, g.output⟩]
    resources := ctx.resources ++ g.resources
    addresses := (g.resources.map Resource.address).reverse ++ ctx.addresses }

/-! ## Appending resources -/

def pushAll (ctx : Context) (rs : List Resource) : Context :=
  { ctx with
    resources := ctx.resources ++ rs
    addresses := (rs.map Resource.address).reverse ++ ctx.addresses }

theorem pushAll_push (ctx : Context) (r : Resource) (rs : List Resource) :
    (ctx.push r).pushAll rs = ctx.pushAll (r :: rs) := by
  simp [push, pushAll]

/-- Resources are accepted iff their addresses are new and distinct. -/
theorem append_eq_ok_iff {rs : List Resource} :
    ctx.append producer entity rs = (next, .ok ()) ↔
      (rs.map Resource.address).Nodup ∧ (∀ r ∈ rs, ¬r.address ∈ ctx.addresses) ∧
        next = ctx.pushAll rs := by
  induction rs generalizing ctx with
  | nil => simp [append, pushAll, eq_comm]
  | cons r rest ih =>
      simp only [append, List.contains_eq_mem, decide_eq_true_eq, List.map_cons, List.nodup_cons,
        List.forall_mem_cons]
      -- the address of the first resource is one more that the others must avoid
      by_cases htaken : r.address ∈ ctx.addresses
      · simp [htaken]
      · rw [if_neg htaken, ih, pushAll_push]
        simp only [push, List.mem_cons, not_or, List.mem_map]
        constructor
        · rintro ⟨hnodup, hfresh, rfl⟩
          refine ⟨⟨?_, hnodup⟩, ⟨htaken, fun t ht => (hfresh t ht).2⟩, rfl⟩
          rintro ⟨t, ht, he⟩
          exact (hfresh t ht).1 he
        · rintro ⟨⟨hnot, hnodup⟩, ⟨_, hfresh⟩, rfl⟩
          exact ⟨hnodup, fun t ht => ⟨fun he => hnot ⟨t, ht, he⟩, hfresh t ht⟩, rfl⟩

/-- A resource is the first of a list whose address is taken, by the state or by one before it. -/
structure FirstTaken (ctx : Context) (rs before : List Resource) (r : Resource) : Prop where
  split : ∃ after, rs = before ++ r :: after
  distinct : (before.map Resource.address).Nodup
  fresh : ∀ t ∈ before, ¬t.address ∈ ctx.addresses
  taken : r.address ∈ ctx.addresses ∨ r.address ∈ before.map Resource.address

/-- What is first taken behind a resource that has room is first taken with it. -/
theorem FirstTaken.of_push {rest before : List Resource} {r t : Resource}
    (hfree : ¬r.address ∈ ctx.addresses) (h : (ctx.push r).FirstTaken rest before t) :
    ctx.FirstTaken (r :: rest) (r :: before) t := by
  obtain ⟨⟨after, hsplit⟩, hdistinct, hfresh, htaken⟩ := h
  have hother : ∀ u ∈ before, u.address ≠ r.address ∧ ¬u.address ∈ ctx.addresses := by
    intro u hu
    exact not_or.mp fun h => hfresh u hu (List.mem_cons.mpr h)
  constructor
  · exact ⟨after, by rw [hsplit]; rfl⟩
  · refine List.nodup_cons.mpr ⟨?_, hdistinct⟩
    intro hmem
    obtain ⟨u, hu, hsame⟩ := List.mem_map.mp hmem
    exact (hother u hu).1 hsame
  · exact List.forall_mem_cons.mpr ⟨hfree, fun u hu => (hother u hu).2⟩
  · -- taken since the first resource was added means taken by it or before it
    rcases htaken with hpushed | hbefore
    · rcases List.mem_cons.mp hpushed with hsame | hold
      · exact Or.inr (by simp [hsame])
      · exact Or.inl hold
    · exact Or.inr (List.mem_cons_of_mem _ hbefore)

/-- Resources are refused for the first one whose address is taken, and those before it stay. -/
theorem append_refused {rs : List Resource} {e : GenerationError}
    (h : ctx.append producer entity rs = (next, .error e)) :
    ∃ before r, ctx.FirstTaken rs before r ∧ next = ctx.pushAll before ∧
      e = .duplicateResource r.address producer entity := by
  induction rs generalizing ctx with
  | nil => simp [append] at h
  | cons r rest ih =>
      simp only [append, List.contains_eq_mem, decide_eq_true_eq] at h
      by_cases htaken : r.address ∈ ctx.addresses
      · rw [if_pos htaken] at h
        obtain ⟨rfl, he⟩ := Prod.mk.inj h
        cases he
        refine ⟨[], r, ⟨⟨rest, rfl⟩, by simp, by simp, Or.inl htaken⟩, ?_, rfl⟩
        simp [pushAll]
      · rw [if_neg htaken] at h
        obtain ⟨before, t, hfirst, rfl, he⟩ := ih h
        exact ⟨r :: before, t, hfirst.of_push htaken, pushAll_push ctx r before, he⟩

end Context

namespace WorkItem

variable {item : WorkItem} {ctx next : Context}

/-- An item is completed iff it generates something for which there is room. -/
theorem complete_eq_ok_iff :
    item.complete ctx = (next, .ok ()) ↔
      ∃ g, item.producer.generate ctx item.entity = .ok g ∧
        ctx.has item.producer.name item.entity.id = false ∧
        (g.resources.map Resource.address).Nodup ∧
        (∀ r ∈ g.resources, ¬r.address ∈ ctx.addresses) ∧
        next = ctx.commit item.producer.name item.entity.id g := by
  unfold complete
  cases hg : item.producer.generate ctx item.entity with
  | error e => simp
  | ok g =>
      -- the output is registered before any resource is added
      cases hhas : ctx.has item.producer.name item.entity.id with
      | true => simp [Context.register, hhas]
      | false =>
          simp only [Context.register, hhas, Bool.false_eq_true, if_false,
            Context.append_eq_ok_iff, Except.ok.injEq, exists_eq_left', true_and]
          rfl

/-- An item that generates something for which there is room is not refused. -/
theorem complete_ne_error {g : Generated} {e : GenerationError}
    (hg : item.producer.generate ctx item.entity = .ok g)
    (hnew : ctx.has item.producer.name item.entity.id = false)
    (hdistinct : (g.resources.map Resource.address).Nodup)
    (hfresh : ∀ r ∈ g.resources, ¬r.address ∈ ctx.addresses) :
    item.complete ctx ≠ (next, .error e) := by
  intro h
  have hok := complete_eq_ok_iff.mpr ⟨g, hg, hnew, hdistinct, hfresh, rfl⟩
  rw [h] at hok
  cases hok

/-- What can go wrong with an item, and what it leaves: it fails to generate, or its output is there
already, and nothing is left, or an address is taken, and what was committed before that stays. -/
theorem complete_refused {e : GenerationError} (h : item.complete ctx = (next, .error e)) :
    (item.producer.generate ctx item.entity = .error e ∧ next = ctx) ∨
      (∃ g, item.producer.generate ctx item.entity = .ok g ∧
        ctx.has item.producer.name item.entity.id = true ∧ next = ctx ∧
        e = .duplicateOutput item.producer.name item.entity.id) ∨
      ∃ g before r, item.producer.generate ctx item.entity = .ok g ∧
        ctx.has item.producer.name item.entity.id = false ∧
        ctx.FirstTaken g.resources before r ∧
        next = ctx.commit item.producer.name item.entity.id ⟨g.output, before⟩ ∧
        e = .duplicateResource r.address item.producer.name item.entity.id := by
  unfold complete at h
  cases hg : item.producer.generate ctx item.entity with
  | error e' =>
      rw [hg] at h
      obtain ⟨rfl, he⟩ := Prod.mk.inj h
      cases he
      exact Or.inl ⟨rfl, rfl⟩
  | ok g =>
      rw [hg] at h
      right
      cases hhas : ctx.has item.producer.name item.entity.id with
      | true =>
          simp only [Context.register, hhas, if_true] at h
          obtain ⟨rfl, he⟩ := Prod.mk.inj h
          cases he
          exact Or.inl ⟨g, rfl, rfl, rfl, rfl⟩
      | false =>
          simp only [Context.register, hhas, Bool.false_eq_true, if_false] at h
          obtain ⟨before, r, hfirst, rfl, he⟩ := Context.append_refused h
          -- registering the output has taken no address
          have hroom : ctx.FirstTaken g.resources before r :=
            ⟨hfirst.split, hfirst.distinct, hfirst.fresh, hfirst.taken⟩
          exact Or.inr ⟨g, before, r, rfl, rfl, hroom, rfl, he⟩

/-- What can go wrong with an item: it fails to generate, its output is there already, or one of
its addresses is taken. -/
theorem complete_error {e : GenerationError} (h : item.complete ctx = (next, .error e)) :
    item.producer.generate ctx item.entity = .error e ∨
      (ctx.has item.producer.name item.entity.id = true ∧
        e = .duplicateOutput item.producer.name item.entity.id) ∨
      ∃ g before r after, item.producer.generate ctx item.entity = .ok g ∧
        g.resources = before ++ r :: after ∧
        e = .duplicateResource r.address item.producer.name item.entity.id ∧
        (r.address ∈ ctx.addresses ∨ r.address ∈ before.map Resource.address) := by
  rcases complete_refused h with ⟨hg, _⟩ | ⟨_, _, hhas, _, he⟩ |
    ⟨g, before, r, hg, _, hfirst, _, he⟩
  · exact Or.inl hg
  · exact Or.inr (Or.inl ⟨hhas, he⟩)
  · obtain ⟨after, hsplit⟩ := hfirst.split
    exact Or.inr (Or.inr ⟨g, before, r, after, hg, hsplit, he, hfirst.taken⟩)

end WorkItem
end InfraGraph
