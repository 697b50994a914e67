import InfraGraph.Aws.RestApi
import InfraGraph.Proofs.Generation.Trace
import InfraGraph.Proofs.Schema.Acceptance

/-!
# What a context keeps

Outputs are registered, resources appended and producers run on one context, in any order, and each
of these may fail in the middle.  A failure leaves what was committed before it, so the operations
after it start from a state that no operation alone would leave.  Whatever happens, nothing that is
stored changes or gets lost.  Main statements:

* `Operation`, `Context.after` — what can be done to a context, and the state it leaves;
* `Context.Tidy` — addresses and keys are taken by what is stored, and by one thing only;
* `Context.Keeps` — a step stays tidy and adds at the ends of the lists alone;
* `WorkItem.complete_keeps`, `Schedule.run_keeps`, `Operation.apply_keeps` — every step does so,
  be it refused or not;
* `Context.stored_is_kept` — what holds after any operations.
-/

namespace InfraGraph

/-! ## Operations -/

inductive Operation where
  /-- Register an output; one without a JSON form comes with the reason. -/
  | register (producer : String) (entity : EntityId) (output : Except String Output)
  | append (producer : String) (entity : EntityId) (resources : List Resource)
  | run (producers : List Producer)

namespace Operation

/-- State that an operation leaves, with its error if it fails. -/
def apply (op : Operation) (ctx : Context) : Outcome Unit :=
  match op with
  | register producer _ (.error reason) => (ctx, .error (.encode producer reason))
  | register producer entity (.ok output) =>
      match ctx.register producer entity output with
      | .error e => (ctx, .error e)
      | .ok next => (next, .ok ())
  | append producer entity resources => ctx.append producer entity resources
  | run producers =>
      match Schedule.run producers ctx with
      | (next, report) => (next, report.map fun _ => ())

end Operation

namespace Context

/-- State after operations, those that failed included. -/
def after (ops : List Operation) (ctx : Context) : Context :=
  ops.foldl (fun state op => (op.apply state).1) ctx

/-- JSON form in which the manifest has the output of a producer for an entity. -/
def snapshot? (ctx : Context) (producer : String) (entity : EntityId) : Option Json :=
  (ctx.outputs.find? fun r => r.isFor producer entity).map fun r => r.entry.2

/-! ## Tidy states -/

/-- The taken addresses are those of the resources, and no address or key is taken twice. -/
structure Tidy (ctx : Context) : Prop where
  mem_addresses_iff : ∀ address,
    address ∈ ctx.addresses ↔ address ∈ ctx.resources.map Resource.address
  nodup_addresses : (ctx.resources.map Resource.address).Nodup
  nodup_keys : (ctx.outputs.map fun r => (r.producer, r.entity)).Nodup

/-- A step leaves a tidy state tidy, and adds to outputs and resources at their ends alone. -/
structure Keeps (ctx next : Context) : Prop where
  tidy : ctx.Tidy → next.Tidy
  outputs_prefix : ctx.outputs <+: next.outputs
  resources_prefix : ctx.resources <+: next.resources

variable {ctx mid next : Context} {producer : String} {entity : EntityId}

theorem Tidy.initial (s : Schema) (grants : Grants) : (Context.initial s grants).Tidy := by
  constructor <;> simp [Context.initial]

theorem Keeps.refl (ctx : Context) : ctx.Keeps ctx :=
  ⟨id, List.prefix_rfl, List.prefix_rfl⟩

theorem Keeps.trans (h : ctx.Keeps mid) (h' : mid.Keeps next) : ctx.Keeps next := by
  constructor
  · intro htidy
    exact h'.tidy (h.tidy htidy)
  · exact h.outputs_prefix.trans h'.outputs_prefix
  · exact h.resources_prefix.trans h'.resources_prefix

/-- The first output under a key stays the one that is found. -/
theorem Keeps.lookup? {output : Output} (h : ctx.Keeps next)
    (hl : ctx.lookup? producer entity = some output) :
    next.lookup? producer entity = some output ∧
      next.snapshot? producer entity = ctx.snapshot? producer entity := by
  obtain ⟨r, hfind, rfl⟩ := Option.map_eq_some_iff.mp hl
  have hlater : next.outputs.find? (fun r => r.isFor producer entity) = some r :=
    h.outputs_prefix.find?_eq_some hfind
  constructor
  · rw [Context.lookup?, hlater, Option.map_some]
  · rw [snapshot?, snapshot?, hlater, hfind]

/-! ## Steps -/

def record (ctx : Context) (r : Registration) : Context :=
  { ctx with outputs := ctx.outputs ++ [r] }

/-- An output under a new key is added at the end. -/
theorem Keeps.record {r : Registration} (hnew : ctx.has r.producer r.entity = false) :
    ctx.Keeps (ctx.record r) := by
  constructor
  · intro htidy
    refine ⟨htidy.mem_addresses_iff, htidy.nodup_addresses, ?_⟩
    simp only [Context.record, List.map_append, List.map_cons, List.map_nil]
    refine List.nodup_append.mpr ⟨htidy.nodup_keys, by simp, ?_⟩
    -- an output under the key would have been found
    intro key hkey _ hsame
    rw [List.mem_singleton.mp hsame]
    rintro rfl
    obtain ⟨t, ht, he⟩ := List.mem_map.mp hkey
    obtain ⟨hproducer, hentity⟩ := Prod.mk.inj he
    rw [has_iff_mem.mpr ⟨t, ht, hproducer, hentity⟩] at hnew
    cases hnew
  · exact List.prefix_append _ _
  · exact List.prefix_rfl

/-- New resources are added at the end. -/
theorem Keeps.pushAll {rs : List Resource} (hdistinct : (rs.map Resource.address).Nodup)
    (hfresh : ∀ r ∈ rs, ¬r.address ∈ ctx.addresses) : ctx.Keeps (ctx.pushAll rs) := by
  constructor
  · intro htidy
    constructor
    · intro address
      simp only [Context.pushAll, List.mem_append, List.mem_reverse, List.map_append,
        htidy.mem_addresses_iff]
      exact or_comm
    · simp only [Context.pushAll, List.map_append]
      refine List.nodup_append.mpr ⟨htidy.nodup_addresses, hdistinct, ?_⟩
      intro a ha b hb hab
      obtain ⟨r, hr, rfl⟩ := List.mem_map.mp hb
      -- the address of a resource is taken, so no new resource has it
      rw [hab] at ha
      exact hfresh r hr ((htidy.mem_addresses_iff _).mpr ha)
    · exact htidy.nodup_keys
  · exact List.prefix_rfl
  · exact List.prefix_append _ _

theorem Keeps.commit {g : Generated} (hnew : ctx.has producer entity = false)
    (hdistinct : (g.resources.map Resource.address).Nodup)
    (hfresh : ∀ r ∈ g.resources, ¬r.address ∈ ctx.addresses) :
    ctx.Keeps (ctx.commit producer entity g) := by
  have hrecord : ctx.Keeps (ctx.record ⟨producer, entity, g.output⟩) := Keeps.record hnew
  exact hrecord.trans (Keeps.pushAll hdistinct hfresh)

/-- Resources that are refused leave a tidy state too. -/
theorem append_keeps {rs : List Resource} {result : Except GenerationError Unit}
    (h : ctx.append producer entity rs = (next, result)) : ctx.Keeps next := by
  cases result with
  | ok u =>
      obtain ⟨hdistinct, hfresh, rfl⟩ := append_eq_ok_iff.mp h
      exact Keeps.pushAll hdistinct hfresh
  | error e =>
      obtain ⟨before, r, hfirst, rfl, _⟩ := append_refused h
      exact Keeps.pushAll hfirst.distinct hfirst.fresh

end Context

variable {ctx next : Context}

/-- Completing an item keeps everything, whether or not it succeeds. -/
theorem WorkItem.complete_keeps {item : WorkItem} {result : Except GenerationError Unit}
    (h : item.complete ctx = (next, result)) : ctx.Keeps next := by
  cases result with
  | ok u =>
      obtain ⟨g, _, hnew, hdistinct, hfresh, rfl⟩ := complete_eq_ok_iff.mp h
      exact Context.Keeps.commit hnew hdistinct hfresh
  | error e =>
      rcases complete_refused h with ⟨_, rfl⟩ | ⟨_, _, _, rfl, _⟩ |
        ⟨g, before, r, _, hnew, hfirst, rfl, _⟩
      · exact Context.Keeps.refl _
      · exact Context.Keeps.refl _
      · -- the output is there, and the resources before the refused one
        exact Context.Keeps.commit hnew hfirst.distinct hfirst.fresh

theorem Schedule.run_keeps {producers : List Producer} {result : Except GenerationError SweepReport}
    (h : run producers ctx = (next, result)) : ctx.Keeps next := by
  refine run_preserves (P := ctx.Keeps) ?_ (Context.Keeps.refl ctx) h
  intro item _ state reached outcome hstate hcomplete
  exact hstate.trans (WorkItem.complete_keeps hcomplete)

namespace Operation

/-- An output is registered under a free key; one that is refused leaves the state as it is. -/
theorem apply_register_cases {producer : String} {entity : EntityId}
    {output : Except String Output} {result : Except GenerationError Unit}
    (h : (register producer entity output).apply ctx = (next, result)) :
    (∃ o, output = .ok o ∧ ctx.has producer entity = false ∧ result = .ok () ∧
        next = ctx.record ⟨producer, entity, o⟩) ∨
      ((∃ e, result = .error e) ∧ next = ctx ∧
        ∀ o, output = .ok o → ctx.has producer entity = true) := by
  cases output with
  | error reason =>
      obtain ⟨rfl, rfl⟩ := Prod.mk.inj h
      refine Or.inr ⟨⟨_, rfl⟩, rfl, ?_⟩
      intro o ho
      cases ho
  | ok o =>
      simp only [apply, Context.register] at h
      cases hhas : ctx.has producer entity with
      | true =>
          rw [hhas] at h
          obtain ⟨rfl, rfl⟩ := Prod.mk.inj h
          exact Or.inr ⟨⟨_, rfl⟩, rfl, fun _ _ => rfl⟩
      | false =>
          rw [hhas] at h
          obtain ⟨rfl, rfl⟩ := Prod.mk.inj h
          exact Or.inl ⟨o, rfl, rfl, rfl, rfl⟩

/-- Every operation keeps what is stored, be it refused or not. -/
theorem apply_keeps {op : Operation} {result : Except GenerationError Unit}
    (h : op.apply ctx = (next, result)) : ctx.Keeps next := by
  cases op with
  | register producer entity output =>
      rcases apply_register_cases h with ⟨o, _, hnew, _, rfl⟩ | ⟨_, rfl, _⟩
      · exact Context.Keeps.record hnew
      · exact Context.Keeps.refl _
  | append producer entity resources => exact Context.append_keeps h
  | run producers =>
      obtain ⟨rfl, _⟩ := Prod.mk.inj h
      exact Schedule.run_keeps rfl

end Operation

namespace Context

/-! ## Any operations -/

theorem after_append (earlier later : List Operation) (ctx : Context) :
    after (earlier ++ later) ctx = after later (after earlier ctx) :=
  List.foldl_append

/-- What every operation preserves, be it refused or not, holds after all of them. -/
theorem after_preserves {P : Context → Prop} {ops : List Operation}
    (hstep : ∀ op ∈ ops, ∀ state, P state → P (op.apply state).1) {ctx : Context} (hctx : P ctx) :
    P (after ops ctx) := by
  induction ops generalizing ctx with
  | nil => exact hctx
  | cons op rest ih =>
      obtain ⟨hop, hrest⟩ := List.forall_mem_cons.mp hstep
      exact ih hrest (hop ctx hctx)

/-- Whatever operations follow, what is stored is kept. -/
theorem keeps_after (ops : List Operation) (ctx : Context) : ctx.Keeps (after ops ctx) := by
  refine after_preserves (P := ctx.Keeps) ?_ (Keeps.refl ctx)
  intro op _ state hstate
  exact hstate.trans (Operation.apply_keeps rfl)

/-- After any operations the state is tidy, every earlier list of resources is a start of every
later one, and what was registered first under a key stays; an output that is refused changes
nothing, and resources that are refused are added up to the first whose address is taken. -/
theorem stored_is_kept (s : Schema) (grants : Grants) (ops : List Operation) :
    (after ops (.initial s grants)).Tidy ∧
      (∀ earlier later, ops = earlier ++ later →
        (after earlier (.initial s grants)).resources <+:
            (after ops (.initial s grants)).resources ∧
          ∀ producer entity output,
            (after earlier (.initial s grants)).lookup? producer entity = some output →
              (after ops (.initial s grants)).lookup? producer entity = some output ∧
                (after ops (.initial s grants)).snapshot? producer entity =
                  (after earlier (.initial s grants)).snapshot? producer entity) ∧
      (∀ (ctx next : Context) producer entity output e,
        (Operation.register producer entity output).apply ctx = (next, .error e) →
          next = ctx ∧ ∀ o, output = .ok o → ctx.has producer entity = true) ∧
      ∀ (ctx next : Context) producer entity rs e,
        (Operation.append producer entity rs).apply ctx = (next, .error e) →
          ∃ before r, ctx.FirstTaken rs before r ∧
            next.resources = ctx.resources ++ before ∧ next.outputs = ctx.outputs ∧
            e = .duplicateResource r.address producer entity := by
  refine ⟨(keeps_after ops _).tidy (Tidy.initial s grants), ?_, ?_, ?_⟩
  · rintro earlier later rfl
    rw [after_append]
    have hlater := keeps_after later (after earlier (.initial s grants))
    exact ⟨hlater.resources_prefix, fun producer entity output hl => hlater.lookup? hl⟩
  · intro ctx next producer entity output e h
    rcases Operation.apply_register_cases h with ⟨_, _, _, hok, _⟩ | ⟨_, hsame, hthere⟩
    · cases hok
    · exact ⟨hsame, hthere⟩
  · intro ctx next producer entity rs e h
    obtain ⟨before, r, hfirst, rfl, he⟩ := append_refused h
    exact ⟨before, r, hfirst, rfl, rfl, he⟩

/-- Sheets of which two have one address. -/
def sheets : List Resource :=
  [.ofFields "sheet" "a" [], .ofFields "sheet" "b" [], .ofFields "sheet" "a" [],
    .ofFields "sheet" "c" []]

/-- Operations of which all but the first fail: the output is there, a sheet is there twice, and the
second of two producers generates what the first has generated. -/
def filings : List Operation :=
  [.register "clerk" ⟨"page"⟩ (.ok (.value (.str "first"))),
    .register "clerk" ⟨"page"⟩ (.ok (.value (.str "second"))), .append "clerk" ⟨"page"⟩ sheets,
    .run [Aws.RestApi.producer, Aws.RestApi.producer]]

/-- After these operations there are two sheets, and the first output of each key. -/
theorem stored_is_kept_filings :
    (after filings (.initial Schema.shop ⟨.empty⟩)).Tidy ∧
      ["sheet.a", "sheet.b"] <+:
        (after filings (.initial Schema.shop ⟨.empty⟩)).resources.map Resource.address ∧
      (after filings (.initial Schema.shop ⟨.empty⟩)).lookup? "clerk" ⟨"page"⟩ =
        some (.value (.str "first")) ∧
      (∃ e next, (Operation.register "clerk" ⟨"page"⟩ (.ok (.value (.str "second")))).apply
          (after (filings.take 1) (.initial Schema.shop ⟨.empty⟩)) = (next, .error e) ∧
        next = after (filings.take 1) (.initial Schema.shop ⟨.empty⟩)) ∧
      ∃ e next before r, (Operation.append "clerk" ⟨"page"⟩ sheets).apply
          (.initial Schema.shop ⟨.empty⟩) = (next, .error e) ∧
        Context.FirstTaken (.initial Schema.shop ⟨.empty⟩) sheets before r ∧
        next.resources = before ∧ before.map Resource.address = ["sheet.a", "sheet.b"] := by
  obtain ⟨htidy, hlater, hregister, happend⟩ := stored_is_kept Schema.shop ⟨.empty⟩ filings
  have hkept := (hlater (filings.take 1) (filings.drop 1) rfl).2 "clerk" ⟨"page"⟩
    (.value (.str "first")) rfl
  have hsheets : (after (filings.take 3) (.initial Schema.shop ⟨.empty⟩)).resources.map
      Resource.address = ["sheet.a", "sheet.b"] := by decide
  have hgrown := (hlater (filings.take 3) (filings.drop 3) rfl).1.map Resource.address
  rw [hsheets] at hgrown
  have hrefused := hregister (after (filings.take 1) (.initial Schema.shop ⟨.empty⟩)) _ "clerk"
    ⟨"page"⟩ (.ok (.value (.str "second"))) _ rfl
  obtain ⟨before, r, hfirst, hresources, _, _⟩ :=
    happend (.initial Schema.shop ⟨.empty⟩) _ "clerk" ⟨"page"⟩ sheets _ rfl
  refine ⟨htidy, hgrown, hkept.1, ⟨_, _, rfl, hrefused.1⟩, _, _, before, r, rfl, hfirst,
    hresources, ?_⟩
  rw [← show _ = before from hresources]
  decide

end Context
end InfraGraph
