import InfraGraph.Proofs.Storage.Program
import Mathlib.Logic.Relation

/-!
# What holds in the course of a program

The answers to a program's requests may be open: a relation says which ones are possible, and which
state each of them leaves.  What holds whichever way the answers go is shown along the program, and
then holds of every state on the way.  Main statements:

* `Program.Step`, `Program.Leads` — single answers, and any number of them;
* `Program.Upholds` — a property is kept while a program runs, and another one holds at its end;
* `Program.Upholds.kept_of_leads`, `Program.Upholds.post_of_leads` — both hold wherever a program
  leads;
* `Program.leads_run` — answers that are always given lead to the end of a program;
* `Attempt.upholds_bind`, `Attempt.upholds_adapt` — programs that may fail.
-/

namespace InfraGraph

variable {σ α β δ ε : Type} {answers : σ → (r : Request) → r.Response → σ → Prop}
  {kept kept' : σ → Prop} {s s' : σ}

namespace Program

/-- The request that a program is at is answered. -/
inductive Step (answers : σ → (r : Request) → r.Response → σ → Prop) :
    Program α × σ → Program α × σ → Prop where
  | answered {r : Request} {next : r.Response → Program α} {s s' : σ} {response : r.Response}
      (h : answers s r response s') : Step answers (ask r next, s) (next response, s')

/-- Any number of requests are answered. -/
def Leads (answers : σ → (r : Request) → r.Response → σ → Prop) :
    Program α × σ → Program α × σ → Prop :=
  Relation.ReflTransGen (Step answers)

/-- Whichever answers are given, `kept` holds at every request, and `post` at the end. -/
def Upholds (answers : σ → (r : Request) → r.Response → σ → Prop) (kept : σ → Prop)
    (post : α → σ → Prop) : Program α → σ → Prop
  | done a, s => post a s
  | ask r next, s => kept s ∧ ∀ (response : r.Response) (s' : σ), answers s r response s' →
      Upholds answers kept post (next response) s'

variable {post : α → σ → Prop} {p q : Program α}

/-- One answer. -/
theorem Upholds.of_step {c c' : Program α × σ} (h : Upholds answers kept post c.1 c.2)
    (hstep : Step answers c c') : Upholds answers kept post c'.1 c'.2 := by
  cases hstep with
  | answered hanswer => exact h.2 _ _ hanswer

/-- Any number of answers. -/
theorem Upholds.of_leads (h : Upholds answers kept post p s)
    (hleads : Leads answers (p, s) (q, s')) : Upholds answers kept post q s' := by
  have hinvariant : ∀ c, Leads answers (p, s) c → Upholds answers kept post c.1 c.2 := by
    intro c hc
    induction hc with
    | refl => exact h
    | tail _ hstep ih => exact ih.of_step hstep
  exact hinvariant _ hleads

/-- What also holds at the end holds at every moment. -/
theorem Upholds.kept_of_leads (h : Upholds answers kept post p s)
    (hpost : ∀ a s, post a s → kept s) (hleads : Leads answers (p, s) (q, s')) : kept s' := by
  have hthere := h.of_leads hleads
  cases q with
  | done a => exact hpost a s' hthere
  | ask r next => exact hthere.1

/-- Where a program upholds a condition, its result satisfies it. -/
theorem Upholds.post_of_leads {a : α} (h : Upholds answers kept post p s)
    (hleads : Leads answers (p, s) (done a, s')) : post a s' :=
  h.of_leads hleads

theorem Upholds.mono {post' : α → σ → Prop} (h : Upholds answers kept post p s)
    (hkept : ∀ s, kept s → kept' s) (hpost : ∀ a s, post a s → post' a s) :
    Upholds answers kept' post' p s := by
  induction p generalizing s with
  | done a => exact hpost _ _ h
  | ask r next ih => exact ⟨hkept _ h.1, fun response s' hanswer => ih _ (h.2 response s' hanswer)⟩

/-- What the first program ends with is where the second one begins. -/
theorem Upholds.bind {post' : β → σ → Prop} {k : α → Program β}
    (h : Upholds answers kept (fun a s => Upholds answers kept post' (k a) s) p s) :
    Upholds answers kept post' (p >>= k) s := by
  induction p generalizing s with
  | done a => exact h
  | ask r next ih => exact ⟨h.1, fun response s' hanswer => ih _ (h.2 response s' hanswer)⟩

/-- Answers that are always given lead to the end of a program. -/
theorem leads_run {answer : σ → (r : Request) → r.Response × σ}
    (h : ∀ s r, answers s r (answer s r).1 (answer s r).2) (p : Program α) (s : σ) :
    Leads answers (p, s) (done (p.run answer s).1, (p.run answer s).2) := by
  induction p generalizing s with
  | done a => exact .refl
  | ask r next ih => exact .head (.answered (h s r)) (ih _ _)

end Program

namespace Attempt

variable {post : Except ε α → σ → Prop} {x : Attempt ε α}

/-- What holds where the first program fails, or else along the second one. -/
theorem upholds_bind {post : Except ε β → σ → Prop} {f : α → Attempt ε β}
    (h : x.run.Upholds answers kept (fun r s => match r with
      | .ok a => (f a).run.Upholds answers kept post s
      | .error e => post (.error e) s) s) :
    (x >>= f).run.Upholds answers kept post s := by
  refine Program.Upholds.bind (k := ExceptT.bindCont f) (h.mono (fun _ => id) ?_)
  intro r s h
  cases r with
  | ok a => exact h
  | error e => exact h

theorem upholds_pure {a : α} (h : post (.ok a) s) :
    (pure a : Attempt ε α).run.Upholds answers kept post s :=
  h

theorem upholds_throw {e : ε} (h : post (.error e) s) :
    (throw e : Attempt ε α).run.Upholds answers kept post s :=
  h

/-- An error that is turned into another one. -/
theorem upholds_adapt {post : Except δ α → σ → Prop} {f : ε → δ}
    (h : x.run.Upholds answers kept (fun r s => post (r.mapError f) s) s) :
    (x.adapt f).run.Upholds answers kept post s :=
  Program.Upholds.bind h

end Attempt
end InfraGraph
