import InfraGraph.Access.Aggregate
import InfraGraph.Generation.Output
import InfraGraph.Resource.Basic

/-!
# Context — what a generation pass has produced so far

The context belongs to one pass.  Producers only read from it; what they produce is committed by the
schedule.

* `Registration` — an output, registered by a producer for an entity;
* `Context.register` — a second output for the same producer and entity is refused;
* `Context.append` — a resource whose address is taken is refused, resources before it stay;
* `Context.has`, `Context.read` — whether an output is there, and what it holds;
* `Context.manifest` — the outputs for readers outside the pass.
-/

namespace InfraGraph

/-- An output, registered by a producer for an entity. -/
structure Registration where
  producer : String
  entity : EntityId
  output : Output

namespace Registration

/-- Whether the output is the one of a producer for an entity. -/
def isFor (r : Registration) (producer : String) (entity : EntityId) : Bool :=
  r.producer == producer && r.entity == entity

def entry (r : Registration) : String × Json :=
  (Manifest.key r.producer r.entity, r.output.toJson)

end Registration

structure Context where
  schema : Schema
  grants : Grants
  /-- Outputs, in order of registration. -/
  outputs : List Registration
  /-- Resources, in order of emission. -/
  resources : List Resource
  /-- Addresses that are taken. -/
  addresses : List String

namespace Context

/-- State at the start of a pass. -/
def initial (s : Schema) (grants : Grants) : Context := ⟨s, grants, [], [], []⟩

/-! ## Reading -/

def lookup? (ctx : Context) (producer : String) (entity : EntityId) : Option Output :=
  (ctx.outputs.find? fun r => r.isFor producer entity).map Registration.output

/-- Whether a producer has registered an output for an entity. -/
def has (ctx : Context) (producer : String) (entity : EntityId) : Bool :=
  (ctx.lookup? producer entity).isSome

/-- Part of the output of a producer for an entity; reading what is not there is an error. -/
def read {α : Type} (ctx : Context) (producer : String) (entity : EntityId)
    (part : Output → Option α) : Except GenerationError α :=
  match ctx.lookup? producer entity with
  | none => .error (.missingOutput producer entity)
  | some output =>
      match part output with
      | none => .error (.outputTypeMismatch producer entity)
      | some a => .ok a

def hasLambda (ctx : Context) (id : String) : Bool := ctx.schema.lambdas.contains id

/-! ## Committing -/

def register (ctx : Context) (producer : String) (entity : EntityId) (output : Output) :
    Except GenerationError Context :=
  if ctx.has producer entity then .error (.duplicateOutput producer entity)
  else .ok { ctx with outputs := ctx.outputs ++ [⟨producer, entity, output⟩] }

/-- Add a resource and take its address. -/
def push (ctx : Context) (r : Resource) : Context :=
  { ctx with resources := ctx.resources ++ [r], addresses := r.address :: ctx.addresses }

/-- Add resources up to the first one whose address is taken. -/
def append (ctx : Context) (producer : String) (entity : EntityId) :
    List Resource → Context × Except GenerationError Unit
  | [] => (ctx, .ok ())
  | r :: rest =>
      if ctx.addresses.contains r.address then
        (ctx, .error (.duplicateResource r.address producer entity))
      else append (ctx.push r) producer entity rest

/-- Adding resources registers nothing. -/
@[simp] theorem outputs_append (ctx : Context) (producer : String) (entity : EntityId)
    (rs : List Resource) : (ctx.append producer entity rs).1.outputs = ctx.outputs := by
  induction rs generalizing ctx with
  | nil => rfl
  | cons r rest ih =>
      rw [append]
      split
      · rfl
      · exact ih (ctx.push r)

/-! ## Result -/

def manifest (ctx : Context) : Manifest := ⟨.ofList (ctx.outputs.map Registration.entry)⟩

end Context
end InfraGraph
