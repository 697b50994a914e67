import InfraGraph.Json.Basic
import InfraGraph.Resource.Fingerprint

/-!
# Plan — what applying new resources does to stored ones

Resources are matched by address and compared by hash.  New resources are listed in their order,
followed by stored ones that are gone, in theirs.

* `PlanAction`, `PlannedChange`, `Plan` — the plan, with its changes counted in 32 bits;
* `Plan.ofChanges`, `Plan.compare` — the plan from stored resources to new ones;
* `Plan.isEmpty` — whether applying it changes nothing, as far as the counts tell.
-/

namespace InfraGraph

/-- What happens to one resource. -/
inductive PlanAction where
  | create
  | update
  | destroy
  | keep
deriving DecidableEq

namespace PlanAction

def text : PlanAction → String
  | create => "create"
  | update => "update"
  | destroy => "destroy"
  | keep => "no_op"

def symbol : PlanAction → String
  | create => "+"
  | update => "~"
  | destroy => "-"
  | keep => " "

def wording : PlanAction → String
  | create => "create"
  | update => "update (content changed)"
  | destroy => "destroy (no longer generated)"
  | keep => "unchanged"

end PlanAction

/-- What happens to the resource of an address. -/
structure PlannedChange where
  address : String
  action : PlanAction
deriving DecidableEq

namespace PlannedChange

def description (c : PlannedChange) : String := c.address ++ ": " ++ c.action.wording

def toJson (c : PlannedChange) : Json :=
  .obj [("address", .str c.address), ("action", .str c.action.text),
    ("description", .str c.description)]

end PlannedChange

/-- Changes to the resources of an application.  Of each action there is the number of its changes,
as far as 32 bits hold it. -/
structure Plan where
  app : String
  changes : List PlannedChange
  toCreate : UInt32
  toUpdate : UInt32
  toDestroy : UInt32
  unchanged : UInt32
deriving DecidableEq

namespace Plan

/-- Hash of each address; of repeated addresses the last one counts. -/
def hashes (rs : List Resource) : OrderedMap String :=
  .ofList (rs.map fun r => (r.address, r.hash))

/-- Change of a new resource, given the hashes of stored ones. -/
def changeOf (stored : OrderedMap String) (r : Resource) : PlannedChange :=
  ⟨r.address,
    match stored.get? r.address with
    | none => .create
    | some hash => if hash = r.hash then .keep else .update⟩

/-- Stored resources whose address is no longer generated. -/
def gone (stored new : List Resource) : List Resource :=
  let addresses := new.map Resource.address
  stored.filter fun r => !addresses.contains r.address

def countOf (cs : List PlannedChange) (action : PlanAction) : Nat :=
  cs.countP fun c => c.action = action

/-- Plan of a list of changes.  The numbers of changes are cut to 32 bits. -/
def ofChanges (app : String) (cs : List PlannedChange) : Plan where
  app := app
  changes := cs
  toCreate := .ofNat (countOf cs .create)
  toUpdate := .ofNat (countOf cs .update)
  toDestroy := .ofNat (countOf cs .destroy)
  unchanged := .ofNat (countOf cs .keep)

@[simp] theorem changes_ofChanges (app : String) (cs : List PlannedChange) :
    (ofChanges app cs).changes = cs :=
  rfl

/-- Plan from stored resources to new ones. -/
def compare (app : String) (new stored : List Resource) : Plan :=
  ofChanges app (new.map (changeOf (hashes stored)) ++
    (gone stored new).map fun r => ⟨r.address, .destroy⟩)

/-- Whether applying the plan changes nothing, by its counts.  Their sum is one of 32 bits too, so
it wraps. -/
def isEmpty (p : Plan) : Bool := p.toCreate + p.toUpdate + p.toDestroy == 0

def toJson (p : Plan) : Json :=
  .obj [("app", .str p.app), ("changes", .arr (p.changes.map PlannedChange.toJson)),
    ("to_create", .int p.toCreate.toNat), ("to_update", .int p.toUpdate.toNat),
    ("to_destroy", .int p.toDestroy.toNat), ("unchanged", .int p.unchanged.toNat)]

end Plan
end InfraGraph
