import InfraGraph.Aws.DomainAlias
import InfraGraph.Aws.Preflight
import InfraGraph.Aws.Route
import InfraGraph.Aws.StaticFile
import InfraGraph.Azure.HttpBinding
import InfraGraph.Generation.Timers
import InfraGraph.Resource.Fingerprint

/-!
# Pass — from a schema to its resources

The order of the producers decides the order in which resources are emitted, and nothing else.

* `Platform.producers` — the producers of a platform, in order;
* `Producer.all` — every producer once;
* `Pass` — everything a generation pass produced;
* `Schema.generate` — run a pass; an error leaves nothing.
-/

namespace InfraGraph

/-! ## Producers -/

namespace Platform

def producers : Platform → List Producer
  | aws =>
      [Aws.RestApi.producer, Aws.PathResource.producer, Aws.Function.producer,
        Aws.Route.producer, Aws.StaticFile.producer, Aws.Publication.producer,
        Aws.Preflight.producer, Timers.producer, Aws.DomainAlias.producer]
  | azure => [Azure.FunctionApp.producer, Azure.HttpBinding.producer, Timers.producer]

end Platform

namespace Producer

/-- Every producer once: those of AWS, then those that only Azure has. -/
def all : List Producer :=
  Platform.aws.producers ++ [Azure.FunctionApp.producer, Azure.HttpBinding.producer]

end Producer

/-! ## Passes -/

structure Pass where
  resources : List Resource
  manifest : Manifest
  report : SweepReport

namespace Pass

def digest (p : Pass) : String := Resource.hashAll p.resources

end Pass

namespace Schema

def libraryWith (s : Schema) (further : List Declaration) : List Declaration :=
  s.libraryPermissions ++ further

/-- Run a generation pass; every lambda is also granted what the library declares. -/
def generate (s : Schema) (library : List Declaration) : Except GenerationError Pass := do
  let grants ← s.grants library
  match Schedule.run s.platform.producers (.initial s grants) with
  | (_, .error e) => throw e
  | (ctx, .ok report) => return ⟨ctx.resources, ctx.manifest, report⟩

end Schema
end InfraGraph
