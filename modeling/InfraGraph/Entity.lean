import InfraGraph.Schema.Basic

/-!
# Entity — the parts of a schema that something is generated for

* `Entity` — one part of a schema;
* `EntityId` — the text that identifies it, and `Entity.id`.
-/

namespace InfraGraph

/-- Stable identity of a part of the schema. -/
structure EntityId where
  text : String
deriving DecidableEq, Inhabited

namespace EntityId

def api (name : String) : EntityId := ⟨"api:" ++ name⟩

def path (p : UriPath) : EntityId := ⟨"path:" ++ p.absolute⟩

def lambda (id : String) : EntityId := ⟨"lambda:" ++ id⟩

def route (method : HttpMethod) (p : UriPath) : EntityId :=
  ⟨"route:" ++ method.text ++ " " ++ p.absolute⟩

def static (p : UriPath) : EntityId := ⟨"static:" ++ p.absolute⟩

def deployment (name : Option String) : EntityId := ⟨"deployment:" ++ name.getD ""⟩

def timer (id : String) : EntityId := ⟨"scheduled:" ++ id⟩

def dns (fqdn : String) : EntityId := ⟨"dns:" ++ fqdn⟩

end EntityId

inductive Entity where
  | api (api : Api)
  | path (path : UriPath)
  | lambda (id : String) (lambda : Lambda)
  | route (route : DynamicRoute)
  | static (route : StaticRoute)
  | deployment (deployment : Deployment)
  | timer (timer : Timer)
  | dns (dns : DnsAlias)
deriving DecidableEq

namespace Entity

def id : Entity → EntityId
  | api a => .api a.name
  | path p => .path p
  | lambda id _ => .lambda id
  | route r => .route r.method r.path
  | static r => .static r.path
  | deployment d => .deployment d.name
  | timer t => .timer t.id
  | dns d => .dns d.fqdn

end Entity

namespace Schema

def apiId? (s : Schema) : Option EntityId := s.api.map fun a => .api a.name

def lambdaEntities (s : Schema) : List Entity := s.lambdas.entries.map fun (id, l) => .lambda id l

end Schema
end InfraGraph
