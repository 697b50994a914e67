import InfraGraph.Access.Declaration
import InfraGraph.Collection.OrderedMap
import InfraGraph.Name
import InfraGraph.UriPath

/-!
# Schema — the description of one cloud application

A schema is what the front end hands over: an optional HTTP API, the lambdas with the access they
declare, routes, timers and declarations found in libraries.

* `Schema` — the whole description;
* `Api`, `Deployment`, `DnsAlias` — the HTTP API with its deployment and its alias;
* `Lambda` — a deployable function, and the place of its packaged artifact;
* `DynamicRoute`, `StaticRoute`, `HttpMethod`, `Routes` — what the API serves;
* `Timer` — a lambda invoked on a schedule.
-/

namespace InfraGraph

/-! ## HTTP API -/

/-- Deployment of the API, recreated on every generation. -/
structure Deployment where
  name : Option String
  /-- Version, used as stage name. -/
  version : String
deriving DecidableEq

namespace Deployment

def defaultVersion : String := "1"

def unnamed : Deployment := ⟨none, defaultVersion⟩

end Deployment

structure DnsAlias where
  /-- Label under the zone. -/
  host : String
  zone : String
  /-- Certificate domain, if it is not the alias itself. -/
  certificate : Option String
deriving DecidableEq

namespace DnsAlias

def fqdn (d : DnsAlias) : String := d.host ++ "." ++ d.zone

def certificateDomain (d : DnsAlias) : String := d.certificate.getD d.fqdn

end DnsAlias

structure Api where
  name : String
  /-- Whether cross-origin requests are answered. -/
  allowCors : Bool
  deployment : Deployment
  dns : Option DnsAlias
deriving DecidableEq

namespace Api

/-- Name of the deployment, falling back to the name of the API. -/
def deploymentName (a : Api) : String := a.deployment.name.getD a.name

/-- Deployment with its name filled in. -/
def resolvedDeployment (a : Api) : Deployment := ⟨some a.deploymentName, a.deployment.version⟩

end Api

/-! ## Lambdas -/

/-- A deployable function. -/
structure Lambda where
  /-- Path of the packaged artifact. -/
  file : String
  /-- Entry point. -/
  handler : String
  memoryMb : UInt32
  timeoutSec : UInt32
  runtime : String
  environment : OrderedMap String
  /-- Declarations found in the code of this lambda. -/
  permissions : List Declaration
deriving DecidableEq

namespace Lambda

/-- Memory of a lambda that names none, in megabytes. -/
def defaultMemoryMb : UInt32 := 1024

/-- Time limit of a lambda that names none, in seconds. -/
def defaultTimeoutSec : UInt32 := 300

def defaultRuntime : String := "java11"

/-- Characters of a path after its last slash. -/
def afterLastSlash (cs : List Char) : List Char :=
  (cs.reverse.takeWhile fun c => c != '/').reverse

/-- Characters of a path before its last slash; none without a slash. -/
def beforeLastSlash? (cs : List Char) : Option (List Char) :=
  match cs.reverse.dropWhile (fun c => c != '/') with
  | [] => none
  | _ :: front => some front.reverse

def artifactDir (l : Lambda) : String :=
  match beforeLastSlash? l.file.toList with
  | none => "."
  | some [] => "/"
  | some (c :: cs) => String.ofList (c :: cs)

def artifactName (l : Lambda) : String := String.ofList (afterLastSlash l.file.toList)

def besideArtifact (l : Lambda) (relative : String) : String :=
  if l.artifactDir = "/" then "/" ++ relative else l.artifactDir ++ "/" ++ relative

end Lambda

/-! ## Routes -/

inductive HttpMethod where
  | get
  | post
  | put
  | patch
  | delete
  | head
  | options
deriving DecidableEq, Inhabited

namespace HttpMethod

def all : List HttpMethod := [get, post, put, patch, delete, head, options]

def text : HttpMethod → String
  | get => "GET"
  | post => "POST"
  | put => "PUT"
  | patch => "PATCH"
  | delete => "DELETE"
  | head => "HEAD"
  | options => "OPTIONS"

def lowercase : HttpMethod → String
  | get => "get"
  | post => "post"
  | put => "put"
  | patch => "patch"
  | delete => "delete"
  | head => "head"
  | options => "options"

end HttpMethod

structure DynamicRoute where
  path : UriPath
  method : HttpMethod
  /-- Id of the target lambda. -/
  lambda : String
deriving DecidableEq

structure StaticRoute where
  path : UriPath
  /-- Local file uploaded to the bucket. -/
  file : String
  /-- Content type. -/
  mime : String
deriving DecidableEq

namespace StaticRoute

def defaultMime : String := "application/octet-stream"

end StaticRoute

structure Routes where
  /-- Routes served by a lambda. -/
  dynamic : List DynamicRoute
  /-- Routes served from the bucket. -/
  static : List StaticRoute
deriving DecidableEq

namespace Routes

def paths (r : Routes) : List UriPath :=
  r.dynamic.map DynamicRoute.path ++ r.static.map StaticRoute.path

end Routes

/-! ## Timers -/

structure Timer where
  id : String
  cron : String
  /-- Id of the target lambda. -/
  lambda : String
deriving DecidableEq

namespace Timer

/-- Identifier of the timer, unique across the application. -/
def fqId (t : Timer) : String := Name.identifier ["timer", t.id]

end Timer

/-! ## The schema -/

/-- Description of one cloud application. -/
structure Schema where
  version : String
  name : String
  description : Option String
  platform : Platform
  region : String
  /-- Account on AWS, subscription on Azure. -/
  account : String
  /-- Bucket of static assets. -/
  bucket : Option String
  api : Option Api
  lambdas : OrderedMap Lambda
  routes : Routes
  timers : List Timer
  /-- Declarations found outside directly visited code. -/
  libraryPermissions : List Declaration
deriving DecidableEq

namespace Schema

/-- Paths that routes are served under: every prefix of a route path but the root. -/
def routePaths (s : Schema) : OrderedSet UriPath :=
  .ofList (s.routes.paths.flatMap UriPath.prefixes)

def servedPaths (s : Schema) : OrderedSet UriPath := .ofList (.root :: s.routes.paths)

end Schema
end InfraGraph
