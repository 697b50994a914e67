import InfraGraph.Schema.Basic
import InfraGraph.Text.Unseen

/-!
# Violation — rules a schema must keep before anything is generated

Each rule that a schema breaks is reported, in a fixed order: version, name, region and account,
lambdas, library declarations, routes, timers, identifiers, and last the features that only AWS
has.  Two different names that become the same identifier are a violation too, since every resource
name is computed from them.

* `Violation` — what can be wrong, and `Violation.message`, how it is worded;
* `collisions` — names whose identifier an earlier, different name has taken;
* `Schema.violations` — every violation of a schema.
-/

namespace InfraGraph

/-! ## What can be wrong -/

/-- Families of names that must stay distinct as identifiers. -/
inductive NameFamily where
  | lambdaIdentifier
  | lambdaFunctionName
  | pathIdentifier
  | timerIdentifier
  | timerRuleName
deriving DecidableEq

namespace NameFamily

/-- The things that bear the names. -/
def bearers : NameFamily → String
  | lambdaIdentifier => "lambdas"
  | lambdaFunctionName => "lambdas"
  | pathIdentifier => "paths"
  | timerIdentifier => "scheduled events"
  | timerRuleName => "scheduled events"

/-- What the names become. -/
def target : NameFamily → String
  | lambdaIdentifier => "identifier"
  | lambdaFunctionName => "function name"
  | pathIdentifier => "identifier"
  | timerIdentifier => "identifier"
  | timerRuleName => "rule name"

end NameFamily

/-- A rule that a schema breaks. -/
inductive Violation where
  | version (found : String)
  | emptyName
  | noRegion
  | noAccount
  | lambdaWithoutFile (id : String)
  | lambdaWithoutHandler (id : String)
  | timeoutOutOfRange (id : String) (seconds : UInt32)
  | memoryTooSmall (id : String) (megabytes : UInt32)
  | foreignPermission (id : String) (declaration : Declaration) (platform : Platform)
  | foreignLibraryPermission (declaration : Declaration) (platform : Platform)
  | routesWithoutApi
  | routeToUnknownLambda (route : DynamicRoute)
  | duplicateRoute (method : HttpMethod) (path : UriPath)
  | staticOffAws (path : UriPath)
  | staticWithoutBucket (path : UriPath)
  | staticWithoutFile (path : UriPath)
  | duplicateTimer (id : String)
  | blankCron (id : String)
  | timerToUnknownLambda (timer : Timer)
  | collision (family : NameFamily) (first second identifier : String)
  | corsOffAws (api : String)
  | dnsOffAws (api : String)
deriving DecidableEq

namespace Violation

def mark (s : String) : String := "'" ++ s ++ "'"

def message : Violation → String
  | version found => "version must be \"1.0\", got \"" ++ found ++ "\""
  | emptyName => "name must not be empty"
  | noRegion => "aws platform requires a region"
  | noAccount => "aws platform requires an account"
  | lambdaWithoutFile id => "lambda " ++ mark id ++ " has no file"
  | lambdaWithoutHandler id => "lambda " ++ mark id ++ " has no handler"
  | timeoutOutOfRange id seconds =>
      "lambda " ++ mark id ++ " timeout " ++ toString seconds.toNat ++ "s out of range 1..=900"
  | memoryTooSmall id megabytes =>
      "lambda " ++ mark id ++ " memory " ++ toString megabytes.toNat ++ "MB below 128MB"
  | foreignPermission id d platform =>
      "lambda " ++ mark id ++ ": " ++ d.resource.kind.text ++
        " permission is not supported on " ++ platform.text ++ " (" ++ d.location ++ ")"
  | foreignLibraryPermission d platform =>
      "library " ++ d.resource.kind.text ++ " permission is not supported on " ++
        platform.text ++ " (" ++ d.location ++ ")"
  | routesWithoutApi => "routes require an 'api' section"
  | routeToUnknownLambda r =>
      "route " ++ r.method.text ++ " " ++ r.path.absolute ++ " references unknown lambda " ++
        mark r.lambda
  | duplicateRoute method path => "duplicate route " ++ method.text ++ " " ++ path.absolute
  | staticOffAws path => "static route " ++ path.absolute ++ " is only supported on aws"
  | staticWithoutBucket path => "static route " ++ path.absolute ++ " requires a 'bucket'"
  | staticWithoutFile path => "static route " ++ path.absolute ++ " has no file"
  | duplicateTimer id => "duplicate scheduled event " ++ mark id
  | blankCron id => "scheduled event " ++ mark id ++ " has an empty cron"
  | timerToUnknownLambda t =>
      "scheduled event " ++ mark t.id ++ " references unknown lambda " ++ mark t.lambda
  | collision family first second identifier =>
      family.bearers ++ " " ++ mark first ++ " and " ++ mark second ++ " map to the same " ++
        family.target ++ " " ++ mark identifier
  | corsOffAws api => "api " ++ mark api ++ ": cors is only supported on aws"
  | dnsOffAws api => "api " ++ mark api ++ ": dns alias is only supported on aws"

end Violation

/-! ## Building blocks -/

/-- The violation, if the condition holds. -/
def violates (condition : Bool) (v : Violation) : List Violation := if condition then [v] else []

/-- Names whose identifier an earlier, different name has taken.  `taken` lists identifiers with
the first name of each. -/
def collisionsFrom (family : NameFamily) (taken : List (String × String)) :
    List (String × String) → List Violation
  | [] => []
  | (name, identifier) :: rest =>
      match Entries.get? identifier taken with
      | some first =>
          violates (first != name) (.collision family first name identifier) ++
            collisionsFrom family taken rest
      | none => collisionsFrom family ((identifier, name) :: taken) rest

/-- Names, paired with their identifiers, whose identifier a different name took first. -/
def collisions (family : NameFamily) (names : List (String × String)) : List Violation :=
  collisionsFrom family [] names

/-! ## The rules -/

namespace Schema

def hasLambda (s : Schema) (id : String) : Bool := s.lambdas.contains id

def headerViolations (s : Schema) : List Violation :=
  violates (s.version != "1.0") (.version s.version) ++
    violates s.name.isEmpty .emptyName ++
    violates (s.platform == .aws && s.region.isEmpty) .noRegion ++
    violates (s.platform == .aws && s.account.isEmpty) .noAccount

def lambdaViolations (s : Schema) (id : String) (l : Lambda) : List Violation :=
  violates l.file.isEmpty (.lambdaWithoutFile id) ++
    violates l.handler.isEmpty (.lambdaWithoutHandler id) ++
    violates (l.timeoutSec < 1 || 900 < l.timeoutSec) (.timeoutOutOfRange id l.timeoutSec) ++
    violates (l.memoryMb < 128) (.memoryTooSmall id l.memoryMb) ++
    l.permissions.flatMap fun d =>
      violates (d.resource.platform != s.platform) (.foreignPermission id d s.platform)

def libraryViolations (s : Schema) : List Violation :=
  s.libraryPermissions.flatMap fun d =>
    violates (d.resource.platform != s.platform) (.foreignLibraryPermission d s.platform)

/-- Rules for dynamic routes; `seen` holds the methods and paths met before. -/
def dynamicViolations (s : Schema) (seen : List (HttpMethod × UriPath)) :
    List DynamicRoute → List Violation
  | [] => []
  | r :: rest =>
      violates (!s.hasLambda r.lambda) (.routeToUnknownLambda r) ++
        violates (seen.contains (r.method, r.path)) (.duplicateRoute r.method r.path) ++
        dynamicViolations s ((r.method, r.path) :: seen) rest

/-- Rules for static routes; `seen` holds the paths met before. -/
def staticViolations (s : Schema) (seen : List UriPath) : List StaticRoute → List Violation
  | [] => []
  | r :: rest =>
      violates (s.platform != .aws) (.staticOffAws r.path) ++
        violates s.bucket.isNone (.staticWithoutBucket r.path) ++
        violates r.file.isEmpty (.staticWithoutFile r.path) ++
        violates (seen.contains r.path ||
            s.routes.dynamic.any fun d => d.method == .get && d.path == r.path)
          (.duplicateRoute .get r.path) ++
        staticViolations s (r.path :: seen) rest

def routeViolations (s : Schema) : List Violation :=
  violates ((!s.routes.dynamic.isEmpty || !s.routes.static.isEmpty) && s.api.isNone &&
      s.platform == .aws) .routesWithoutApi ++
    s.dynamicViolations [] s.routes.dynamic ++
    s.staticViolations [] s.routes.static

/-- Rules for timers; `seen` holds the ids met before. -/
def timerViolations (s : Schema) (seen : List String) : List Timer → List Violation
  | [] => []
  | t :: rest =>
      violates (seen.contains t.id) (.duplicateTimer t.id) ++
        violates (t.cron.toList.all Text.isBlank) (.blankCron t.id) ++
        violates (!s.hasLambda t.lambda) (.timerToUnknownLambda t) ++
        timerViolations s (t.id :: seen) rest

/-- The root and every prefix of a route path. -/
def namedPaths (s : Schema) : OrderedSet UriPath :=
  .ofList (.root :: s.routes.paths.flatMap UriPath.prefixes)

/-- Rules for names that become identifiers. -/
def identifierViolations (s : Schema) : List Violation :=
  collisions .lambdaIdentifier (s.lambdas.keys.map fun id => (id, Name.identifier [id])) ++
    collisions .lambdaFunctionName (s.lambdas.keys.map fun id => (id, Name.cloud [s.name, id])) ++
    collisions .pathIdentifier
      (s.namedPaths.toList.map fun p => (p.absolute, Name.identifier p.nameParts)) ++
    collisions .timerIdentifier (s.timers.map fun t => (t.id, t.fqId)) ++
    collisions .timerRuleName (s.timers.map fun t => (t.id, Name.cloud [s.name, t.fqId]))

/-- Rules for features that only AWS has. -/
def featureViolations (s : Schema) : List Violation :=
  match s.platform, s.api with
  | .azure, some api =>
      violates api.allowCors (.corsOffAws api.name) ++
        violates api.dns.isSome (.dnsOffAws api.name)
  | _, _ => []

/-- Every rule the schema breaks, in the order of the rules; a valid schema has none. -/
def violations (s : Schema) : List Violation :=
  s.headerViolations ++
    s.lambdas.entries.flatMap (fun entry => s.lambdaViolations entry.1 entry.2) ++
    s.libraryViolations ++
    s.routeViolations ++
    s.timerViolations [] s.timers ++
    s.identifierViolations ++
    s.featureViolations

end Schema
end InfraGraph
