import InfraGraph.Command.Basic
import InfraGraph.Generation.Pass
import InfraGraph.Graph.Store
import InfraGraph.Resource.Plan
import InfraGraph.Schema.Decode
import InfraGraph.Schema.Violation

/-!
# Run — what commands do

* `Command.Error` — why a command fails, and `Command.Error.message`, how it is worded;
* `Command.lines` — the lines that a command prints when it succeeds;
* `Report`, `Command.run` — what a command prints and the status it exits with.

A command prints nothing before all of its work is done, so a failed one prints its error alone.
-/

namespace InfraGraph
namespace Command

/-! ## Failures -/

inductive Error where
  | projectExists (path : String)
  | noOutputDirectory (error : OsError)
  | unwritableFile (path : String) (error : OsError)
  | unreadableSchema (path : String) (error : OsError)
  | undecodableSchema (failure : Decode.Failure)
  /-- The schema breaks rules; they are counted where checking them was asked for. -/
  | invalidSchema (violations : List Violation) (counted : Bool)
  | unreadableLibrary (path : String) (error : OsError)
  | undecodableLibrary (path : String) (failure : Decode.Failure)
  | generation (error : GenerationError)
  | load (error : LoadError)
  | save (error : SaveError)

namespace Error

def message : Error → String
  | projectExists path => path ++ " already exists"
  | noOutputDirectory e => "cannot create out dir: " ++ e.message
  | unwritableFile path e => "cannot write " ++ path ++ ": " ++ e.message
  | unreadableSchema path e => "failed to read " ++ path ++ ": " ++ e.message
  | undecodableSchema f => "YAML parse error: " ++ f.located Yaml.wording
  | invalidSchema violations counted =>
      if counted then toString violations.length ++ " validation error(s)" else "validation failed"
  | unreadableLibrary path e => "cannot read library index " ++ path ++ ": " ++ e.message
  | undecodableLibrary path f =>
      "invalid library index " ++ path ++ ": " ++ f.located Yaml.wording
  | generation e => e.message
  | load e => e.message
  | save e => e.message

def lines : Error → List String
  | invalidSchema violations counted =>
      violations.map (fun v => "  ERROR: " ++ v.message) ++
        ["error: " ++ (invalidSchema violations counted).message]
  | e => ["error: " ++ e.message]

end Error

/-! ## Reading the inputs -/

def readSchema (file : String) : Attempt Error Schema := do
  let text ← Attempt.read file (.unreadableSchema file)
  Attempt.ofExcept .undecodableSchema (Schema.ofText text)

/-- The schema of a file, if it breaks no rule. -/
def readValidSchema (file : String) (counted : Bool) : Attempt Error Schema := do
  let s ← readSchema file
  match s.violations with
  | [] => return s
  | v :: rest => throw (.invalidSchema (v :: rest) counted)

/-- Declarations of the schema's libraries and of a library file. -/
def readLibrary (s : Schema) : Option String → Attempt Error (List Declaration)
  | none => return s.libraryWith []
  | some path => do
      let text ← Attempt.read path (.unreadableLibrary path)
      let further ← Attempt.ofExcept (.undecodableLibrary path) (Declaration.listOfText text)
      return s.libraryWith further

/-- The schema of a file, and everything that is generated from it. -/
def readPass (file : String) (library : Option String) : Attempt Error (Schema × Pass) := do
  let s ← readValidSchema file false
  let library ← readLibrary s library
  return (s, ← Attempt.ofExcept .generation (s.generate library))

/-! ## Subcommands -/

/-- Text of a new project's schema. -/
def projectText : String :=
  "\n".intercalate
    ["version: \"1.0\"", "name: my-app", "description: \"Generated by cloudgen\"",
      "platform: aws", "region: us-east-1", "account: \"000000000000\"", "", "api:",
      "  name: my-api", "  allow_cors: false", "", "lambdas: \x7b\x7d", "", "routes:",
      "  dynamic: []", "  static: []", "", "events:", "  scheduled: []", ""]

/-- Begin a project; a schema that is there is left alone. -/
def initLines (directory : String) : Attempt Error (List String) := do
  let file := Path.join directory "app.yaml"
  let out := Path.join directory "out"
  let there : Bool ← Attempt.ask (.isThere file)
  if there then throw (.projectExists file)
  Attempt.makeDirs out .noOutputDirectory
  Attempt.write file projectText (.unwritableFile file)
  return ["Initialized cloudgen project at " ++ directory, "  Created: " ++ file,
    "  Created: " ++ out ++ "/"]

def validateLines (file : String) : Attempt Error (List String) := do
  let s ← readValidSchema file true
  return ["OK: " ++ s.name ++ " (" ++ s.platform.text ++ ", " ++ toString s.lambdas.size ++
    " lambdas, " ++ toString s.routes.paths.length ++ " routes, " ++ toString s.timers.length ++
    " timers)"]

/-- What the grants of a lambda become on the platform. -/
def renderedLines (s : Schema) (grants : OrderedSet Grant) : List String :=
  match s.platform with
  | .aws =>
      let document := PolicyDocument.ofGrants grants s.region s.account
      ["  policy: " ++ toString document.statements.length ++ " statement(s)"]
  | .azure =>
      (RoleAssignment.ofGrants grants s.account).toList.map fun r =>
        "  role: " ++ r.role ++ " @ " ++ r.scope

def grantLines (s : Schema) (lambda : String) (grants : OrderedSet Grant) : List String :=
  (lambda ++ " (" ++ toString grants.size ++ " grants):") ::
    grants.toList.map (fun g => "  " ++ g.text) ++ renderedLines s grants

def permissionsLines (file : String) (library : Option String) : Attempt Error (List String) := do
  let s ← readValidSchema file false
  let library ← readLibrary s library
  let grants ← Attempt.ofExcept .generation (s.grants library)
  if grants.sorted.isEmpty then return ["No lambdas declared."]
  return grants.sorted.flatMap fun (lambda, set) => grantLines s lambda set

def shownPlan (p : Plan) : List String :=
  ["Planning: " ++ p.app ++ " (" ++ toString p.changes.length ++ " resources)", ""] ++
    p.changes.map (fun c => "  " ++ c.action.symbol ++ " " ++ c.description) ++
    ["", "Plan: " ++ toString p.toCreate.toNat ++ " to add, " ++ toString p.toUpdate.toNat ++
      " to change, " ++ toString p.toDestroy.toNat ++ " to destroy, " ++
      toString p.unchanged.toNat ++ " unchanged."]

/-- Show what generating would change. -/
def planLines (file out : String) (library : Option String) : Attempt Error (List String) := do
  let (s, pass) ← readPass file library
  let stored ← (Graph.load out).adapt Error.load
  return shownPlan (Plan.compare s.name pass.resources (Graph.resourcesOf stored))

def generateLines (file out : String) (library : Option String) : Attempt Error (List String) := do
  let (s, pass) ← readPass file library
  let seconds : UInt64 ← Attempt.ask .now
  let graph := Graph.ofResources s.name pass.resources pass.manifest seconds
  let path ← (graph.save out).adapt Error.save
  return ["Generated " ++ toString graph.resources.length ++ " resources, " ++
      toString graph.manifest.outputs.size ++ " outputs in " ++ toString pass.report.sweeps ++
      " sweep(s)",
    "  Digest: " ++ graph.digest, "  Wrote: " ++ path]

/-- Number of resources of each kind, in order of the kinds. -/
def kindCounts (rs : List Resource) : List (String × Nat) :=
  let kinds : OrderedSet String := .ofList (rs.map Resource.kind)
  kinds.toList.map fun kind => (kind, (rs.filter fun r => r.kind == kind).length)

def statusLines (out : String) : Attempt Error (List String) := do
  match ← (Graph.load out).adapt Error.load with
  | none => return ["No graph found. Run `cloudgen generate` first."]
  | some g =>
      return ["App: " ++ g.app, "  Generated: " ++ g.generatedAt, "  Generator: " ++ g.generator,
          "  Digest: " ++ g.digest, "  Resources: " ++ toString g.resources.length] ++
        (kindCounts g.resources).map (fun (kind, n) => "    " ++ kind ++ ": " ++ toString n) ++
        ["  Outputs: " ++ toString g.manifest.outputs.size]

def lines : Command → Attempt Error (List String)
  | init directory => initLines directory
  | validate file => validateLines file
  | permissions file library => permissionsLines file library
  | plan file out library => planLines file out library
  | generate file out library => generateLines file out library
  | status out => statusLines out

end Command

/-! ## Reports -/

structure Report where
  output : List String
  errors : List String
  status : UInt8
deriving DecidableEq

namespace Report

def textOf (lines : List String) : String := String.join (lines.map fun l => l ++ "\n")

/-- Report of a command that succeeds or fails. -/
def ofResult : Except Command.Error (List String) → Report
  | .ok lines => ⟨lines, [], 0⟩
  | .error e => ⟨[], e.lines, 1⟩

def usageStatus : UInt8 := 2

end Report

namespace Command

def run (c : Command) : Program Report := do
  return .ofResult (← c.lines.run)

end Command
end InfraGraph
