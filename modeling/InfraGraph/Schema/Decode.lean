import InfraGraph.Decode.Fields
import InfraGraph.Schema.Basic
import InfraGraph.Yaml.Format

/-!
# Decode — schemas from trees of a text format

* `Decode.schema` — a schema, with defaults for what is left out;
* `Decode.resource` — a declared resource on its own: its kind is read when it is met, everything
  else is held back and read as the fields of the kind at the end;
* `Decode.declaration` — a declaration, which is one flat mapping: level and source are read when
  they are met, everything else is held back, the kind too;
* `Schema.ofText`, `Declaration.listOfText` — a schema and declarations from YAML texts.
-/

namespace InfraGraph
namespace Decode

/-! ## Declarations -/

def heldText : Found → Decoded String
  | .text s => return s
  | found => .unplacedFault (.invalidType found "a string")

def kindFields : DeclaredKind → Fields Found DeclaredResource
  | .s3Bucket => .s3Bucket <$> .required "bucket" heldText
  | .ssmParameters => .ssmParameters <$> .required "prefix" heldText
  | .dynamoDbTable => .dynamoDbTable <$> .required "table" heldText
  | .sqsQueue => .sqsQueue <$> .required "queue" heldText
  | .cognito => .cognito <$> .required "user_pool" heldText
  | .secretManager => .secretManager <$> .required "pattern" heldText
  | .azureResource => .azureResource <$> .required "id" heldText
  | .azureStorageAccount =>
      .azureStorageAccount <$> .required "name" heldText <*> .required "resource_group" heldText

def kindNames : List (String × DeclaredKind) := named DeclaredKind.text DeclaredKind.all

/-- Kind given by a value that was held back: by its name, or by its number in the order of
kinds. -/
def heldKindOf : Found → Decoded DeclaredKind
  | .text s => lookupName kindNames s
  | .integer n =>
      if n < 0 then .unplacedFault (.invalidType (.integer n) Shape.expectedTag)
      else
        match DeclaredKind.all[n.toNat]? with
        | some kind => return kind
        | none => .unplacedFault (.invalidValue (.integer n) "variant index 0 <= i < 8")
  | found => .unplacedFault (.invalidType found Shape.expectedTag)

def heldKind : Option DeclaredKind → List (String × Found) → Decoded DeclaredKind
  | some kind, [] => return kind
  | none, [] => .unplacedFault (.missingField "kind")
  | met, (key, found) :: rest =>
      if key = "kind" then
        match met with
        | some _ => .unplacedFault (.duplicateField "kind")
        | none => do
            let kind ← heldKindOf found
            heldKind (some kind) rest
      else heldKind met rest

/-- Declared resource of a kind.  Its values have no steps, since what they were is known only after
all of them have been met. -/
def resourceOfKind (kind : DeclaredKind) (held : List (String × Found)) :
    Decoded DeclaredResource := (kindFields kind).ofPairs held

/-- Declared resource of values that were all held back. -/
def heldResource (held : List (String × Found)) : Decoded DeclaredResource := do
  resourceOfKind (← heldKind none held) (held.filter fun entry => entry.1 != "kind")

variable {ν : Type} [Format ν]

/-- Entries of a declared resource met so far. -/
structure ResourceSlots where
  kind : Option DeclaredKind
  held : List (String × Found)

namespace ResourceSlots

def take (slots : ResourceSlots) (key : String) (v : ν) : Decoded ResourceSlots :=
  if key = "kind" then
    match slots.kind with
    | some _ => .unplacedFault (.duplicateField "kind")
    | none => return { slots with kind := some (← lookupName kindNames (← Format.tag v)) }
  else return { slots with held := slots.held ++ [(key, ← Format.inspect v)] }

def takeMembers (slots : ResourceSlots) : List (Member ν) → Decoded ResourceSlots
  | [] => return slots
  | m :: rest => do
      let key ← m.key
      let slots ← (slots.take key m.value).under m.step
      takeMembers slots rest

def finish (slots : ResourceSlots) : Decoded DeclaredResource :=
  match slots.kind with
  | none => .unplacedFault (.missingField "kind")
  | some kind => resourceOfKind kind slots.held

end ResourceSlots

/-- A declared resource on its own; its kind is given by name.  A sequence without items lacks its
kind. -/
def resource (v : ν) : Decoded DeclaredResource :=
  Decoded.here do
    if let some items := Format.tuple? v then
      if (← items).isEmpty then Decoded.unplacedFault (.missingField "kind")
    let members ← Format.members (.tagged "DeclaredResource") v
    (← ResourceSlots.takeMembers ⟨none, []⟩ members).finish

def accessLevel : ν → Decoded AccessLevel := Format.name (named AccessLevel.text AccessLevel.all)

/-- Entries of a declaration met so far. -/
structure DeclarationSlots where
  level : Option AccessLevel
  source : Option (Option String)
  held : List (String × Found)

namespace DeclarationSlots

def take (slots : DeclarationSlots) (key : String) (v : ν) : Decoded DeclarationSlots :=
  if key = "level" then
    match slots.level with
    | some _ => .unplacedFault (.duplicateField "level")
    | none => return { slots with level := some (← accessLevel v) }
  else if key = "source" then
    match slots.source with
    | some _ => .unplacedFault (.duplicateField "source")
    | none => return { slots with source := some (← optional Format.text v) }
  else return { slots with held := slots.held ++ [(key, ← Format.inspect v)] }

def takeMembers (slots : DeclarationSlots) : List (Member ν) → Decoded DeclarationSlots
  | [] => return slots
  | m :: rest => do
      let key ← m.key
      let slots ← (slots.take key m.value).under m.step
      takeMembers slots rest

def finish (slots : DeclarationSlots) : Decoded Declaration :=
  match slots.level with
  | none => .unplacedFault (.missingField "level")
  | some level => do
      let resource ← heldResource slots.held
      return ⟨resource, level, slots.source.getD none⟩

end DeclarationSlots

def declaration (v : ν) : Decoded Declaration :=
  Decoded.here do
    let members ← Format.members (.record "PermissionDeclaration") v
    (← DeclarationSlots.takeMembers ⟨none, none, []⟩ members).finish

/-! ## API -/

def deployment : ν → Decoded Deployment :=
  record "DeploymentSpec" (Deployment.mk
    <$> .withDefault "name" none (optional Format.text)
    <*> .withDefault "version" Deployment.defaultVersion Format.text)

def dnsAlias : ν → Decoded DnsAlias :=
  record "DnsSpec" (DnsAlias.mk
    <$> .required "alias" Format.text
    <*> .required "zone" Format.text
    <*> .withDefault "certificate" none (optional Format.text))

def api : ν → Decoded Api :=
  record "ApiSpec" (Api.mk
    <$> .required "name" Format.text
    <*> .withDefault "allow_cors" false Format.flag
    <*> .withDefault "deployment" .unnamed deployment
    <*> .withDefault "dns" none (optional dnsAlias))

/-! ## Lambdas -/

def lambda : ν → Decoded Lambda :=
  record "LambdaSpec" (Lambda.mk
    <$> .required "file" Format.text
    <*> .required "handler" Format.text
    <*> .withDefault "memory_mb" Lambda.defaultMemoryMb Format.natural32
    <*> .withDefault "timeout_sec" Lambda.defaultTimeoutSec Format.natural32
    <*> .withDefault "runtime" Lambda.defaultRuntime Format.text
    <*> .withDefault "environment" .empty (map Format.text)
    <*> .withDefault "permissions" [] (list declaration))

/-! ## Routes -/

def path (v : ν) : Decoded UriPath := do
  let text ← Format.text v
  match UriPath.ofAbsolute? text with
  | some path => return path
  | none => .unplacedFault (.relativePath text)

def method : ν → Decoded HttpMethod := Format.name (named HttpMethod.text HttpMethod.all)

def dynamicRoute : ν → Decoded DynamicRoute :=
  record "DynamicRoute" (DynamicRoute.mk
    <$> .required "path" path
    <*> .required "method" method
    <*> .required "lambda" Format.text)

def staticRoute : ν → Decoded StaticRoute :=
  record "StaticRoute" (StaticRoute.mk
    <$> .required "path" path
    <*> .required "file" Format.text
    <*> .withDefault "mime" StaticRoute.defaultMime Format.text)

def routes : ν → Decoded Routes :=
  record "Routes" (Routes.mk
    <$> .withDefault "dynamic" [] (list dynamicRoute)
    <*> .withDefault "static" [] (list staticRoute))

/-! ## Timers -/

def timer : ν → Decoded Timer :=
  record "ScheduledEvent" (Timer.mk
    <$> .required "id" Format.text
    <*> .required "cron" Format.text
    <*> .required "lambda" Format.text)

def timers : ν → Decoded (List Timer) :=
  record "Events" (.withDefault "scheduled" [] (list timer))

/-! ## The schema -/

def platform : ν → Decoded Platform := Format.name (named Platform.text [.aws, .azure])

def schema : ν → Decoded Schema :=
  record "Schema" (Schema.mk
    <$> .required "version" Format.text
    <*> .required "name" Format.text
    <*> .withDefault "description" none (optional Format.text)
    <*> .withDefault "platform" .aws platform
    <*> .withDefault "region" "" Format.text
    <*> .withDefault "account" "" Format.text
    <*> .withDefault "bucket" none (optional Format.text)
    <*> .withDefault "api" none (optional api)
    <*> .withDefault "lambdas" .empty (map lambda)
    <*> .withDefault "routes" ⟨[], []⟩ routes
    <*> .withDefault "events" [] timers
    <*> .withDefault "library_permissions" [] (list declaration))

end Decode

/-! ## Texts -/

open Decode

namespace Schema

def ofText (text : String) : Except Failure Schema := Yaml.decode Decode.schema text

end Schema

namespace Declaration

def listOfText (text : String) : Except Failure (List Declaration) :=
  Yaml.decode (Decode.list Decode.declaration) text

end Declaration

end InfraGraph
