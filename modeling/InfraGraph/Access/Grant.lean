import InfraGraph.Collection.OrderedSet

/-!
# Grant — what a lambda may do

A grant names a service, a level of access and the patterns it covers.  Grants are collected in
sets, so structural equality is what merges them, and the order of the set is the order in which
policies list them: by service, then level, then patterns.

* `Platform` — the clouds an application can be deployed to;
* `AccessLevel`, `AwsService`, `AzureService`, `Service` — the vocabulary of a grant;
* `AwsService.readActions`, `AwsService.writeActions` — the actions of a service;
* `AzureService.role`, `AzureService.scope` — the role assignment of an Azure grant;
* `Grant` — a grant, and `Grant.baseline`, the one every application receives.
-/

namespace InfraGraph

/-! ## Platform -/

inductive Platform where
  | aws
  | azure
deriving DecidableEq, Inhabited

namespace Platform

def text : Platform → String
  | aws => "aws"
  | azure => "azure"

end Platform

/-! ## Level of access -/

inductive AccessLevel where
  | read
  | write
  | readWrite
deriving DecidableEq, Inhabited

namespace AccessLevel

def all : List AccessLevel := [read, write, readWrite]

def text : AccessLevel → String
  | read => "read"
  | write => "write"
  | readWrite => "read_write"

def rank : AccessLevel → Nat
  | read => 0
  | write => 1
  | readWrite => 2

theorem rank_injective {a b : AccessLevel} (h : a.rank = b.rank) : a = b := by
  cases a <;> cases b <;> simp_all [rank]

end AccessLevel

/-! ## AWS services -/

inductive AwsService where
  | s3
  | ssm
  | dynamoDb
  | dynamoDbIndex
  | sqsQueue
  | cognito
  | secretManager
  | cloudWatchLogs
deriving DecidableEq, Inhabited

namespace AwsService

def all : List AwsService :=
  [s3, ssm, dynamoDb, dynamoDbIndex, sqsQueue, cognito, secretManager, cloudWatchLogs]

def text : AwsService → String
  | s3 => "S3"
  | ssm => "Ssm"
  | dynamoDb => "DynamoDb"
  | dynamoDbIndex => "DynamoDbIndex"
  | sqsQueue => "SqsQueue"
  | cognito => "Cognito"
  | secretManager => "SecretManager"
  | cloudWatchLogs => "CloudWatchLogs"

def rank : AwsService → Nat
  | s3 => 0
  | ssm => 1
  | dynamoDb => 2
  | dynamoDbIndex => 3
  | sqsQueue => 4
  | cognito => 5
  | secretManager => 6
  | cloudWatchLogs => 7

/-- The services of AWS have the first eight places, so those of Azure can follow. -/
theorem rank_lt (s : AwsService) : s.rank < 8 := by
  cases s <;> simp [rank]

theorem rank_injective {a b : AwsService} (h : a.rank = b.rank) : a = b := by
  cases a <;> cases b <;> simp_all [rank]

/-- Word in front of the actions of the service. -/
def actionPrefix : AwsService → String
  | s3 => "s3"
  | ssm => "ssm"
  | dynamoDb => "dynamodb"
  | dynamoDbIndex => "dynamodb"
  | sqsQueue => "sqs"
  | cognito => "cognito-idp"
  | secretManager => "secretsmanager"
  | cloudWatchLogs => "logs"

/-- Resource name up to the pattern: a pattern follows after a colon. -/
def arn (region account : String) : AwsService → String
  | s3 => "arn:aws:s3::"
  | service => "arn:aws:" ++ service.actionPrefix ++ ":" ++ region ++ ":" ++ account

def readActions : AwsService → List String
  | s3 => ["Get*", "Describe*", "List*", "AbortMultipartUpload"]
  | ssm =>
      ["GetParameter", "GetParameters", "GetParameterHistory", "GetParametersByPath",
        "DescribeParameters"]
  | dynamoDb =>
      ["BatchGetItem", "GetItem", "TransactGetItems", "Query", "Scan", "Describe*", "List*"]
  | dynamoDbIndex => ["Query", "Scan"]
  | sqsQueue => ["Get*", "List*", "ReceiveMessage"]
  | cognito => ["AdminGetUser", "GetUser", "ListUsers"]
  | secretManager =>
      ["BatchGetSecretValue", "DescribeSecret", "GetRandomPassword", "GetResourcePolicy",
        "GetSecretValue", "ListSecretVersionIds", "ListSecrets"]
  | cloudWatchLogs =>
      ["GetLogEvents", "GetLogRecord", "GetLogGroupFields", "GetQueryResults",
        "DescribeLogGroups", "DescribeLogStreams", "DescribeMetricFilters"]

def writeActions : AwsService → List String
  | s3 =>
      ["Create*", "Delete*", "ObjectOwnerOverrideToBucketOwner", "Put*", "Replicate*", "Update*"]
  | ssm => ["DeleteParameter", "DeleteParameters", "PutParameter"]
  | dynamoDb =>
      ["BatchWriteItem", "PutItem", "TransactWriteItems", "Create*", "Delete*", "Restore*",
        "Update*", "TagResource", "UntagResource"]
  | dynamoDbIndex => []
  | sqsQueue => ["DeleteMessage", "PurgeQueue", "SendMessage"]
  | cognito =>
      ["AdminUpdateUserAttributes", "ChangePassword", "ConfirmForgotPassword", "DeleteUser",
        "SignUp", "UpdateUserAttributes"]
  | secretManager =>
      ["CancelRotateSecret", "CreateSecret", "DeleteSecret", "PutSecretValue", "RestoreSecret",
        "RotateSecret", "UpdateSecret", "UpdateSecretVersionStage"]
  | cloudWatchLogs =>
      ["CreateLogGroup", "DeleteLogGroup", "CreateLogStream", "DeleteLogStream", "PutLogEvents",
        "DeleteMetricFilter", "PutMetricFilter"]

/-- Actions a level selects, without the service's word. -/
def selected (service : AwsService) : AccessLevel → List String
  | .read => service.readActions
  | .write => service.writeActions
  | .readWrite => service.readActions ++ service.writeActions

/-- Actions a level selects, with the service's word. -/
def actions (service : AwsService) (level : AccessLevel) : OrderedSet String :=
  .ofList ((service.selected level).map fun action => service.actionPrefix ++ ":" ++ action)

end AwsService

/-! ## Azure services -/

inductive AzureService where
  | resource
  | storageAccount
  | insights
deriving DecidableEq, Inhabited

namespace AzureService

def all : List AzureService := [resource, storageAccount, insights]

def text : AzureService → String
  | resource => "Resource"
  | storageAccount => "StorageAccount"
  | insights => "Insights"

def rank : AzureService → Nat
  | resource => 0
  | storageAccount => 1
  | insights => 2

theorem rank_injective {a b : AzureService} (h : a.rank = b.rank) : a = b := by
  cases a <;> cases b <;> simp_all [rank]

/-- Built-in role assigned for a level. -/
def role : AzureService → AccessLevel → String
  | insights, .read => "Monitoring Reader"
  | insights, _ => "Monitoring Metrics Publisher"
  | _, .read => "Reader"
  | _, _ => "Contributor"

/-- Resource group and name of a storage account pattern, split at the first slash; without a
slash there is no group. -/
def groupAndName (pattern : String) : String × String :=
  let cs := pattern.toList
  match cs.dropWhile (fun c => c != '/') with
  | [] => ("", pattern)
  | _ :: name => (String.ofList (cs.takeWhile fun c => c != '/'), String.ofList name)

/-- Scope of a role assignment for a pattern within a subscription. -/
def scope (service : AzureService) (pattern subscription : String) : String :=
  match service with
  | resource => pattern
  | storageAccount =>
      let (group, name) := groupAndName pattern
      "/subscriptions/" ++ subscription ++ "/resourceGroups/" ++ group ++
        "/providers/Microsoft.Storage/storageAccounts/" ++ name
  | insights => "/subscriptions/" ++ subscription

end AzureService

/-! ## Services of either platform -/

inductive Service where
  | aws (service : AwsService)
  | azure (service : AzureService)
deriving DecidableEq, Inhabited

namespace Service

def text : Service → String
  | aws s => "aws:" ++ s.text
  | azure s => "azure:" ++ s.text

/-- Place in the order of services; those of AWS come first. -/
def rank : Service → Nat
  | aws s => s.rank
  | azure s => 8 + s.rank

/-- No two services have one place, so the order of grants tells services apart. -/
theorem rank_injective {a b : Service} (h : a.rank = b.rank) : a = b := by
  cases a with
  | aws s =>
      cases b with
      | aws t => exact congrArg aws (AwsService.rank_injective h)
      | azure t =>
          have := s.rank_lt
          simp only [rank] at h
          omega
  | azure s =>
      cases b with
      | aws t =>
          have := t.rank_lt
          simp only [rank] at h
          omega
      | azure t =>
          have : s.rank = t.rank := by
            simp only [rank] at h
            omega
          exact congrArg azure (AzureService.rank_injective this)

end Service

/-! ## Grants -/

structure Grant where
  service : Service
  level : AccessLevel
  patterns : OrderedSet String
deriving DecidableEq

namespace Grant

/-- Order of grants: by service, then level, then patterns. -/
def order : Grant → Grant → Ordering :=
  compareLex (compareOn fun g => g.service.rank)
    (compareLex (compareOn fun g => g.level.rank) (compareOn fun g => g.patterns.toList))

instance : Ord Grant := ⟨order⟩

instance : Std.TransOrd Grant :=
  inferInstanceAs (Std.TransCmp (compareLex (compareOn fun g : Grant => g.service.rank)
    (compareLex (compareOn fun g => g.level.rank) (compareOn fun g => g.patterns.toList))))

instance : Std.LawfulEqOrd Grant where
  eq_of_compare {a b} h := by
    have h' : (compareOn (fun g : Grant => g.service.rank) a b).then
        ((compareOn (fun g : Grant => g.level.rank) a b).then
          (compareOn (fun g : Grant => g.patterns.toList) a b)) = .eq := h
    rw [Ordering.then_eq_eq, Ordering.then_eq_eq] at h'
    obtain ⟨h₁, h₂, h₃⟩ := h'
    have e₁ : a.service = b.service :=
      Service.rank_injective (Std.LawfulEqOrd.eq_of_compare h₁)
    have e₂ : a.level = b.level :=
      AccessLevel.rank_injective (Std.LawfulEqOrd.eq_of_compare h₂)
    have e₃ : a.patterns = b.patterns :=
      OrderedSet.toList_injective (Std.LawfulEqOrd.eq_of_compare h₃)
    cases a
    cases b
    simp_all

def aws (service : AwsService) (level : AccessLevel) (pattern : String) : Grant :=
  ⟨.aws service, level, .singleton pattern⟩

def azure (service : AzureService) (level : AccessLevel) (pattern : String) : Grant :=
  ⟨.azure service, level, .singleton pattern⟩

/-- Grant every application on a platform receives: writing its own logs or metrics. -/
def baseline : Platform → Grant
  | .aws => aws .cloudWatchLogs .readWrite "*"
  | .azure => azure .insights .write "*"

def text (g : Grant) : String :=
  g.service.text ++ " " ++ g.level.text ++ " [" ++ ", ".intercalate g.patterns.toList ++ "]"

end Grant
end InfraGraph
