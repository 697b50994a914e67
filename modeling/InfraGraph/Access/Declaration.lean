import InfraGraph.Access.Grant

/-!
# Declaration — access an application declares

The front end finds declarations in the code of a lambda or of a library.  A declaration names a
resource of one of eight kinds, a level, and where it was found.

* `DeclaredKind` — the kinds, with their name and the fields each of them has;
* `DeclaredResource` — a kind with its fields;
* `DeclaredResource.expand` — the grants a declaration stands for;
* `Declaration` — resource, level and source.
-/

namespace InfraGraph

/-! ## Kinds -/

inductive DeclaredKind where
  | s3Bucket
  | ssmParameters
  | dynamoDbTable
  | sqsQueue
  | cognito
  | secretManager
  | azureResource
  | azureStorageAccount
deriving DecidableEq, Inhabited

namespace DeclaredKind

def all : List DeclaredKind :=
  [s3Bucket, ssmParameters, dynamoDbTable, sqsQueue, cognito, secretManager, azureResource,
    azureStorageAccount]

def text : DeclaredKind → String
  | s3Bucket => "s3_bucket"
  | ssmParameters => "ssm_parameters"
  | dynamoDbTable => "dynamodb_table"
  | sqsQueue => "sqs_queue"
  | cognito => "cognito"
  | secretManager => "secret_manager"
  | azureResource => "azure_resource"
  | azureStorageAccount => "azure_storage_account"

def platform : DeclaredKind → Platform
  | azureResource => .azure
  | azureStorageAccount => .azure
  | _ => .aws

end DeclaredKind

/-! ## Resources -/

inductive DeclaredResource where
  | s3Bucket (bucket : String)
  | ssmParameters (path : String)
  | dynamoDbTable (table : String)
  | sqsQueue (queue : String)
  | cognito (userPool : String)
  | secretManager (pattern : String)
  | azureResource (id : String)
  | azureStorageAccount (name resourceGroup : String)
deriving DecidableEq

namespace DeclaredResource

def kind : DeclaredResource → DeclaredKind
  | s3Bucket _ => .s3Bucket
  | ssmParameters _ => .ssmParameters
  | dynamoDbTable _ => .dynamoDbTable
  | sqsQueue _ => .sqsQueue
  | cognito _ => .cognito
  | secretManager _ => .secretManager
  | azureResource _ => .azureResource
  | azureStorageAccount _ _ => .azureStorageAccount

def platform (r : DeclaredResource) : Platform := r.kind.platform

/-- Grants a declared resource stands for.  A table and its secondary indexes are granted
separately. -/
def expand (level : AccessLevel) : DeclaredResource → List Grant
  | s3Bucket bucket => [.aws .s3 level (bucket ++ "/*")]
  | ssmParameters path => [.aws .ssm level ("parameter/" ++ path ++ "*")]
  | dynamoDbTable table =>
      [.aws .dynamoDb level ("table/" ++ table),
        .aws .dynamoDbIndex level ("table/" ++ table ++ "/index/*")]
  | sqsQueue queue => [.aws .sqsQueue level queue]
  | cognito userPool => [.aws .cognito level ("userpool/" ++ userPool)]
  | secretManager pattern => [.aws .secretManager level pattern]
  | azureResource id => [.azure .resource level id]
  | azureStorageAccount name resourceGroup =>
      [.azure .storageAccount level (resourceGroup ++ "/" ++ name)]

end DeclaredResource

/-! ## Declarations -/

structure Declaration where
  resource : DeclaredResource
  level : AccessLevel
  /-- Where the front end found the declaration. -/
  source : Option String
deriving DecidableEq

namespace Declaration

/-- Source of a declaration for messages. -/
def location (d : Declaration) : String := d.source.getD "<unknown location>"

def grants (d : Declaration) : List Grant := d.resource.expand d.level

end Declaration
end InfraGraph
