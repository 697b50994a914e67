import InfraGraph.Proofs.Access
import Mathlib.Data.Set.Lattice

/-!
# What a policy allows

An action is allowed on a resource where one statement of the policy has both, so a statement with
several of each allows all their combinations.  The policy of a list of declarations allows what
the declarations ask for and the baseline, and no other combination.

* `PolicyDocument.allowed`, `Declaration.asked` — what is allowed, and what is asked for;
* `PolicyDocument.allowed_ofGrants` — a policy allows what its grants do, each by itself;
* `Declaration.policy_exact` — the policy of a list of declarations.
-/

namespace InfraGraph

/-! ## Actions of a level -/

namespace AwsService

/-- A level selects the actions of reading unless it is for writing alone, and those of writing
unless it is for reading alone. -/
def Selects (service : AwsService) (level : AccessLevel) (word : String) : Prop :=
  word ∈ service.readActions ∧ level ≠ .write ∨ word ∈ service.writeActions ∧ level ≠ .read

instance (service : AwsService) (level : AccessLevel) (word : String) :
    Decidable (service.Selects level word) :=
  inferInstanceAs (Decidable (_ ∧ _ ∨ _ ∧ _))

/-- The words of a service are selected as the levels say. -/
theorem mem_selected {service : AwsService} {level : AccessLevel} {word : String} :
    word ∈ service.selected level ↔ service.Selects level word := by
  cases level <;> simp [selected, Selects]

/-- Combinations of the actions that a level selects with one resource. -/
def on (service : AwsService) (level : AccessLevel) (arn : String) : Set (String × String) :=
  {pair | ∃ word, service.Selects level word ∧ pair = (service.actionPrefix ++ ":" ++ word, arn)}

/-- Every action is combined with the one resource. -/
theorem mem_on_iff {service : AwsService} {level : AccessLevel} {arn : String}
    {pair : String × String} :
    pair ∈ service.on level arn ↔ pair.1 ∈ service.actions level ∧ pair.2 = arn := by
  constructor
  · rintro ⟨word, hword, rfl⟩
    exact ⟨OrderedSet.mem_ofList.mpr (List.mem_map_of_mem (mem_selected.mpr hword)), rfl⟩
  · rintro ⟨haction, harn⟩
    obtain ⟨word, hword, hprefixed⟩ := List.mem_map.mp (OrderedSet.mem_ofList.mp haction)
    exact ⟨word, mem_selected.mp hword, Prod.ext hprefixed.symm harn⟩

/-- Reading and writing together select what each of them does. -/
theorem on_readWrite (service : AwsService) (arn : String) :
    service.on .readWrite arn = service.on .read arn ∪ service.on .write arn := by
  ext pair
  constructor
  · rintro ⟨word, ⟨hread, -⟩ | ⟨hwrite, -⟩, rfl⟩
    · exact Or.inl ⟨word, Or.inl ⟨hread, by decide⟩, rfl⟩
    · exact Or.inr ⟨word, Or.inr ⟨hwrite, by decide⟩, rfl⟩
  · rintro (⟨word, ⟨hread, -⟩ | ⟨-, hne⟩, rfl⟩ | ⟨word, ⟨-, hne⟩ | ⟨hwrite, -⟩, rfl⟩)
    · exact ⟨word, Or.inl ⟨hread, by decide⟩, rfl⟩
    · exact absurd rfl hne
    · exact absurd rfl hne
    · exact ⟨word, Or.inr ⟨hwrite, by decide⟩, rfl⟩

end AwsService

/-! ## What grants and policies allow -/

/-- Combinations of action and resource that a grant allows. -/
def Grant.allowed (region account : String) (g : Grant) : Set (String × String) :=
  {pair | ∃ service, g.service = .aws service ∧
    ∃ p ∈ g.patterns, pair ∈ service.on g.level (service.arn region account ++ ":" ++ p)}

/-- An AWS grant allows the actions of its level on the one resource of its pattern. -/
theorem Grant.allowed_aws (region account : String) (service : AwsService) (level : AccessLevel)
    (p : String) :
    (Grant.aws service level p).allowed region account =
      service.on level (service.arn region account ++ ":" ++ p) := by
  ext pair
  simp [Grant.allowed, Grant.aws]

theorem Grant.allowed_azure (region account : String) (service : AzureService)
    (level : AccessLevel) (p : String) :
    (Grant.azure service level p).allowed region account = ∅ := by
  ext pair
  simp [Grant.allowed, Grant.azure]

namespace PolicyDocument

/-- Combinations of action and resource that stand together in one statement. -/
def allowed (d : PolicyDocument) : Set (String × String) :=
  {pair | ∃ s ∈ d.statements, pair.1 ∈ s.actions ∧ pair.2 ∈ s.resources}

/-- A grant is one statement, which is left out only where it would allow nothing. -/
theorem mem_allowed_statement? {region account : String} {g : Grant} {pair : String × String} :
    (∃ s, statement? region account g = some s ∧ pair.1 ∈ s.actions ∧ pair.2 ∈ s.resources) ↔
      pair ∈ g.allowed region account := by
  unfold Grant.allowed statement?
  cases hservice : g.service with
  | azure service => simp
  | aws service =>
      simp only [Set.mem_ofPred_eq, Service.aws.injEq, exists_eq_left', AwsService.mem_on_iff]
      by_cases hnone : (service.actions g.level).toList.isEmpty
      · have hempty : (service.actions g.level).toList = [] := List.isEmpty_iff.mp hnone
        simp [hempty, OrderedSet.mem_def]
      · simp only [hnone, Bool.false_eq_true, if_false, Option.some.injEq, exists_eq_left',
          List.mem_map, OrderedSet.mem_def]
        constructor
        · rintro ⟨haction, p, hp, harn⟩
          exact ⟨p, hp, haction, harn.symm⟩
        · rintro ⟨p, hp, haction, harn⟩
          exact ⟨haction, p, hp, harn.symm⟩

/-- A policy allows what its grants allow, each by itself. -/
theorem allowed_ofGrants (grants : OrderedSet Grant) (region account : String) :
    (ofGrants grants region account).allowed = ⋃ g ∈ grants, g.allowed region account := by
  ext pair
  simp only [Set.mem_iUnion, exists_prop]
  constructor
  · rintro ⟨s, hs, hpair⟩
    obtain ⟨g, hg, hstatement⟩ := List.mem_filterMap.mp hs
    exact ⟨g, hg, mem_allowed_statement?.mp ⟨s, hstatement, hpair⟩⟩
  · rintro ⟨g, hg, hpair⟩
    obtain ⟨s, hstatement, hpair⟩ := mem_allowed_statement?.mpr hpair
    exact ⟨s, List.mem_filterMap.mpr ⟨g, hg, hstatement⟩, hpair⟩

end PolicyDocument

/-! ## What declarations ask for -/

/-- Services and full resource names that a declared resource stands for; a table has its indexes
besides.  Resources of another platform stand for none. -/
def DeclaredResource.names (region account : String) :
    DeclaredResource → List (AwsService × String)
  | s3Bucket bucket => [(.s3, "arn:aws:s3:::" ++ bucket ++ "/*")]
  | ssmParameters path =>
      [(.ssm, "arn:aws:ssm:" ++ region ++ ":" ++ account ++ ":parameter/" ++ path ++ "*")]
  | dynamoDbTable table =>
      [(.dynamoDb, "arn:aws:dynamodb:" ++ region ++ ":" ++ account ++ ":table/" ++ table),
        (.dynamoDbIndex,
          "arn:aws:dynamodb:" ++ region ++ ":" ++ account ++ ":table/" ++ table ++ "/index/*")]
  | sqsQueue queue => [(.sqsQueue, "arn:aws:sqs:" ++ region ++ ":" ++ account ++ ":" ++ queue)]
  | cognito userPool =>
      [(.cognito, "arn:aws:cognito-idp:" ++ region ++ ":" ++ account ++ ":userpool/" ++ userPool)]
  | secretManager pattern =>
      [(.secretManager, "arn:aws:secretsmanager:" ++ region ++ ":" ++ account ++ ":" ++ pattern)]
  | azureResource _ => []
  | azureStorageAccount _ _ => []

/-- The grants of a declared resource allow the actions of their level on its names. -/
theorem DeclaredResource.allowed_expand (region account : String) (level : AccessLevel)
    (r : DeclaredResource) :
    ⋃ g ∈ r.expand level, g.allowed region account =
      ⋃ named ∈ r.names region account, named.1.on level named.2 := by
  -- a grant writes the name in two parts, the second one with the word of its kind
  have hword : ∀ word rest : String, ":" ++ (word ++ rest) = ":" ++ word ++ rest :=
    fun word rest => (String.append_assoc ..).symm
  cases r with
  | s3Bucket bucket =>
      simp [expand, names, Grant.allowed_aws, AwsService.arn, String.append_assoc]
  | ssmParameters path =>
      simp [expand, names, Grant.allowed_aws, AwsService.arn, AwsService.actionPrefix,
        String.append_assoc, hword "parameter/"]
  | dynamoDbTable table =>
      simp [expand, names, Grant.allowed_aws, AwsService.arn, AwsService.actionPrefix,
        String.append_assoc, hword "table/"]
  | sqsQueue queue =>
      simp [expand, names, Grant.allowed_aws, AwsService.arn, AwsService.actionPrefix]
  | cognito userPool =>
      simp [expand, names, Grant.allowed_aws, AwsService.arn, AwsService.actionPrefix,
        String.append_assoc, hword "userpool/"]
  | secretManager pattern =>
      simp [expand, names, Grant.allowed_aws, AwsService.arn, AwsService.actionPrefix]
  | azureResource id => simp [expand, names, Grant.allowed_azure]
  | azureStorageAccount name resourceGroup => simp [expand, names, Grant.allowed_azure]

namespace Declaration

/-- Combinations of action and resource that a declaration asks for. -/
def asked (region account : String) (d : Declaration) : Set (String × String) :=
  ⋃ named ∈ d.resource.names region account, named.1.on d.level named.2

/-- Combinations that every application is allowed: reading and writing any log. -/
def logs (region account : String) : Set (String × String) :=
  AwsService.cloudWatchLogs.on .readWrite ("arn:aws:logs:" ++ region ++ ":" ++ account ++ ":*")

def policy (ds : List Declaration) (region account : String) :
    Except GenerationError PolicyDocument :=
  (fun grants => PolicyDocument.ofGrants grants region account) <$> aggregate ds .aws

theorem allowed_baseline (region account : String) :
    (Grant.baseline .aws).allowed region account = logs region account := by
  rw [Grant.baseline, Grant.allowed_aws, logs]
  simp [AwsService.arn, AwsService.actionPrefix, String.append_assoc]

variable {ds : List Declaration} {region account : String}

/-- Declarations for AWS have a policy, which allows what they ask for, and logs. -/
theorem exists_policy (haws : ∀ d ∈ ds, d.resource.platform = .aws) :
    ∃ document, policy ds region account = .ok document ∧
      document.allowed = (⋃ d ∈ ds, d.asked region account) ∪ logs region account := by
  refine ⟨_, by rw [policy, aggregate_eq_ok haws]; rfl, ?_⟩
  have hasked : ⋃ g ∈ ds.flatMap grants, g.allowed region account =
      ⋃ d ∈ ds, d.asked region account := by
    calc ⋃ g ∈ ds.flatMap grants, g.allowed region account
        = ⋃ d ∈ ds, ⋃ g ∈ d.grants, g.allowed region account := by
          ext pair
          simp only [Set.mem_iUnion, List.mem_flatMap, exists_prop]
          tauto
      _ = ⋃ d ∈ ds, d.asked region account := by
          simp only [grants, DeclaredResource.allowed_expand, asked]
  rw [PolicyDocument.allowed_ofGrants, ← hasked, ← allowed_baseline, Set.union_comm]
  simp only [OrderedSet.mem_ofList, List.mem_cons, Set.iUnion_iUnion_eq_or_left]

/-- Reading and writing one resource ask for what both at once do. -/
theorem asked_readWrite (r : DeclaredResource) (source₁ source₂ source₃ : Option String) :
    asked region account ⟨r, .readWrite, source₃⟩ =
      asked region account ⟨r, .read, source₁⟩ ∪ asked region account ⟨r, .write, source₂⟩ := by
  simp only [asked, AwsService.on_readWrite, Set.iUnion_union_distrib]

/-- Order and repetition of declarations leave no trace in their policy. -/
theorem policy_congr {es : List Declaration} (haws : ∀ d ∈ ds, d.resource.platform = .aws)
    (hmem : ∀ d, d ∈ es ↔ d ∈ ds) : policy es region account = policy ds region account := by
  have hgrants : OrderedSet.ofList (Grant.baseline .aws :: es.flatMap grants) =
      OrderedSet.ofList (Grant.baseline .aws :: ds.flatMap grants) := by
    ext g
    simp only [OrderedSet.mem_ofList, List.mem_cons, List.mem_flatMap, hmem]
  have haws' : ∀ d ∈ es, d.resource.platform = .aws := fun d hd => haws d ((hmem d).mp hd)
  rw [policy, policy, aggregate_eq_ok haws, aggregate_eq_ok haws', hgrants]

/-- The policy of declarations allows what they ask for, the baseline and nothing else.  So reading
and writing a resource may be declared apart or at once, and the text of the policy does not depend
on the order of the declarations or on how often they are made. -/
theorem policy_exact (ds : List Declaration) (region account : String)
    (haws : ∀ d ∈ ds, d.resource.platform = .aws) :
    ∃ document, policy ds region account = .ok document ∧
      document.allowed = (⋃ d ∈ ds, d.asked region account) ∪ logs region account ∧
      (∀ (r : DeclaredResource) (source₁ source₂ source₃ : Option String),
        r.platform = .aws →
        ∃ apart together,
          policy (⟨r, .read, source₁⟩ :: ⟨r, .write, source₂⟩ :: ds) region account = .ok apart ∧
          policy (⟨r, .readWrite, source₃⟩ :: ds) region account = .ok together ∧
          apart.allowed = together.allowed) ∧
      ∀ es : List Declaration, (∀ d, d ∈ es ↔ d ∈ ds) →
        ∃ other, policy es region account = .ok other ∧ other.text = document.text := by
  obtain ⟨document, hdocument, hallowed⟩ := exists_policy haws
  refine ⟨document, hdocument, hallowed, ?_, ?_⟩
  · intro r source₁ source₂ source₃ hr
    have haws₁ : ∀ d ∈ (⟨r, .readWrite, source₃⟩ : Declaration) :: ds,
        d.resource.platform = .aws := List.forall_mem_cons.mpr ⟨hr, haws⟩
    have haws₂ : ∀ d ∈ (⟨r, .read, source₁⟩ : Declaration) :: ⟨r, .write, source₂⟩ :: ds,
        d.resource.platform = .aws :=
      List.forall_mem_cons.mpr ⟨hr, List.forall_mem_cons.mpr ⟨hr, haws⟩⟩
    obtain ⟨together, htogether, hboth⟩ := exists_policy haws₁
    obtain ⟨apart, hapart, heach⟩ := exists_policy haws₂
    refine ⟨apart, together, hapart, htogether, ?_⟩
    simp only [List.mem_cons, Set.iUnion_iUnion_eq_or_left] at hboth heach
    rw [heach, hboth, asked_readWrite r source₁ source₂]
    simp only [Set.union_assoc]
  · intro es hmem
    exact ⟨document, by rw [policy_congr haws hmem, hdocument], rfl⟩

/-- A table that is read and written, and a bucket that is written. -/
def users : List Declaration :=
  [⟨.dynamoDbTable "users", .readWrite, none⟩, ⟨.s3Bucket "site", .write, some "Users.kt:12"⟩]

/-- The indexes of the table are queried, and never written. -/
theorem policy_exact_users :
    ∃ document, policy users "eu-west-1" "123" = .ok document ∧
      ("dynamodb:Query", "arn:aws:dynamodb:eu-west-1:123:table/users/index/*") ∈
        document.allowed ∧
      ¬("dynamodb:PutItem", "arn:aws:dynamodb:eu-west-1:123:table/users/index/*") ∈
        document.allowed := by
  obtain ⟨document, hdocument, hallowed, -⟩ := policy_exact users "eu-west-1" "123" (by decide)
  refine ⟨document, hdocument, ?_⟩
  rw [hallowed]
  constructor
  · left
    simp only [users, asked, DeclaredResource.names, Set.mem_iUnion, exists_prop]
    exact ⟨_, List.mem_cons_self, _, List.mem_cons_of_mem _ List.mem_cons_self, "Query",
      by decide, rfl⟩
  · simp only [asked, logs, Set.mem_union, Set.mem_iUnion, exists_prop]
    rintro (⟨d, hd, named, hnamed, word, hword, hpair⟩ | ⟨word, -, hpair⟩)
    · have hnames : ∀ d ∈ users, ∀ named ∈ d.resource.names "eu-west-1" "123",
          "arn:aws:dynamodb:eu-west-1:123:table/users/index/*" = named.2 →
            named.1 = .dynamoDbIndex := by decide
      have hindex : named.1 = .dynamoDbIndex := hnames d hd named hnamed (congrArg Prod.snd hpair)
      rw [hindex] at hword hpair
      -- there are no actions of writing an index
      have hread : word ∈ AwsService.readActions .dynamoDbIndex := by
        simpa [AwsService.Selects, AwsService.writeActions] using hword.imp And.left And.left
      have hqueries : ∀ word ∈ AwsService.readActions .dynamoDbIndex,
          "dynamodb:PutItem" ≠ AwsService.actionPrefix .dynamoDbIndex ++ ":" ++ word := by decide
      exact hqueries word hread (congrArg Prod.fst hpair)
    · have harn : "arn:aws:dynamodb:eu-west-1:123:table/users/index/*" =
          "arn:aws:logs:" ++ "eu-west-1" ++ ":" ++ "123" ++ ":*" := congrArg Prod.snd hpair
      exact absurd harn (by decide)

end Declaration
end InfraGraph
