import InfraGraph.Aws.Publication

/-!
# DomainAlias — a domain name for the API

* `Aws.DomainAlias.producer` — certificate, zone, domain, mapping and record for the alias.
-/

namespace InfraGraph
namespace Aws
namespace DomainAlias

def name : String := "dns_alias"

def certificateKind : String := "data.aws_acm_certificate"

def zoneKind : String := "data.aws_route53_zone"

def domainKind : String := "aws_api_gateway_domain_name"

def mappingKind : String := "aws_api_gateway_base_path_mapping"

def recordKind : String := "aws_route53_record"

def certificate (d : DnsAlias) : Resource :=
  .ofFields certificateKind (Name.identifier [d.certificateDomain])
    [("domain", .text d.certificateDomain), ("statuses", .list [.text "ISSUED"])]

def zone (d : DnsAlias) : Resource :=
  .ofFields zoneKind (Name.identifier [d.zone])
    [("name", .text (d.zone ++ ".")), ("private_zone", .bool false)]

def domain (d : DnsAlias) (certificate : Resource) : Resource :=
  .ofFields domainKind (Name.identifier [d.fqdn])
    [("domain_name", .text d.fqdn), ("certificate_arn", .ref (certificate.attr "arn"))]

def mapping (d : DnsAlias) (rest : RestApiIds) (stage : Stage) (domain : Resource) : Resource :=
  (Resource.ofFields mappingKind (Name.identifier [d.fqdn])
    [("api_id", .ref rest.restApiId), ("stage_name", .text stage.name),
      ("domain_name", .ref (domain.attr "domain_name"))]).after [stage.deployment]

def record (d : DnsAlias) (zone domain : Resource) : Resource :=
  .ofFields recordKind (Name.identifier [d.fqdn])
    [("zone_id", .ref (zone.attr "zone_id")), ("name", .text d.host), ("type", .text "A"),
      ("alias", .ofPairs
        [("name", .ref (domain.attr "cloudfront_domain_name")),
          ("zone_id", .ref (domain.attr "cloudfront_zone_id")),
          ("evaluate_target_health", .bool false)])]

def generated (rest : RestApiIds) (stage : Stage) (d : DnsAlias) : Generated :=
  let certificate := certificate d
  let zone := zone d
  let domain := domain d certificate
  ⟨.dns d.fqdn,
    [certificate, zone, domain, mapping d rest stage domain, record d zone domain]⟩

def generateFor (ctx : Context) (d : DnsAlias) : Except GenerationError Generated := do
  let api ← ctx.api name (.dns d)
  let rest ← RestApi.ids ctx (.api api.name)
  let stage ← Publication.stage ctx api
  return generated rest stage d

def producer : Producer where
  name := name
  entities s := s.api.toList.flatMap fun api => api.dns.toList.map .dns
  mayRun ctx _ :=
    match ctx.schema.api with
    | some api => Publication.isThere ctx api
    | none => false
  generate ctx entity :=
    match entity with
    | .dns d => generateFor ctx d
    | _ => .error (.unexpectedEntity name entity.id)

end DomainAlias
end Aws
end InfraGraph
