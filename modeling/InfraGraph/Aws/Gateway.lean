import InfraGraph.Resource.Basic

/-!
# Gateway — resources that answer a method of a path

Dynamic routes, static routes and preflight handlers are made of the same four kinds of resources.
Each of them names the API and the path it belongs to, and all but the method itself refer to the
method they belong to.

* `Aws.Gateway.method` — a method of a path;
* `Aws.Gateway.part` — a resource that belongs to a method.
-/

namespace InfraGraph
namespace Aws
namespace Gateway

def methodKind : String := "aws_api_gateway_method"

def integrationKind : String := "aws_api_gateway_integration"

def methodResponseKind : String := "aws_api_gateway_method_response"

def integrationResponseKind : String := "aws_api_gateway_integration_response"

def permissionKind : String := "aws_lambda_permission"

/-- A method of a path, open to everyone. -/
def method (name restApiId resourceId httpMethod : String) : Resource :=
  .ofFields methodKind name
    [("rest_api_id", .ref restApiId), ("resource_id", .ref resourceId),
      ("http_method", .text httpMethod), ("authorization", .text "NONE")]

/-- A resource that belongs to a method. -/
def part (kind name restApiId resourceId : String) (method : Resource)
    (fields : List (String × FieldValue)) : Resource :=
  .ofFields kind name
    ([("rest_api_id", .ref restApiId), ("resource_id", .ref resourceId),
      ("http_method", .ref (method.attr "http_method"))] ++ fields)

end Gateway
end Aws
end InfraGraph
