import Chartkeeper.Resource.Api
/-!
# Packages

What a composition installs: where its chart is found, and the definition that the
composition's own kind was generated from.
-/

namespace Chartkeeper

/-- How to log in to a chart repository. -/
structure Credentials where
  username : String
  password : String
  deriving DecidableEq, Repr

namespace Credentials

def toJson (c : Credentials) : Json :=
  .ofRows [("username", .str c.username), ("password", .str c.password)]

def ofJson? (v : Json) : Option Credentials := do
  let r ← Row.ofJson? 2 v
  let username ← r.required 0 "username" Json.str?
  let password ← r.required 1 "password" Json.str?
  return ⟨username, password⟩

end Credentials

/-- The definition that a kind of compositions was generated from. -/
structure Definition where
  name : String
  namespaceName : String
  resource : ApiResource
  deriving DecidableEq, Repr, Inhabited

namespace Definition

def empty : Definition := ⟨"", "", ⟨"", "", ""⟩⟩

def toJson (d : Definition) : Json :=
  .ofRows [("name", .str d.name), ("namespace", .str d.namespaceName),
    ("gvr", d.resource.toJson)]

def ofJson? (v : Json) : Option Definition := do
  let r ← Row.ofJson? 3 v
  let name ← r.required 0 "name" Json.str?
  let namespaceName ← r.required 1 "namespace" Json.str?
  let resource ← r.required 2 "gvr" ApiResource.ofJson?
  return ⟨name, namespaceName, resource⟩

end Definition

/-- Where the chart of a composition is found. -/
structure Package where
  url : String
  repo : String
  version : String
  auth : Option Credentials
  skipTlsVerify : Bool
  definition : Definition
  deriving DecidableEq, Repr, Inhabited

namespace Package

def toJson (p : Package) : Json :=
  .ofRows [("url", .str p.url), ("repo", .str p.repo), ("version", .str p.version),
    ("auth", (p.auth.map Credentials.toJson).getD .null),
    ("insecure_skip_tls_verify", .bool p.skipTlsVerify),
    ("composition_definition", p.definition.toJson)]

/-- Reads the written form; only the URL is required. -/
def ofJson? (v : Json) : Option Package := do
  let r ← Row.ofJson? 6 v
  let url ← r.required 0 "url" Json.str?
  let repo ← r.defaulted 1 "repo" Json.str? ""
  let version ← r.defaulted 2 "version" Json.str? ""
  let auth ← r.optional 3 "auth" Credentials.ofJson?
  let skipTlsVerify ← r.defaulted 4 "insecure_skip_tls_verify" Json.bool? false
  let definition ← r.defaulted 5 "composition_definition" Definition.ofJson? .empty
  return ⟨url, repo, version, auth, skipTlsVerify, definition⟩

end Package

end Chartkeeper
