import IamKeeper.Resource.Kind

namespace IamKeeper.Kind

/-- A column of a listing, with where its text comes from. -/
def column (name path : String) : Json :=
  Json.ofMembers [("jsonPath", .string path), ("name", .string name), ("type", .string "string")]

def syncedColumn : Json :=
  column "Synced"
    s!".status.conditions[?(@.type==\"{ConditionType.synced.name}\")].status"

/-- The columns of a listing; service-linked roles show the name that IAM gave them. -/
def columns : Kind → List Json
  | serviceLinkedRole => [column "RoleName" ".status.roleName", syncedColumn]
  | _ => [syncedColumn]

variable (kind : Kind)

def schema : Json :=
  Json.ofMembers [
    ("title", .string kind.name),
    ("description", .string
      s!"Auto-generated derived type for {kind.name}Spec via `CustomResource`"),
    ("type", .string "object"),
    ("required", Json.strings ["spec"]),
    ("properties", Json.ofMembers [
      ("spec", kind.specCodec.schema),
      ("status", kind.statusCodec.nullable.schema)])]

def definitionVersion : Json :=
  Json.ofMembers [
    ("name", .string apiVersion),
    ("served", .bool true),
    ("storage", .bool true),
    ("additionalPrinterColumns", .array kind.columns),
    ("schema", Json.ofMembers [("openAPIV3Schema", kind.schema)]),
    ("subresources", Json.ofMembers [("status", .object [])])]

def definition : Json :=
  Json.ofMembers [
    ("apiVersion", .string "apiextensions.k8s.io/v1"),
    ("kind", .string "CustomResourceDefinition"),
    ("metadata", Json.ofMembers [("name", .string s!"{kind.plural}.{apiGroup}")]),
    ("spec", Json.ofMembers [
      ("group", .string apiGroup),
      ("names", Json.ofMembers [
        ("categories", .array []),
        ("kind", .string kind.name),
        ("plural", .string kind.plural),
        ("shortNames", .array []),
        ("singular", .string kind.singular)]),
      ("scope", .string "Namespaced"),
      ("versions", .array [kind.definitionVersion])])]

end IamKeeper.Kind
