import IamKeeper.Json.Codec

namespace IamKeeper

open Time (Instant)
open Json (Codec Member Record)

structure Metadata where
  name : Option String
  generateName : Option String
  space : Option String
  finalizers : List String
  deletion : Option Instant
deriving DecidableEq, Inhabited

namespace Metadata

abbrev Form : Type :=
  Json → Bool

def Form.of (codec : Codec α) : Form :=
  fun v => (codec.decode v).isSome

/-- The objects whose members, as far as they are named here and not null, have a form. -/
def Form.members (forms : List (String × Form)) : Form
  | .object members =>
    forms.all fun (name, form) =>
      match Entries.get? name members with
      | none | some .null => true
      | some v => form v
  | _ => false

def Form.list (form : Form) : Form
  | .array items => items.all form
  | _ => false

def Form.int64 : Form
  | .number (.whole n) => Int64.minValue.toInt ≤ n && n ≤ Int64.maxValue.toInt
  | _ => false

/-- An object that another one belongs to. -/
def ownerForm : Form :=
  .members [
    ("apiVersion", .of .string), ("kind", .of .string), ("name", .of .string),
    ("uid", .of .string), ("controller", .of .bool), ("blockOwnerDeletion", .of .bool)]

def managedForm : Form :=
  .members [
    ("apiVersion", .of .string), ("fieldsType", .of .string), ("manager", .of .string),
    ("operation", .of .string), ("subresource", .of .string), ("time", .of .instant)]

/-- What the API server keeps and is not kept here. -/
def restForm : Form :=
  .members [
    ("annotations", .of (.table .string)), ("creationTimestamp", .of .instant),
    ("deletionGracePeriodSeconds", .int64), ("generation", .int64),
    ("labels", .of (.table .string)), ("managedFields", .list managedForm),
    ("ownerReferences", .list ownerForm), ("resourceVersion", .of .string),
    ("selfLink", .of .string), ("uid", .of .string)]

/-- A list that may be absent or null when it is empty. -/
def finalizersCodec : Codec (List String) where
  encode := Json.strings
  decode v := (Codec.list Codec.string).nullable.decode v |>.map (·.getD [])
  schema := (Codec.list Codec.string).schema

def record : Record Metadata Metadata :=
  (Record.start Metadata.mk)
    |>.field (.optional "name" Metadata.name .string)
    |>.field (.optional "generateName" Metadata.generateName .string)
    |>.field (.optional "namespace" Metadata.space .string)
    |>.field (.omittable "finalizers" Metadata.finalizers finalizersCodec [] List.isEmpty)
    |>.field (.optional "deletionTimestamp" Metadata.deletion .instant)

def codec : Codec Metadata :=
  { record.codec with
    decode := fun v =>
      match v with
      | .object members => if restForm v then record.fromMembers members else none
      | _ => none }

/-- The name of an object, or what its name is to be made from. -/
def anyName (m : Metadata) : String :=
  (m.name <|> m.generateName).getD ""

end Metadata

end IamKeeper
