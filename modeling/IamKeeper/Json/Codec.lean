import IamKeeper.Json.Basic
import IamKeeper.Time.Instant

namespace IamKeeper.Json

open Time (Instant)

/-- The form of the values of a type in documents. -/
structure Codec (α : Type) where
  encode : α → Json
  decode : Json → Option α
  /-- The members of the schema of these documents. -/
  schema : Json

namespace Codec

variable {α β : Type}

def typeSchema (type : String) : Json :=
  .object [("type", .string type)]

def formatSchema (format type : String) : Json :=
  .object [("format", .string format), ("type", .string type)]

def string : Codec String where
  encode := .string
  decode
    | .string s => some s
    | _ => none
  schema := typeSchema "string"

def bool : Codec Bool where
  encode := .bool
  decode
    | .bool b => some b
    | _ => none
  schema := typeSchema "boolean"

def int32 : Codec Int32 where
  encode n := .int n.toInt
  decode
    | .number (.whole n) =>
      if Int32.minValue.toInt ≤ n ∧ n ≤ Int32.maxValue.toInt then some (Int32.ofInt n) else none
    | _ => none
  schema := formatSchema "int32" "integer"

def instant : Codec Instant where
  encode i := .string i.write
  decode
    | .string s => Instant.read? s
    | _ => none
  schema := formatSchema "date-time" "string"

def decodeItems (codec : Codec α) : List Json → Option (List α)
  | [] => some []
  | item :: items => do
    let value ← codec.decode item
    let values ← decodeItems codec items
    return value :: values

def list (codec : Codec α) : Codec (List α) where
  encode values := .array (values.map codec.encode)
  decode
    | .array items => codec.decodeItems items
    | _ => none
  schema := .object [("items", codec.schema), ("type", .string "array")]

def decodeEntries (codec : Codec α) : List (String × Json) → Option (List (String × α))
  | [] => some []
  | (name, member) :: members => do
    let value ← codec.decode member
    let values ← decodeEntries codec members
    return (name, value) :: values

def table (codec : Codec α) : Codec (Table α) where
  encode t := .object (t.entries.map fun entry => (entry.1, codec.encode entry.2))
  decode
    | .object members => (codec.decodeEntries members).map Table.ofList
    | _ => none
  schema := .object [("additionalProperties", codec.schema), ("type", .string "object")]

def nullable (codec : Codec α) : Codec (Option α) where
  encode := optional codec.encode
  decode
    | .null => some none
    | v => (codec.decode v).map some
  schema := codec.schema.setMember "nullable" (.bool true)

def named? (name : String) : List (String × α) → Option α
  | [] => none
  | (n, value) :: rest => if n = name then some value else named? name rest

/-- A choice among names; the name may also stand as the only member, null, of an object. -/
def choice (names : List (String × α)) (name : α → String) : Codec α where
  encode value := .string (name value)
  decode
    | .string s => named? s names
    | .object [(s, .null)] => named? s names
    | _ => none
  schema :=
    .object [("enum", strings (names.map (·.1))), ("type", .string "string")]

def described (codec : Codec α) (description : String) : Codec α :=
  { codec with schema := codec.schema.setMember "description" (.string description) }

end Codec

/-- One member of the records of type `R`. -/
structure Member (R α : Type) where
  name : String
  get : R → α
  codec : Codec α
  /-- What an absent member means; none where a member is required. -/
  absent : Option α
  /-- Whether the list form of a record may end before this member. -/
  trailing : Bool
  /-- The values that are left out of the written form. -/
  omitted : α → Bool

namespace Member

variable {R α : Type}

def required (name : String) (get : R → α) (codec : Codec α) : Member R α :=
  ⟨name, get, codec, none, false, fun _ => false⟩

/-- A member that may be absent or null, and is written as null. -/
def nullable (name : String) (get : R → Option α) (codec : Codec α) : Member R (Option α) :=
  ⟨name, get, codec.nullable, some none, false, fun _ => false⟩

/-- A member that may be absent or null, and is left out when there is no value. -/
def optional (name : String) (get : R → Option α) (codec : Codec α) : Member R (Option α) :=
  ⟨name, get, codec.nullable, some none, false, Option.isNone⟩

/-- A member with a default that is left out when it has it. -/
def omittable (name : String) (get : R → α) (codec : Codec α) (default : α)
    (omitted : α → Bool) : Member R α :=
  ⟨name, get, codec, some default, true, omitted⟩

/-- A member with a default that is always written; the schema names the default. -/
def defaulted (name : String) (get : R → α) (codec : Codec α) (default : α) : Member R α :=
  ⟨name, get, { codec with schema := codec.schema.setMember "default" (codec.encode default) },
    some default, true, fun _ => false⟩

def described (member : Member R α) (description : String) : Member R α :=
  { member with codec := member.codec.described description }

end Member

/-- The first members of the records of type `R`, with what they give of the record: `β` is the type
of the constructor behind them, and `R` itself when no member is missing. -/
structure Record (R β : Type) where
  value : R → β
  members : R → List (String × Json)
  fromMembers : List (String × Json) → Option β
  /-- Reads the members by place, with the items behind them. -/
  fromItems : List Json → Option (β × List Json)
  properties : List (String × Json)
  needed : List String

namespace Record

variable {R α β : Type}

def start (make : β) : Record R β where
  value _ := make
  members _ := []
  fromMembers _ := some make
  fromItems items := some (make, items)
  properties := []
  needed := []

/-- The value of a member by its name. -/
def readMember (member : Member R α) (members : List (String × Json)) : Option α :=
  match Entries.get? member.name members with
  | some v => member.codec.decode v
  | none => member.absent

/-- The value of a member by its place. -/
def readItem (member : Member R α) : List Json → Option (α × List Json)
  | [] => if member.trailing then member.absent.map (·, []) else none
  | item :: items => (member.codec.decode item).map (·, items)

def field (r : Record R (α → β)) (member : Member R α) : Record R β where
  value record := r.value record (member.get record)
  members record :=
    r.members record ++
      (if member.omitted (member.get record) then []
      else [(member.name, member.codec.encode (member.get record))])
  fromMembers members := do
    let make ← r.fromMembers members
    let value ← readMember member members
    return make value
  fromItems items := do
    let (make, items) ← r.fromItems items
    let (value, items) ← readItem member items
    return (make value, items)
  properties := r.properties ++ [(member.name, member.codec.schema)]
  needed := r.needed ++ if member.absent.isNone then [member.name] else []

/-- The schema of a record; what is needed is listed in order. -/
def schema (r : Record R β) : Json :=
  let needed := distinct r.needed
  ofMembers <|
    [("properties", ofMembers r.properties), ("type", .string "object")] ++
      if needed.isEmpty then [] else [("required", strings needed)]

/-- Records are objects, or the lists of their members in order; other members are ignored. -/
def codec (r : Record R R) : Codec R where
  encode record := ofMembers (r.members record)
  decode
    | .object members => r.fromMembers members
    | .array items =>
      match r.fromItems items with
      | some (record, []) => some record
      | _ => none
    | _ => none
  schema := r.schema

end Record

end IamKeeper.Json
