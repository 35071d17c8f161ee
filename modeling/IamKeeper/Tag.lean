import IamKeeper.Json.Codec

namespace IamKeeper

structure Tag where
  key : String
  value : String
deriving Repr, DecidableEq

namespace Tag

open Json (Codec Member Record)

def codec : Codec Tag :=
  ((Record.start Tag.mk)
    |>.field (.required "key" Tag.key .string)
    |>.field (.defaulted "value" Tag.value .string "")).codec.described
    "A key/value pair attached to an IAM entity"

def table (tags : List Tag) : Table String :=
  Table.ofList (tags.map fun tag => (tag.key, tag.value))

/-- The same keys with the same values. -/
def same (a b : List Tag) : Bool :=
  table a = table b

end Tag

/-- What leads from one set of tags to another. -/
structure TagDelta where
  /-- Tags to set, in order of their keys. -/
  set : List Tag
  remove : List String
deriving Repr, DecidableEq

/-- The tags to set and the keys to remove to get from `latest` to `desired`. -/
def TagDelta.between (latest desired : List Tag) : TagDelta :=
  let latest := Tag.table latest
  let desired := Tag.table desired
  { set := (desired.entries.filter fun entry => latest.get? entry.1 ≠ some entry.2).map
      fun entry => ⟨entry.1, entry.2⟩
    remove := latest.keys.filter fun key => !desired.contains key }

end IamKeeper
