import IamKeeper.Xml.Element

namespace IamKeeper.Xml

/-- What is looked for, and what is made of it; nothing, when a text is not of the form that it should have. -/
structure Reader (α : Type) where
  shape : Shape
  read : Content → Option α

/-- A reader of the members of an element. -/
structure Record (α : Type) where
  known : List (String × Shape)
  read : List (String × Content) → Option α

/-- Combined records look for the members of both; they give nothing when one of them does. -/
instance : Applicative Record where
  pure value := ⟨[], fun _ => some value⟩
  map f r := ⟨r.known, fun found => (r.read found).map f⟩
  seq f r := ⟨f.known ++ (r ()).known, fun found => (f.read found).bind ((r ()).read found).map⟩

namespace Reader

def text : Reader String where
  shape := .text
  read
    | .text content => content
    | .members _ => none

def written (read? : String → Option α) : Reader α where
  shape := .text
  read v := (text.read v).bind read?

def record (r : Record α) : Reader α where
  shape := .members r.known
  read
    | .members found => r.read found
    | .text _ => none

end Reader

namespace Record

/-- The members of a name, in order. -/
def all (name : String) (reader : Reader α) : Record (List α) where
  known := [(name, reader.shape)]
  read found := (inside name found).mapM reader.read

/-- Of several members of one name all are read, and the last counts. -/
def optional (name : String) (reader : Reader α) : Record (Option α) :=
  List.getLast? <$> all name reader

def required (name : String) (reader : Reader α) (default : α) : Record α :=
  (·.getD default) <$> optional name reader

/-- A member that is itself made of members; an absent one is read like an empty one. -/
def orEmpty (name : String) (r : Record α) : Record α where
  known := (optional name (.record r)).known
  read found := do
    match ← (optional name (.record r)).read found with
    | some value => return value
    | none => r.read []

def within (r : Record α) (e : Element) (tokens : List Token) : Option α :=
  r.read (e.find r.known tokens)

end Record

end IamKeeper.Xml
