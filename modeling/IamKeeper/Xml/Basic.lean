namespace IamKeeper.Xml

/-- What is looked for in an element: the text at its front, or elements of certain names, each of
a shape of its own. -/
inductive Shape where
  | text
  | members (known : List (String × Shape))
deriving Inhabited

inductive Content where
  /-- The text; none where it cannot be read. -/
  | text (content : Option String)
  /-- The elements of known names, in order. -/
  | members (found : List (String × Content))
deriving Inhabited

/-- The contents of the members of a name. -/
def inside (name : String) (found : List (String × Content)) : List Content :=
  (found.filter fun member => member.1 = name).map Prod.snd

end IamKeeper.Xml
