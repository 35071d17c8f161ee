import IamKeeper.Json.Codec

namespace IamKeeper

open Json (Codec Member Record)

/-- The object that a reference names; without a namespace it is one beside the referencing object. -/
structure ReferenceTarget where
  name : Option String
  space : Option String
deriving Repr, DecidableEq

def ReferenceTarget.codec : Codec ReferenceTarget :=
  ((Record.start ReferenceTarget.mk)
    |>.field (.nullable "name" ReferenceTarget.name .string)
    |>.field (.described
      (.nullable "namespace" ReferenceTarget.space .string)
      "Defaults to the namespace of the referencing object")).codec.described
    "Points at another custom resource managed by this controller"

structure Reference where
  target : Option ReferenceTarget
deriving Repr, DecidableEq

def Reference.codec : Codec Reference :=
  ((Record.start Reference.mk)
    |>.field (.nullable "from" Reference.target ReferenceTarget.codec)).codec

end IamKeeper
