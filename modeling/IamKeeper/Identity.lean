import IamKeeper.Json.Codec
import IamKeeper.Text.Split

namespace IamKeeper

open Time (Instant)
open Json (Codec Member Record)

structure Identity where
  arn : Option String
  account : Option String
  region : Option String
deriving Repr, DecidableEq, Inhabited

namespace Identity

def codec : Codec Identity :=
  ((Record.start Identity.mk)
    |>.field (.nullable "arn" Identity.arn .string)
    |>.field (.nullable "ownerAccountID" Identity.account .string)
    |>.field (.nullable "region" Identity.region .string)).codec.described
    "Identity of the AWS resource backing a custom resource"

/-- The account of an ARN is its fifth part between colons, unless that is empty. -/
def accountOf (arn : String) : Option String :=
  match (Text.splitAt ':' arn.toList)[4]? with
  | some (c :: cs) => some (String.ofList (c :: cs))
  | _ => none

def ofArn (arn : String) : Identity :=
  ⟨some arn, accountOf arn, none⟩

end Identity

structure LastUsed where
  date : Option Instant
  region : Option String
deriving DecidableEq

def LastUsed.codec : Codec LastUsed :=
  ((Record.start LastUsed.mk)
    |>.field (.nullable "lastUsedDate" LastUsed.date .instant)
    |>.field (.nullable "region" LastUsed.region .string)).codec.described
    "Last use of a role as reported by IAM"

end IamKeeper
