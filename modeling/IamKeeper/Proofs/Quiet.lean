import IamKeeper.Proofs.Resolution
import IamKeeper.Proofs.Site

namespace IamKeeper

open Iam
open Plan hiding bind_assoc

namespace Job

theorem asks_iam (call : Call) (quiet : (Request.iam call).Quiet) :
    (iam call).Asks Request.Quiet :=
  ⟨quiet, fun _ => trivial⟩

theorem asks_note (level : Level) (text : String) : (note level text).Asks Request.Quiet :=
  ⟨rfl, fun _ => trivial⟩

end Job

open Job (asks_iam)

namespace Iam

theorem asks_readInline (p : Principal) (name : String) :
    (readInline p name).Asks Request.Quiet :=
  Asks.bind (asks_iam (.getInline p name) rfl) fun _ => Asks.bind trivial fun _ => trivial

theorem asks_inlinePolicies (p : Principal) : (inlinePolicies p).Asks Request.Quiet :=
  Asks.bind (asks_iam (.listInline p) rfl) fun _ =>
    (asks_collect _ fun name _ => asks_readInline p name).bind fun _ => trivial

end Iam

theorem Request.Refers.quiet {r : Request} (h : r.Refers) : r.Quiet := by
  cases r with
  | policy | role => rfl
  | _ => cases h

end IamKeeper
