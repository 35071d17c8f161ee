import IamKeeper.Proofs.Gateway.Oidc
import IamKeeper.Proofs.Gateway.Profile
import IamKeeper.Proofs.Gateway.Saml

namespace IamKeeper

open Iam Plan

namespace GatewayKind

/-- What is required of a spec. The URL of an OIDC provider does not name its scheme twice. -/
def Plain : (k : GatewayKind) → k.kind.Spec → Prop
  | oidcProvider, s => s.Plain
  | instanceProfile, _ | samlProvider, _ => True

/-- The gateway with a key that was `old` before is as a spec asks for. -/
@[reducible]
def Conforms : (k : GatewayKind) → k.kind.Spec → String → Option (Gateway k) → Gateway k → Prop
  | instanceProfile => InstanceProfileSpec.Conforms
  | oidcProvider => fun s _ _ => s.Conforms
  | samlProvider => fun s _ _ => s.Conforms

end GatewayKind

/-- A sync that gets through leaves the gateway as the resolved spec asks for, and every other gateway alone. From
then on no sync of the same spec, with the status that was given or any other that tells the key, makes a call
that changes anything, and each gets through unless a request of it fails. -/
theorem gateway_converges (k : GatewayKind) {directory : RoleDirectory} {g t : Gateways} {o : k.kind.Object}
    {steps : List (Step world Gateways)} {synced : Synced k.kind.Spec k.kind.Detail}
    (plain : k.Plain o.spec)
    (run : Run (Gateways.Answers directory) g (k.kind.manager.sync o) steps (.ok synced) t) :
    ∃ resolved lookups,
      Run (Gateways.Answers directory) g (k.kind.manager.resolve o) lookups (.ok resolved) g ∧
      ∃ key e,
        Settling.Leaves (Gateways.kept k) k.kind.key? k.Conforms g resolved.object synced t key e ∧
        ∀ status, k.kind.key? resolved.object.spec status = some key → ∀ again outcome u,
          Run (Gateways.Answers directory) t (k.kind.manager.sync { o with status }) again outcome u →
            Idles t again outcome u := by
  cases k with
  | instanceProfile => exact (InstanceProfileManager.settling directory).sync plain run
  | oidcProvider => exact (OidcProviderManager.settling directory).sync plain run
  | samlProvider => exact (SamlProviderManager.settling directory).sync plain run

/-- A provider that is to serve another client than it does. -/
def tokens : Kind.oidcProvider.Object where
  metadata := ⟨some "tokens", none, some "space", [], none⟩
  spec := ⟨"https://t.io/", ["new"], ["print"], []⟩
  status := some ⟨some (Identity.ofArn "arn:tokens"), [], default⟩

def tokensFor (clientIds : Set String) : Gateways :=
  Gateways.put (fun _ _ => none) .oidcProvider "arn:tokens"
    ⟨⟨"https://t.io", clientIds, {"print"}⟩, fun _ => none⟩

theorem gateway_converges_tokens :
    ∃ steps synced t key e,
      Run (Gateways.Answers fun _ _ => .ok none) (tokensFor {"old"}) (Kind.oidcProvider.manager.sync tokens)
        steps (.ok synced) t ∧
      t = (tokensFor {"old"}).put .oidcProvider key e ∧ tokens.spec.Conforms e := by
  have there (clientIds : Set String) : tokensFor clientIds .oidcProvider "arn:tokens" =
      some ⟨⟨"https://t.io", clientIds, {"print"}⟩, fun _ => none⟩ :=
    Gateways.put_self ..
  have found : (tokensFor {"old"}).Does (.getOidcProvider "arn:tokens")
      (some ⟨some "t.io", ["old"], ["print"], none⟩) (tokensFor {"old"}) := by
    refine ⟨rfl, ?_⟩
    rw [there]
    exact .some ⟨by decide, by simp, by simp⟩
  have tags : (tokensFor {"old"}).Does (.listTags (.oidcProvider "arn:tokens")) [] (tokensFor {"old"}) :=
    ⟨rfl, _, there _, fun _ => rfl⟩
  have added (clientIds : Set String) : (tokensFor clientIds).Does (.addClientId "arn:tokens" "new") ()
      (tokensFor (insert "new" clientIds)) :=
    ⟨_, there _, trivial, (Gateways.put_put ..).symm⟩
  have removed (clientIds : Set String) : (tokensFor clientIds).Does (.removeClientId "arn:tokens" "old") ()
      (tokensFor (clientIds \ {"old"})) :=
    ⟨_, there _, trivial, (Gateways.put_put ..).symm⟩
  have run : ∃ steps synced, Run (Gateways.Answers fun _ _ => .ok none) (tokensFor {"old"})
      (Kind.oidcProvider.manager.sync tokens) steps (.ok synced)
      (tokensFor (insert "new" {"old"} \ {"old"})) :=
    ⟨_, _, Job.run_ask (r := Request.iam (.getOidcProvider "arn:tokens")) (Except.ok (some _)) found <|
      Job.run_ask (r := Request.iam (.listTags (.oidcProvider "arn:tokens"))) (Except.ok _) tags <|
      Job.run_ask (r := Request.note _ _) () rfl <|
      Job.run_ask (r := Request.iam (.addClientId "arn:tokens" "new")) (Except.ok ()) (added _) <|
      Job.run_ask (r := Request.note _ _) () rfl <|
      Job.run_ask (r := Request.iam (.removeClientId "arn:tokens" "old")) (Except.ok ()) (removed _) <|
      Job.run_ask (r := Request.note _ _) () rfl .done⟩
  obtain ⟨steps, synced, run⟩ := run
  obtain ⟨resolved, _, hresolve, key, e, leaves, -⟩ :=
    gateway_converges .oidcProvider (show tokens.spec.Plain by unfold OidcProviderSpec.Plain; decide) run
  obtain ⟨-, h, -⟩ := run_pure.mp hresolve
  cases h
  exact ⟨steps, synced, _, key, e, run, leaves.only, leaves.conforms⟩

end IamKeeper
