import IamKeeper.Iam.Query.Client
import IamKeeper.Main
import IamKeeper.Proofs.Addressing
import IamKeeper.Proofs.Comparison
import IamKeeper.Proofs.ConditionHistory
import IamKeeper.Proofs.CreationForm
import IamKeeper.Proofs.Custody.History
import IamKeeper.Proofs.Defaults
import IamKeeper.Proofs.Document.Equivalence
import IamKeeper.Proofs.Document.Transitivity
import IamKeeper.Proofs.Encoding
import IamKeeper.Proofs.Finalizer
import IamKeeper.Proofs.Fixpoint
import IamKeeper.Proofs.Gateways
import IamKeeper.Proofs.Impartial
import IamKeeper.Proofs.Resumption.Hooks
import IamKeeper.Proofs.LinkedRole
import IamKeeper.Proofs.Pages
import IamKeeper.Proofs.Paths
import IamKeeper.Proofs.Policy.Convergence
import IamKeeper.Proofs.Principals
import IamKeeper.Proofs.Refusal
import IamKeeper.Proofs.Rename
import IamKeeper.Proofs.Requeue
import IamKeeper.Proofs.Rotation
import IamKeeper.Proofs.Teardown.Series
import IamKeeper.Proofs.Unresolved
import IamKeeper.Proofs.Update.Agreement
import IamKeeper.Reconcile.Pass
import IamKeeper.Resource.Definition
import IamKeeper.Settings
