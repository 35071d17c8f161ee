import IamKeeper.Manager.Basic
import IamKeeper.Proofs.Attachments
import IamKeeper.Proofs.Convergence

namespace IamKeeper

open Iam Plan Manager

namespace Holder

/-- The policies of a holder as they are read. -/
structure Lists (h : Holder) (policies : List String) (inline : Table String) : Prop where
  attached : ∀ arn, arn ∈ policies ↔ arn ∈ h.attached
  inline : ∀ name, inline.get? name = h.inline name

/-- A holder has the attached policies and, up to equivalence of documents, the inline policies. -/
structure Grants (h : Holder) (policies : List String) (inline : Table String) : Prop where
  attached : ∀ arn, arn ∈ policies ↔ arn ∈ h.attached
  inline : ∀ name, SameDocument (inline.get? name) (h.inline name)

theorem Lists.grants_iff {h : Holder} {policies desired : List String} {inline wanted : Table String}
    (seen : h.Lists policies inline) :
    sameMembers desired policies = true ∧ sameInline wanted inline = true ↔
      h.Grants desired wanted := by
  rw [sameMembers_iff, sameInline_iff]
  constructor
  · intro h
    obtain ⟨attached, same⟩ := h
    exact ⟨fun arn => (attached arn).trans (seen.attached arn), fun name => seen.inline name ▸ same name⟩
  · intro h
    obtain ⟨attached, same⟩ := h
    exact ⟨fun arn => (attached arn).trans (seen.attached arn).symm,
      fun name => (seen.inline name).symm ▸ same name⟩

end Holder

section Parts

variable {directory : Directory} {a b : Account} {p : Principal} {h : Holder}
  {steps : List (Step world Account)} {α : Type} {out : α}

theorem run_readPolicies {rest : List String → Table String → Job α}
    (run : Run (Account.Answers directory) a (do
      let policies ← Job.iam (.listAttached p)
      let inline ← inlinePolicies p
      rest policies inline) steps (.ok out) b) (there : a p = some h) :
    ∃ policies inline steps', h.Lists policies inline ∧
      Run (Account.Answers directory) a (rest policies inline) steps' (.ok out) b := by
  obtain ⟨policies, _, _, _, hlist, hrest, -⟩ := run_bind_ok.mp run
  obtain ⟨rfl, k, hk, attached⟩ := Account.run_iam_ok hlist
  cases hk.symm.trans there
  obtain ⟨inline, _, _, _, hinline, hlast, -⟩ := run_bind_ok.mp hrest
  obtain ⟨rfl, same⟩ := run_inlinePolicies hinline there
  exact ⟨policies, inline, _, ⟨attached, same⟩, hlast⟩

theorem reads_inlinePolicies (p : Principal) : (inlinePolicies p).Asks Request.Reads := by
  have readInline (name : String) : (readInline p name).Asks Request.Reads :=
    Asks.bind ⟨rfl, fun _ => trivial⟩ fun _ => Asks.bind trivial fun _ => trivial
  exact Asks.bind ⟨rfl, fun _ => trivial⟩ fun names =>
    (asks_collect names fun name _ => readInline name).bind fun _ => trivial

theorem getsThrough_inlinePolicies (p : Principal) :
    Account.GetsThrough directory (inlinePolicies p) := by
  have readInline (name : String) : Account.GetsThrough directory (readInline p name) := by
    apply (Account.getsThrough_iam _).bind
    intro a b steps encoded run
    obtain ⟨-, _, -, document, -, escapes⟩ := Account.run_iam_ok run
    rw [Document.decode_of_escapes escapes]
    exact Account.getsThrough_pure _
  apply (Account.getsThrough_iam _).bind
  intro _ _ _ names _
  exact (Account.getsThrough_collect readInline names).bind fun _ => Account.getsThrough_pure _

theorem run_furnish {text : String} {policies : List String} {inline : Table String} {value : α}
    (run : Run (Account.Answers directory) a (do
      Job.info text
      syncAttached p policies []
      syncInline p inline ∅
      return value) steps (.ok out) b) (there : a p = some h)
    (bare : h.attached = ∅ ∧ h.inline = fun _ => none) :
    ∃ attached inlined, b = a.put p { h with attached, inline := inlined } ∧
      { h with attached, inline := inlined : Holder }.Grants policies inline := by
  obtain ⟨_, _, _, _, hnote, hrest, -⟩ := run_bind_ok.mp run
  obtain ⟨rfl, -⟩ := Account.run_note hnote
  obtain ⟨_, mid, _, _, hattach, hrest, -⟩ := run_bind_ok.mp hrest
  have hmid := run_syncAttached hattach there (by simp [bare.1])
  subst hmid
  obtain ⟨_, _, _, _, hput, hend, -⟩ := run_bind_ok.mp hrest
  obtain ⟨inlined, rfl, same⟩ := run_syncInline hput (Account.put_self ..) (by simp [bare.2])
  obtain ⟨-, -, rfl⟩ := run_pure.mp hend
  rw [Account.put_put]
  exact ⟨_, _, rfl, fun _ => Iff.rfl, same⟩

/-- The policies of a principal are brought in line. -/
theorem run_regrant {delta : Delta} {desired latest : List String} {wanted inline : Table String}
    {rest : Job α} (run : Run (Account.Answers directory) a (do
      whenDiffers delta "Spec.Policies" <| syncAttached p desired latest
      whenDiffers delta "Spec.InlinePolicies" <| syncInline p wanted inline
      rest) steps (.ok out) b) (there : a p = some h) (seen : h.Lists latest inline)
    (hpolicies : delta.differsAt "Spec.Policies" = !sameMembers desired latest)
    (hinline : delta.differsAt "Spec.InlinePolicies" = !sameInline wanted inline) :
    ∃ attached inlined steps', { h with attached, inline := inlined : Holder }.Grants desired wanted ∧
      Run (Account.Answers directory) (a.put p { h with attached, inline := inlined }) rest steps'
        (.ok out) b := by
  obtain ⟨_, mid, _, _, hattach, hrest, -⟩ := run_bind_ok.mp run
  have attached : mid = a.put p { h with attached := {arn | arn ∈ desired} } := by
    rw [← Account.put_same there] at hattach
    exact (listing_attached a p h).run_realign hattach seen.attached hpolicies
  subst attached
  obtain ⟨_, last, _, _, hput, hrest, -⟩ := run_bind_ok.mp hrest
  have inlined : ∃ inlined, last = a.put p
      { h with attached := {arn | arn ∈ desired}, inline := inlined } ∧
      ∀ name, SameDocument (wanted.get? name) (inlined name) := by
    rcases run_whenDiffers hinline hput with ⟨-, hput⟩ | ⟨same, rfl⟩
    · obtain ⟨inlined, rfl, same⟩ := run_syncInline hput (Account.put_self ..) seen.inline
      rw [Account.put_put]
      exact ⟨inlined, rfl, same⟩
    · have same := sameInline_iff.mp (by simpa using same)
      exact ⟨h.inline, rfl, fun name => seen.inline name ▸ same name⟩
  obtain ⟨inlined, rfl, same⟩ := inlined
  exact ⟨_, inlined, _, ⟨fun _ => Iff.rfl, same⟩, hrest⟩

/-- The boundary and the tags of a principal are brought in line. -/
theorem run_rebind {target : TagTarget} {delta : Delta} {boundary old : Option String}
    {desired latest : List Tag} {rest : Job α} (run : Run (Account.Answers directory) a (do
      whenDiffers delta "Spec.PermissionsBoundary" <| syncBoundary p boundary old
      whenDiffers delta "Spec.Tags" <| syncTags target desired latest
      rest) steps (.ok out) b) (there : a p = some h) (carried : target.principal? = some p)
    (bounded : old = h.boundary) (seen : ∀ key, (Tag.table latest).get? key = h.tags key)
    (hboundary : delta.differsAt "Spec.PermissionsBoundary" = !sameGiven boundary old)
    (htags : delta.differsAt "Spec.Tags" = !Tag.same desired latest) :
    ∃ bound steps', given bound = given boundary ∧
      Run (Account.Answers directory)
        (a.put p { h with boundary := bound, tags := (Tag.table desired).get? }) rest steps'
        (.ok out) b := by
  subst bounded
  obtain ⟨_, mid, _, _, hbound, hrest, -⟩ := run_bind_ok.mp run
  have bound : ∃ bound, mid = a.put p { h with boundary := bound } ∧
      given bound = given boundary := by
    rcases run_whenDiffers hboundary hbound with ⟨-, hbound⟩ | ⟨same, rfl⟩
    · exact run_syncBoundary hbound there
    · have same := sameGiven_iff.mp (by simpa using same)
      exact ⟨h.boundary, (Account.put_same there).symm, same.symm⟩
  obtain ⟨bound, rfl, same⟩ := bound
  obtain ⟨_, last, _, _, htag, hrest, -⟩ := run_bind_ok.mp hrest
  have tagged : last =
      a.put p { h with boundary := bound, tags := (Tag.table desired).get? } :=
    (tagging carried a { h with boundary := bound }).run_retag htag seen htags
  subst tagged
  exact ⟨bound, _, same, hrest⟩

/-- The path of a principal is brought in line, by whatever call moves principals of its kind. -/
theorem run_move {delta : Delta} {path : String} {step : Job Unit} {rest : Job α}
    (does : ∀ {a b steps h}, Run (Account.Answers directory) a step steps (.ok ()) b →
      a p = some h → b = a.put p { h with path })
    (run : Run (Account.Answers directory) a (do
      whenDiffers delta "Spec.Path" step
      rest) steps (.ok out) b) (there : a p = some h)
    (hpath : delta.differsAt "Spec.Path" = !sameGiven (some path) (some h.path)) :
    ∃ steps', Run (Account.Answers directory) (a.put p { h with path }) rest steps' (.ok out) b := by
  obtain ⟨_, mid, _, rest', hfirst, hrest, -⟩ := run_bind_ok.mp run
  rcases run_whenDiffers hpath hfirst with ⟨-, hfirst⟩ | ⟨same, rfl⟩
  · cases does hfirst there
    exact ⟨rest', hrest⟩
  · have same : h.path = path := sameGiven_some.mp (by simpa using same)
    subst same
    rw [Account.put_same there]
    exact ⟨rest', hrest⟩

theorem run_noteUpdate {what : String} {delta : Delta} {value : α}
    (run : Run (Account.Answers directory) a (do
      noteUpdate what delta
      return value) steps (.ok out) b) : b = a := by
  obtain ⟨_, _, _, _, hnote, hend, -⟩ := run_bind_ok.mp run
  obtain ⟨rfl, -⟩ := Account.run_note hnote
  exact (run_pure.mp hend).2.2

end Parts

end IamKeeper
