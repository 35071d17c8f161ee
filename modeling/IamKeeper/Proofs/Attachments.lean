import IamKeeper.Iam.Attachments
import IamKeeper.Iam.Tags
import IamKeeper.Proofs.Account
import IamKeeper.Proofs.Listing
import IamKeeper.Proofs.Tagging

namespace IamKeeper.Iam

open Plan

variable {directory : Directory} {a b : Account} {p : Principal} {h : Holder}
  {steps : List (Step world Account)}

theorem run_noted_iam {text : String} (call : Call) {result : call.Result}
    (run : Run (Account.Answers directory) a (do Job.debug text; Job.iam call) steps
      (.ok result) b) : a.Does call result b :=
  Job.run_noted_iam (fun _ _ _ _ noted => noted) run

theorem listing_attached (a : Account) (p : Principal) (h : Holder) :
    Listing (Account.Answers directory) (attach p) (detach p) fun attached => a.put p { h with attached } where
  add run := by
    rw [(run_noted_iam (.attach p _) run).eq (Account.put_self ..), Account.put_put]
  remove run := by
    rw [(run_noted_iam (.detach p _) run).eq (Account.put_self ..), Account.put_put]

theorem run_putInline {inline : String → Option String} {entry : String × String}
    (run : Run (Account.Answers directory) (a.put p { h with inline }) (putInline p entry.1 entry.2) steps
      (.ok ()) b) :
    b = a.put p { h with inline := Function.update inline entry.1 (some entry.2) } := by
  rw [(run_noted_iam (.putInline p _ _) run).eq (Account.put_self ..), Account.put_put]

theorem run_deleteInline {inline : String → Option String} {name : String}
    (run : Run (Account.Answers directory) (a.put p { h with inline }) (deleteInline p name) steps
      (.ok ()) b) :
    b = a.put p { h with inline := Function.update inline name none } := by
  rw [(run_noted_iam (.deleteInline p name) run).eq (Account.put_self ..), Account.put_put]

theorem foldl_putInline {entries : List (String × String)} (ascending : Entries.Ascending entries)
    (inline : String → Option String) :
    entries.foldl (fun (inline : String → Option String) entry =>
        Function.update inline entry.1 (some entry.2)) inline =
      fun name => (Entries.get? name entries).or (inline name) := by
  induction entries generalizing inline with
  | nil => simp [Entries.get?]
  | cons entry entries ih =>
    obtain ⟨k, document⟩ := entry
    have hr := List.pairwise_cons.mp ascending
    rw [List.foldl_cons, ih hr.2]
    funext name
    by_cases hk : k = name
    · subst hk
      have absent : Entries.get? k entries = none :=
        Entries.get?_eq_none fun entry he => (String.ne_of_lt (hr.1 entry he)).symm
      simp [Entries.get?, absent]
    · simp [Entries.get?, hk, Ne.symm hk]

theorem foldl_deleteInline (names : List String) (inline : String → Option String) :
    names.foldl (fun (inline : String → Option String) name => Function.update inline name none) inline =
      fun name => if name ∈ names then none else inline name := by
  induction names generalizing inline with
  | nil => simp
  | cons name names ih =>
    rw [List.foldl_cons, ih]
    funext other
    by_cases hn : other = name
    · subst hn
      simp
    · simp [hn]

theorem run_syncAttached {desired latest : List String}
    (run : Run (Account.Answers directory) a (syncAttached p desired latest) steps (.ok ()) b)
    (there : a p = some h) (seen : ∀ arn, arn ∈ latest ↔ arn ∈ h.attached) :
    b = a.put p { h with attached := {arn | arn ∈ desired} } := by
  rw [← Account.put_same there] at run
  exact (listing_attached a p h).run_sync run seen

theorem isCurrent_iff {latest : Table String} {name document : String} :
    isCurrent latest name document = true ↔
      ∃ current, latest.get? name = some current ∧ Document.equivalent document current = true := by
  unfold isCurrent
  cases latest.get? name with
  | none => simp
  | some current => simp [Document.equivalent_comm document current]

/-- The inline policies have the desired names, with documents that mean the same. -/
theorem run_syncInline {desired latest : Table String}
    (run : Run (Account.Answers directory) a (syncInline p desired latest) steps (.ok ()) b)
    (there : a p = some h) (seen : ∀ name, latest.get? name = h.inline name) :
    ∃ inline, b = a.put p { h with inline } ∧
      ∀ name, SameDocument (desired.get? name) (inline name) := by
  rw [← Account.put_same there] at run
  obtain ⟨_, mid, first, second, hput, hdrop, -⟩ := run_bind_ok.mp run
  have hstale : Entries.Ascending (staleInline desired latest) := desired.ascending.filter _
  have hmid := run_forEach (fun inline => a.put p { h with inline })
    (fun inline entry => Function.update inline entry.1 (some entry.2)) run_putInline hput
  rw [foldl_putInline hstale] at hmid
  subst hmid
  have hb := run_forEach (fun inline => a.put p { h with inline })
    (fun inline name => Function.update inline name none) run_deleteInline hdrop
  rw [foldl_deleteInline] at hb
  refine ⟨_, hb, fun name => ?_⟩
  have obsolete : name ∈ obsoleteInline desired latest ↔
      (h.inline name).isSome ∧ desired.get? name = none := by
    unfold obsoleteInline Table.contains
    rw [List.mem_filter, Table.mem_keys, ← Option.isSome_iff_exists, seen]
    simp
  have stale : Entries.get? name (staleInline desired latest) =
      (desired.get? name).filter fun document => !isCurrent latest name document :=
    Entries.get?_filter desired.ascending name
  simp only [obsolete, stale]
  cases hd : desired.get? name with
  | none =>
    cases hi : h.inline name with
    | none => simpa [hi] using SameDocument.refl none
    | some document => simpa [hi] using SameDocument.refl none
  | some document =>
    cases hc : isCurrent latest name document with
    | false => simpa [Option.filter, hc] using SameDocument.refl (some document)
    | true =>
      obtain ⟨current, found, same⟩ := isCurrent_iff.mp hc
      rw [seen] at found
      have kept : SameDocument (some document) (some current) := .some same
      simpa [Option.filter, hc, found] using kept

theorem run_syncBoundary {desired : Option String}
    (run : Run (Account.Answers directory) a (syncBoundary p desired h.boundary) steps (.ok ()) b)
    (there : a p = some h) :
    ∃ boundary, b = a.put p { h with boundary } ∧ given boundary = given desired := by
  have same (he : b = a) (hg : given h.boundary = given desired) :
      ∃ boundary, b = a.put p { h with boundary } ∧ given boundary = given desired :=
    ⟨h.boundary, he.trans (Account.put_same there).symm, hg⟩
  unfold syncBoundary at run
  cases hd : given desired with
  | none =>
    rw [hd] at run same
    cases hl : given h.boundary with
    | none =>
      rw [hl] at run
      exact same (run_pure.mp run).2.2 hl
    | some old =>
      rw [hl] at run
      exact ⟨none, (run_noted_iam (.deleteBoundary p) run).eq there, rfl⟩
  | some wanted =>
    rw [hd] at run same
    by_cases hl : given h.boundary = some wanted
    · simp only [hl, if_true] at run
      exact same (run_pure.mp run).2.2 hl
    · simp only [hl, if_false] at run
      refine ⟨some wanted, (run_noted_iam (.putBoundary p wanted) run).eq there, ?_⟩
      rw [← hd, given_given]

theorem tagging {target : TagTarget} (carried : target.principal? = some p) (a : Account)
    (h : Holder) :
    Tagging (Account.Answers directory) target fun tags => a.put p { h with tags } where
  tag tags new t answered := by
    have does : (a.put p { h with tags }).Does (.tag target new) () t := answered
    simp only [Account.Does, carried] at does
    rw [does.eq (Account.put_self ..), Account.put_put]
  untag tags keys t answered := by
    have does : (a.put p { h with tags }).Does (.untag target keys) () t := answered
    simp only [Account.Does, carried] at does
    rw [does.eq (Account.put_self ..), Account.put_put]
  note _ _ _ _ answered := answered

/-- Every inline policy that is read is as it is kept. -/
theorem run_collect_readInline {names : List String} {documents : List (String × String)}
    (run : Run (Account.Answers directory) a (collect (readInline p) names) steps
      (.ok documents) b) (there : a p = some h) :
    b = a ∧ documents = names.map fun name => (name, (h.inline name).getD "") := by
  induction names generalizing documents a b steps with
  | nil =>
    obtain ⟨-, hv, rfl⟩ := run_pure.mp run
    cases hv
    exact ⟨rfl, rfl⟩
  | cons name names ih =>
    obtain ⟨value, mid, first, rest, hone, hrest, -⟩ := run_bind_ok.mp run
    obtain ⟨values, mid', second, third, hmany, hend, -⟩ := run_bind_ok.mp hrest
    obtain ⟨encoded, mid'', _, _, hget, hdecode, -⟩ := run_bind_ok.mp hone
    obtain ⟨rfl, k, hk, document, hd, escapes⟩ := Account.run_iam_ok hget
    cases hk.symm.trans there
    rw [Document.decode_of_escapes escapes] at hdecode
    obtain ⟨-, hv, rfl⟩ := run_done.mp hdecode
    cases hv
    obtain ⟨rfl, rfl⟩ := ih hmany there
    obtain ⟨-, hv, rfl⟩ := run_pure.mp hend
    cases hv
    exact ⟨rfl, by simp [hd]⟩

theorem run_inlinePolicies {inline : Table String}
    (run : Run (Account.Answers directory) a (inlinePolicies p) steps (.ok inline) b)
    (there : a p = some h) : b = a ∧ ∀ name, inline.get? name = h.inline name := by
  obtain ⟨names, mid, first, rest, hlist, hrest, -⟩ := run_bind_ok.mp run
  obtain ⟨rfl, k, hk, listed⟩ := Account.run_iam_ok hlist
  cases hk.symm.trans there
  obtain ⟨documents, mid', second, third, hread, hend, -⟩ := run_bind_ok.mp hrest
  obtain ⟨rfl, rfl⟩ := run_collect_readInline hread there
  obtain ⟨-, hv, rfl⟩ := run_pure.mp hend
  cases hv
  refine ⟨rfl, fun name => ?_⟩
  rw [Table.get?_ofList_map]
  cases hi : h.inline name with
  | none => simp [listed, hi]
  | some document => simp [listed, hi]

end IamKeeper.Iam
