import IamKeeper.Proofs.Attachments
import IamKeeper.Proofs.Resumption.Basic

namespace IamKeeper

open Iam (Call Principal SameDocument)
open Function (update)
open Step

def Compartment.inline (p : Principal) : Compartment (Option String) where
  contents s := s.inline p
  place s kept := { s with inline := update s.inline p kept }
  contents_place s kept := by simp
  place_contents s := by simp
  place_place s kept kept' := by simp

/-- Whether the document that is wanted under a name is not there with the same meaning. -/
def StaleInline (latest : Table String) (name document : String) : Prop :=
  ∀ current, latest.get? name = some current → Document.equivalent current document = false

/-- What inline policies that are brought in line keep to: none is put in vain, none that is wanted is deleted, and none
is deleted before all that are wanted are there. -/
structure InlineKept (p : Principal) (desired latest : Table String) (steps : List (Step world Store)) : Prop where
  only : ∀ call ∈ called steps,
    (∃ name document, call = .putInline p name document) ∨ ∃ name, call = .deleteInline p name
  idle : ∀ name document, .putInline p name document ∈ called steps →
    desired.get? name = some document ∧ StaleInline latest name document
  spares : ∀ name, .deleteInline p name ∈ called steps → desired.get? name = none
  patient : ∀ front step rest name, steps = front ++ step :: rest → step.request = .iam (.deleteInline p name) →
    ∀ wanted document, desired.get? wanted = some document → StaleInline latest wanted document →
      .putInline p wanted document ∈ carriedOut front

namespace InlineKept

open Iam (isCurrent staleInline obsoleteInline)

variable {p : Principal} {desired latest : Table String} {name document : String}

theorem stale_iff : StaleInline latest name document ↔ isCurrent latest name document = false := by
  unfold StaleInline isCurrent
  cases latest.get? name <;> simp

theorem mem_stale : (name, document) ∈ staleInline desired latest ↔
    desired.get? name = some document ∧ StaleInline latest name document := by
  unfold staleInline
  rw [List.mem_filter, Table.get?_eq_some, stale_iff]
  simp

theorem mem_obsolete : name ∈ obsoleteInline desired latest ↔
    (∃ document, latest.get? name = some document) ∧ desired.get? name = none := by
  unfold obsoleteInline Table.contains
  rw [List.mem_filter, Table.mem_keys]
  simp

/-- What is wanted under a name: a document that is there with the same meaning may stay. -/
def aim (desired : Table String) (name : String) (current : Option String) : Option String :=
  (desired.get? name).map fun document => (current.filter (Document.equivalent · document)).getD document

theorem aim_of_stale (wanted : desired.get? name = some document) (stale : StaleInline latest name document) :
    aim desired name (latest.get? name) = some document := by
  unfold aim
  rw [wanted]
  cases there : latest.get? name with
  | none => rfl
  | some current => simp [Option.filter, stale current there]

theorem aim_of_current (wanted : desired.get? name = some document) {current : String}
    (there : latest.get? name = some current) (same : Document.equivalent current document = true) :
    aim desired name (latest.get? name) = latest.get? name := by
  unfold aim
  simp [wanted, there, Option.filter, same]

theorem aim_of_unwanted (unwanted : desired.get? name = none) (current : Option String) :
    aim desired name current = none := by
  unfold aim
  rw [unwanted]
  rfl

theorem aim_aim (desired : Table String) (name : String) (current : Option String) :
    aim desired name (aim desired name current) = aim desired name current := by
  unfold aim
  cases desired.get? name with
  | none => rfl
  | some document =>
    cases current with
    | none => simp [Option.filter, Document.equivalent_refl]
    | some current =>
      cases same : Document.equivalent current document <;> simp [Option.filter, same, Document.equivalent_refl]

theorem same_aim (name : String) (current : Option String) :
    SameDocument (desired.get? name) (aim desired name current) := by
  unfold aim
  cases desired.get? name with
  | none => exact .refl none
  | some document =>
    have same :
        Document.equivalent ((current.filter (Document.equivalent · document)).getD document) document = true := by
      cases there : current.filter (Document.equivalent · document) with
      | none => exact Document.equivalent_refl document
      | some kept => exact (Option.filter_eq_some_iff.mp there).2
    rw [Document.equivalent_comm] at same
    exact .some same

def puts (p : Principal) (desired latest : Table String) : List Call :=
  (staleInline desired latest).map fun entry => .putInline p entry.1 entry.2

def deletions (p : Principal) (desired latest : Table String) : List Call :=
  (obsoleteInline desired latest).map (Call.deleteInline p)

theorem mem_puts {call : Call} : call ∈ puts p desired latest ↔
    ∃ name document, call = .putInline p name document ∧ desired.get? name = some document ∧
      StaleInline latest name document := by
  constructor
  · intro there
    obtain ⟨⟨name, document⟩, stale, rfl⟩ := List.mem_map.mp there
    exact ⟨name, document, rfl, mem_stale.mp stale⟩
  · rintro ⟨name, document, rfl, stale⟩
    exact List.mem_map.mpr ⟨(name, document), mem_stale.mpr stale, rfl⟩

theorem mem_deletions {call : Call} : call ∈ deletions p desired latest ↔
    ∃ name, call = .deleteInline p name ∧ name ∈ obsoleteInline desired latest := by
  unfold deletions
  simp only [List.mem_map, and_comm, eq_comm]

theorem put_mem_puts : .putInline p name document ∈ puts p desired latest ++ deletions p desired latest ↔
    desired.get? name = some document ∧ StaleInline latest name document := by
  simp [mem_puts, mem_deletions]

theorem delete_mem_deletions : .deleteInline p name ∈ puts p desired latest ++ deletions p desired latest ↔
    name ∈ obsoleteInline desired latest := by
  simp [mem_puts, mem_deletions]

theorem sets {call : Call} (there : call ∈ puts p desired latest ++ deletions p desired latest) (s : Store) :
    s.after call = (Compartment.inline p).place s fun key =>
      if key ∈ call.keys then aim desired key (latest.get? key) else s.inline p key := by
  rcases List.mem_append.mp there with put | deleted
  · obtain ⟨name, document, rfl, wanted, stale⟩ := mem_puts.mp put
    refine congrArg ((Compartment.inline p).place s) (funext fun key => ?_)
    by_cases same : key = name
    · subst same
      simp [Call.keys, aim_of_stale wanted stale]
    · simp [Call.keys, same]
  · obtain ⟨name, rfl, obsolete⟩ := mem_deletions.mp deleted
    refine congrArg ((Compartment.inline p).place s) (funext fun key => ?_)
    by_cases same : key = name
    · subst same
      simp [Call.keys, aim_of_unwanted (mem_obsolete.mp obsolete).2]
    · simp [Call.keys, same]

theorem covers (differs : aim desired name (latest.get? name) ≠ latest.get? name) :
    ∃ call ∈ puts p desired latest ++ deletions p desired latest, name ∈ call.keys := by
  cases wanted : desired.get? name with
  | none =>
    rw [aim_of_unwanted wanted] at differs
    have obsolete := mem_obsolete.mpr ⟨Option.ne_none_iff_exists'.mp differs.symm, wanted⟩
    exact ⟨_, delete_mem_deletions.mpr obsolete, List.mem_singleton_self _⟩
  | some document =>
    have stale : StaleInline latest name document := by
      intro current there
      by_contra same
      exact differs (aim_of_current wanted there (by simpa using same))
    exact ⟨_, put_mem_puts.mpr ⟨wanted, stale⟩, List.mem_singleton_self _⟩

def hook (p : Principal) (desired : Table String) : Hook (Table String) (Option String) where
  part := .inline p
  told := Table.get?
  aim := aim desired
  calls latest := puts p desired latest ++ deletions p desired latest
  job := Iam.syncInline p desired
  performs _ := .bind
    (.forEach (fun _ => .note (.call ⟨()⟩ (fun _ => rfl) fun _ => .done)) _)
    (.forEach (fun _ => .note (.call ⟨()⟩ (fun _ => rfl) fun _ => .done)) _)
  sets _ _ := sets
  covers _ _ := covers
  settled := aim_aim desired

theorem kept {s t : Store} {steps : List (Step world Store)} (trail : Trail ((hook p desired).calls latest) s steps t) :
    InlineKept p desired latest steps where
  only := by
    intro call made
    rcases List.mem_append.mp (trail.called_prefix.subset made) with put | deleted
    · obtain ⟨name, document, rfl, -⟩ := mem_puts.mp put
      exact .inl ⟨name, document, rfl⟩
    · obtain ⟨name, rfl, -⟩ := mem_deletions.mp deleted
      exact .inr ⟨name, rfl⟩
  idle _ _ made := put_mem_puts.mp (trail.called_prefix.subset made)
  spares _ made := (mem_obsolete.mp (delete_mem_deletions.mp (trail.called_prefix.subset made))).2
  patient := by
    rintro front step rest name rfl made wanted document there stale
    have late : Call.deleteInline p name ∉ puts p desired latest := by simp [mem_puts]
    exact trail.earlier_carriedOut made late (mem_puts.mpr ⟨wanted, document, rfl, there, stale⟩)

theorem interruptible (p : Principal) (desired : Table String) : Interruptible (·.inline p) Table.get?
    (fun kept => ∀ name, SameDocument (desired.get? name) (kept name)) (Iam.syncInline p desired)
    fun latest _ steps _ => InlineKept p desired latest steps :=
  (hook p desired).interruptible (fun kept name => same_aim name (kept name)) fun _ => kept

end InlineKept

end IamKeeper
