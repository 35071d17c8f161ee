import IamKeeper.Reconcile.Outcome
import IamKeeper.Resource.Kind
import Mathlib.Data.List.Nodup

namespace IamKeeper

open Time (Instant)

namespace Condition

/-- The conditions of one type. -/
def ofType (type : ConditionType) (conditions : List Condition) : List Condition :=
  conditions.filter fun c => c.type = type

/-- No type comes twice. -/
def Distinct (conditions : List Condition) : Prop :=
  (conditions.map Condition.type).Nodup

/-- There is one condition of a type, and this is what is in it. -/
def Has (conditions : List Condition) (type : ConditionType) (status : ConditionStatus)
    (message reason : Option String) : Prop :=
  ∃ since, ofType type conditions = [⟨type, status, message, reason, since⟩]

def Lacks (conditions : List Condition) (type : ConditionType) : Prop :=
  ofType type conditions = []

variable {now : Instant} {type other : ConditionType} {status : ConditionStatus}
  {message reason : Option String} {conditions : List Condition}

theorem distinct_iff :
    Distinct conditions ↔ ∀ type, (ofType type conditions).length ≤ 1 := by
  have count (type : ConditionType) :
      (conditions.map Condition.type).count type = (ofType type conditions).length := by
    rw [List.count, List.countP_map, List.countP_eq_length_filter]
    rfl
  unfold Distinct
  simp only [List.nodup_iff_count_le_one, count]

theorem ofType_set_other (h : other ≠ type) :
    ofType other (set now type status message reason conditions) = ofType other conditions := by
  induction conditions with
  | nil => simp [set, ofType, h.symm]
  | cons c rest ih =>
    unfold ofType at ih ⊢
    simp only [set]
    split
    next same => simp [same, h.symm]
    next => simp only [List.filter_cons, ih]

/-- Where a type comes once at most, the condition set is the only one of its type. -/
theorem has_set (once : (ofType type conditions).length ≤ 1) :
    Has (set now type status message reason conditions) type status message reason := by
  induction conditions with
  | nil => exact ⟨some now, by simp [set, ofType]⟩
  | cons c rest ih =>
    simp only [set]
    split
    next same =>
      have alone : ofType type rest = [] := by
        simpa [ofType, same, List.filter_cons] using once
      refine ⟨if c.status = status then c.since else some now, ?_⟩
      rw [ofType, List.filter_cons_of_pos (by simp)]
      exact congrArg _ alone
    next differs =>
      have skip (l : List Condition) : ofType type (c :: l) = ofType type l :=
        List.filter_cons_of_neg (by simpa using differs)
      rw [skip] at once
      unfold Has
      rw [skip]
      exact ih once

theorem lacks_remove : Lacks (remove type conditions) type := by
  simp [Lacks, ofType, remove, List.filter_filter]

theorem ofType_remove_other (h : other ≠ type) :
    ofType other (remove type conditions) = ofType other conditions := by
  unfold ofType remove
  rw [List.filter_filter]
  refine List.filter_congr fun c _ => ?_
  by_cases same : c.type = other <;> simp [same, h]

theorem distinct_set (h : Distinct conditions) :
    Distinct (set now type status message reason conditions) := by
  rw [distinct_iff] at h ⊢
  intro other
  by_cases same : other = type
  · subst same
    obtain ⟨since, only⟩ := has_set (h other)
    rw [only]
    simp
  · rw [ofType_set_other same]
    exact h other

theorem distinct_remove (h : Distinct conditions) : Distinct (remove type conditions) :=
  h.sublist (List.filter_sublist.map _)

@[simp]
theorem has_set_other (h : other ≠ type) {status' : ConditionStatus}
    {message' reason' : Option String} :
    Has (set now type status message reason conditions) other status' message' reason' ↔
      Has conditions other status' message' reason' := by
  unfold Has
  rw [ofType_set_other h]

@[simp]
theorem lacks_set_other (h : other ≠ type) :
    Lacks (set now type status message reason conditions) other ↔ Lacks conditions other := by
  unfold Lacks
  rw [ofType_set_other h]

@[simp]
theorem has_remove_other (h : other ≠ type) :
    Has (remove type conditions) other status message reason ↔
      Has conditions other status message reason := by
  unfold Has
  rw [ofType_remove_other h]

@[simp]
theorem lacks_remove_other (h : other ≠ type) :
    Lacks (remove type conditions) other ↔ Lacks conditions other := by
  unfold Lacks
  rw [ofType_remove_other h]

end Condition

/-- What a pass came to, as far as conditions tell it. -/
inductive Verdict where
  | synced (referenced : Bool)
  | failed (fault : Fault)

def Verdict.isSynced : Verdict → Bool
  | synced _ => true
  | failed _ => false

/-- The verdict of one pass, with what the clock read when it was marked. -/
structure Mark where
  clock : Clock
  verdict : Verdict

namespace Condition

/-- The conditions after a pass. -/
def after (mark : Mark) (conditions : List Condition) : List Condition :=
  match mark.verdict with
  | .synced referenced => afterSync mark.clock referenced conditions
  | .failed fault => afterFault mark.clock fault conditions

/-- Conditions that tell the verdict of the last pass and do not contradict each other. -/
structure Tell (conditions : List Condition) (verdict : Verdict) : Prop where
  distinct : Distinct conditions
  synced : Has conditions .synced (if verdict.isSynced then .yes else .no) none none
  exclusive : Lacks conditions .terminal ∨ Lacks conditions .recoverable
  afterSync : ∀ referenced, verdict = .synced referenced →
    Lacks conditions .terminal ∧ Lacks conditions .recoverable ∧
      if referenced then Has conditions .referencesResolved .yes none none
      else Lacks conditions .referencesResolved
  afterTerminal : ∀ fault, verdict = .failed fault → fault.isTerminal = true →
    Has conditions .terminal .yes (some fault.message) none ∧ Lacks conditions .recoverable
  afterOther : ∀ fault, verdict = .failed fault → fault.isTerminal = false →
    Has conditions .recoverable .yes (some fault.message) fault.code? ∧ Lacks conditions .terminal
  afterReference : ∀ fault, verdict = .failed fault → fault.isReference = true →
    Has conditions .referencesResolved .no (some fault.message) none

variable {conditions : List Condition} {clock : Clock}

theorem tell_afterSync (h : Distinct conditions) (referenced : Bool) :
    Tell (afterSync clock referenced conditions) (.synced referenced) := by
  -- The references are told first, and what follows leaves them alone.
  have close (told : List Condition) (hd : Distinct told)
      (references : if referenced then Has told .referencesResolved .yes none none
        else Lacks told .referencesResolved) :
      Tell (setBy clock .synced .yes none none (remove .recoverable (remove .terminal told)))
        (.synced referenced) := by
    have rest : Distinct (remove .recoverable (remove .terminal told)) :=
      distinct_remove (distinct_remove hd)
    exact {
      distinct := distinct_set rest
      synced := has_set (distinct_iff.mp rest _)
      exclusive := .inl (by simp [setBy, lacks_remove])
      afterSync := by
        intro _ same
        cases same
        refine ⟨by simp [setBy, lacks_remove], by simp [setBy, lacks_remove], ?_⟩
        simpa [setBy] using references
      afterTerminal := by simp
      afterOther := by simp
      afterReference := by simp }
  cases referenced with
  | true => exact close _ (distinct_set h) (has_set (distinct_iff.mp h _))
  | false => exact close _ (distinct_remove h) lacks_remove

/-- What a fault leaves: a condition that blames it, without its rival. -/
theorem blamed (h : Distinct conditions) (clock : Clock) {type rival : ConditionType}
    (apart : type ≠ rival) (blame : type ≠ .synced) (rivals : rival ≠ .synced)
    (message reason : Option String) :
    let after := setBy clock .synced .no none none
      (setBy clock type .yes message reason (remove rival conditions))
    Distinct after ∧ Has after .synced .no none none ∧ Has after type .yes message reason ∧
      Lacks after rival := by
  have rest : Distinct (remove rival conditions) := distinct_remove h
  have ruled : Distinct (setBy clock type .yes message reason (remove rival conditions)) :=
    distinct_set rest
  refine ⟨distinct_set ruled, has_set (distinct_iff.mp ruled _), ?_, ?_⟩
  · exact (has_set_other blame).mpr (has_set (distinct_iff.mp rest _))
  · exact (lacks_set_other rivals).mpr ((lacks_set_other apart.symm).mpr lacks_remove)

theorem tell_afterFault (h : Distinct conditions) (fault : Fault) :
    Tell (afterFault clock fault conditions) (.failed fault) := by
  have close (told : List Condition) (hd : Distinct told)
      (references : fault.isReference = true →
        Has told .referencesResolved .no (some fault.message) none) :
      Tell (setBy clock .synced .no none none
        (if fault.isTerminal then
          setBy clock .terminal .yes (some fault.message) none (remove .recoverable told)
        else
          setBy clock .recoverable .yes (some fault.message) fault.code? (remove .terminal told)))
        (.failed fault) := by
    cases terminal : fault.isTerminal with
    | true =>
      obtain ⟨distinct, synced, has, lacks⟩ := blamed hd clock
        (show .terminal ≠ .recoverable by decide) (by decide) (by decide) (some fault.message) none
      refine ⟨distinct, synced, .inr lacks, by simp, ?_, ?_, ?_⟩
      · intro _ same _
        cases same
        exact ⟨has, lacks⟩
      · intro _ same other
        cases same
        simp [terminal] at other
      · intro _ same reference
        cases same
        simpa [setBy] using references reference
    | false =>
      obtain ⟨distinct, synced, has, lacks⟩ := blamed hd clock
        (show .recoverable ≠ .terminal by decide) (by decide) (by decide) (some fault.message)
        fault.code?
      refine ⟨distinct, synced, .inl lacks, by simp, ?_, ?_, ?_⟩
      · intro _ same ruled
        cases same
        simp [terminal] at ruled
      · intro _ same _
        cases same
        exact ⟨has, lacks⟩
      · intro _ same reference
        cases same
        simpa [setBy] using references reference
  unfold afterFault
  cases reference : fault.isReference with
  | true => exact close _ (distinct_set h) fun _ => has_set (distinct_iff.mp h _)
  | false => exact close _ h fun absurd => by simp [reference] at absurd

theorem tell_after (h : Distinct conditions) (mark : Mark) :
    Tell (after mark conditions) mark.verdict := by
  obtain ⟨clock, verdict⟩ := mark
  cases verdict with
  | synced referenced => exact tell_afterSync h referenced
  | failed fault => exact tell_afterFault h fault

end Condition

namespace Object

variable {S D : Type}

def Distinct (o : Object S D) : Prop :=
  Condition.Distinct o.conditions

theorem distinct_of_no_status {o : Object S D} (new : o.status = none) : o.Distinct := by
  simp [Distinct, conditions, new, Condition.Distinct]

variable [Inhabited D]

/-- The object as a pass marks it. -/
def marked (o : Object S D) (mark : Mark) : Object S D :=
  match mark.verdict with
  | .synced referenced => o.markSynced mark.clock referenced
  | .failed fault => o.markFailed mark.clock fault

/-- The object as a series of passes marks it. -/
def markedAll (o : Object S D) (marks : List Mark) : Object S D :=
  marks.foldl marked o

theorem conditions_marked (o : Object S D) (mark : Mark) :
    (o.marked mark).conditions = Condition.after mark o.conditions := by
  obtain ⟨clock, verdict⟩ := mark
  cases verdict <;> rfl

/-- Whatever was told before, a mark tells the verdict of its own pass. -/
theorem marked_tells {o : Object S D} (h : o.Distinct) (mark : Mark) :
    Condition.Tell (o.marked mark).conditions mark.verdict := by
  rw [conditions_marked]
  exact Condition.tell_after h mark

theorem distinct_markedAll {o : Object S D} (h : o.Distinct) (marks : List Mark) :
    (o.markedAll marks).Distinct := by
  induction marks generalizing o with
  | nil => exact h
  | cons mark marks ih => exact ih (marked_tells h mark).distinct

/-- After every step of a history of marks, the conditions tell the verdict of the last one. -/
theorem markedAll_tells {o : Object S D} (h : o.Distinct) (marks : List Mark) (last : Mark) :
    Condition.Tell (o.markedAll (marks ++ [last])).conditions last.verdict := by
  have told := marked_tells (distinct_markedAll h marks) last
  unfold markedAll at told ⊢
  rw [List.foldl_append]
  exact told

/-- A policy that no pass has marked yet. -/
def unmarked : PolicyObject where
  metadata := ⟨some "app", none, some "space", [], none⟩
  spec := ⟨"app", none, none, "\x7b\x7d", []⟩
  status := none

/-- A pass that IAM refuses for good, and one that misses what a reference names. -/
def setbacks : List Mark :=
  [⟨fun _ => .epoch, .failed (.iam "CreatePolicy" (some "LimitExceeded") "too many")⟩,
    ⟨fun _ => .epoch, .failed (.referentMissing ⟨"Policy", "space", "base"⟩)⟩]

/-- Nothing of two failures is left after a pass that succeeded. -/
theorem markedAll_tells_recovered :
    unmarked.Distinct ∧
      Condition.Tell (unmarked.markedAll (setbacks ++ [⟨fun _ => .epoch, .synced true⟩])).conditions
        (.synced true) ∧
      (unmarked.markedAll (setbacks ++ [⟨fun _ => .epoch, .synced true⟩])).conditions.map
          (fun c => (c.type, c.status)) =
        [(.synced, .yes), (.referencesResolved, .yes)] :=
  have new : unmarked.Distinct := distinct_of_no_status rfl
  ⟨new, markedAll_tells new setbacks ⟨fun _ => .epoch, .synced true⟩, rfl⟩

end Object

end IamKeeper
