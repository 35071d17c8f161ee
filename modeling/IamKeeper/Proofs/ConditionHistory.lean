import IamKeeper.Proofs.Conditions
import Mathlib.Data.List.DropRight
import Mathlib.Data.List.Induction

namespace IamKeeper.Condition

open Time (Instant)

/-- A change of a list of conditions; where a condition is set, with what the clock reads then. -/
inductive Edit where
  | set (now : Instant) (type : ConditionType) (status : ConditionStatus) (message reason : Option String)
  | remove (type : ConditionType)
deriving DecidableEq

namespace Edit

def type : Edit → ConditionType
  | set _ type _ _ _ | remove type => type

def apply (conditions : List Condition) : Edit → List Condition
  | set now type status message reason => Condition.set now type status message reason conditions
  | remove type => Condition.remove type conditions

def isSet : Edit → Bool
  | set .. => true
  | remove _ => false

def setsTo (status : ConditionStatus) : Edit → Bool
  | set _ _ s _ _ => s = status
  | remove _ => false

theorem setsTo_eq_false {edit : Edit} {status : ConditionStatus} (removal : edit.isSet = false) :
    edit.setsTo status = false := by
  cases edit with
  | set => cases removal
  | remove => rfl

end Edit

/-- The conditions that a history of edits makes, from none. -/
def edited (history : List Edit) : List Condition :=
  history.foldl Edit.apply []

section

variable (type : ConditionType) (history : List Edit)

/-- The edits of a type, each with its place in the history. -/
def editsOf : List (Edit × Nat) :=
  history.zipIdx.filter fun entry => entry.1.type = type

def lastEdit? : Option Edit :=
  (editsOf type history).getLast?.map Prod.fst

/-- The edit with which the last unbroken stretch of edits of a kind begins, among those of a type. -/
def opening? (kind : Edit → Bool) : Option (Edit × Nat) :=
  ((editsOf type history).rtakeWhile fun entry => kind entry.1).head?

/-- The place at which a type was last inserted. -/
def insertion? : Option Nat :=
  (opening? type history Edit.isSet).map Prod.snd

end

/-- What is in a condition is that of the last set of its type, and its time that of the set with which the last
stretch of sets to its status begins. -/
structure Told (history : List Edit) (c : Condition) : Prop where
  latest : ∃ now, lastEdit? c.type history = some (.set now c.type c.status c.message c.reason)
  since : ∃ now message reason place, c.since = some now ∧
    opening? c.type history (Edit.setsTo c.status) = some (.set now c.type c.status message reason, place)

/-- Conditions that stand in the order in which their types were last inserted. -/
def InOrder (history : List Edit) (conditions : List Condition) : Prop :=
  ∃ places : List Nat, conditions.map (fun c => insertion? c.type history) = places.map some ∧ places.Pairwise (· < ·)

/-- Conditions in order, one for each type whose last edit set it, that tell of their types. -/
structure Recounts (history : List Edit) (conditions : List Condition) : Prop where
  distinct : Distinct conditions
  ordered : InOrder history conditions
  present : ∀ type, (∃ c ∈ conditions, c.type = type) ↔ ∃ edit, lastEdit? type history = some edit ∧ edit.isSet = true
  told : ∀ c ∈ conditions, Told history c

variable {history : List Edit} {edit : Edit} {type : ConditionType} {kind : Edit → Bool}

theorem editsOf_own (own : edit.type = type) :
    editsOf type (history ++ [edit]) = editsOf type history ++ [(edit, history.length)] := by
  unfold editsOf
  rw [List.zipIdx_append, List.filter_append]
  simp [own]

theorem editsOf_other (other : edit.type ≠ type) : editsOf type (history ++ [edit]) = editsOf type history := by
  unfold editsOf
  rw [List.zipIdx_append, List.filter_append]
  simp [other]

theorem lastEdit?_own (own : edit.type = type) : lastEdit? type (history ++ [edit]) = some edit := by
  unfold lastEdit?
  rw [editsOf_own own, List.getLast?_concat]
  rfl

theorem lastEdit?_other (other : edit.type ≠ type) : lastEdit? type (history ++ [edit]) = lastEdit? type history := by
  unfold lastEdit?
  rw [editsOf_other other]

theorem opening?_own (own : edit.type = type) (same : kind edit = true) :
    opening? type (history ++ [edit]) kind = (opening? type history kind).or (some (edit, history.length)) := by
  unfold opening?
  rw [editsOf_own own, List.rtakeWhile_concat_pos _ _ _ (by exact same), List.head?_append]
  rfl

theorem opening?_other (other : edit.type ≠ type) :
    opening? type (history ++ [edit]) kind = opening? type history kind := by
  unfold opening?
  rw [editsOf_other other]

/-- No stretch is open behind an edit of another kind. -/
theorem opening?_eq_none (ended : ∀ edit, lastEdit? type history = some edit → kind edit = false) :
    opening? type history kind = none := by
  unfold opening?
  rw [List.head?_eq_none_iff, List.rtakeWhile_eq_nil_iff]
  intro some
  have last : lastEdit? type history = Option.some ((editsOf type history).getLast some).1 := by
    unfold lastEdit?
    rw [List.getLast?_eq_some_getLast some]
    rfl
  simp [ended _ last]

theorem insertion?_lt {place : Nat} (inserted : insertion? type history = some place) : place < history.length := by
  obtain ⟨entry, opened, rfl⟩ := Option.map_eq_some_iff.mp inserted
  have there := (List.rtakeWhile_suffix _ _).subset (List.mem_of_mem_head? opened)
  have listed := (List.mem_filter.mp there).1
  exact List.snd_lt_of_mem_zipIdx listed

/-- A set goes to the condition of its type, or to the end where there is none. -/
theorem set_cases (now : Instant) (type : ConditionType) (status : ConditionStatus) (message reason : Option String)
    (conditions : List Condition) :
    (∃ front old back, conditions = front ++ old :: back ∧ old.type = type ∧
      set now type status message reason conditions =
        front ++ ⟨type, status, message, reason, if old.status = status then old.since else some now⟩ :: back) ∨
    (∀ c ∈ conditions, c.type ≠ type) ∧
      set now type status message reason conditions = conditions ++ [⟨type, status, message, reason, some now⟩] := by
  induction conditions with
  | nil => exact .inr ⟨List.forall_mem_nil _, rfl⟩
  | cons c rest ih =>
    by_cases same : c.type = type
    · exact .inl ⟨[], c, rest, rfl, same, by simp [set, same]⟩
    · have skip : set now type status message reason (c :: rest) = c :: set now type status message reason rest := by
        simp [set, same]
      rw [skip]
      rcases ih with ⟨front, old, back, rfl, there, replaced⟩ | ⟨absent, added⟩
      · exact .inl ⟨c :: front, old, back, rfl, there, congrArg _ replaced⟩
      · exact .inr ⟨List.forall_mem_cons.mpr ⟨same, absent⟩, congrArg _ added⟩

namespace Told

variable {c : Condition}

theorem other (told : Told history c) (other : edit.type ≠ c.type) : Told (history ++ [edit]) c where
  latest := by
    rw [lastEdit?_other other]
    exact told.latest
  since := by
    rw [opening?_other other]
    exact told.since

theorem isSet (told : Told history c) : ∃ edit, lastEdit? c.type history = some edit ∧ edit.isSet = true := by
  obtain ⟨now, latest⟩ := told.latest
  exact ⟨_, latest, rfl⟩

variable {now : Instant} {status : ConditionStatus} {message reason : Option String}

theorem opening?_set : opening? type (history ++ [.set now type status message reason]) (Edit.setsTo status) =
    (opening? type history (Edit.setsTo status)).or (some (.set now type status message reason, history.length)) :=
  opening?_own rfl (decide_eq_true rfl)

/-- Where the last edit of a type did not set it to a status, the time is that of the set that does. -/
theorem turned (ended : ∀ edit, lastEdit? type history = some edit → edit.setsTo status = false) :
    Told (history ++ [.set now type status message reason]) ⟨type, status, message, reason, some now⟩ where
  latest := ⟨now, lastEdit?_own rfl⟩
  since := by
    refine ⟨now, message, reason, history.length, rfl, opening?_set.trans ?_⟩
    rw [opening?_eq_none ended]
    rfl

theorem replaced (told : Told history c) :
    Told (history ++ [.set now c.type status message reason])
      ⟨c.type, status, message, reason, if c.status = status then c.since else some now⟩ := by
  by_cases same : c.status = status
  · rw [if_pos same]
    obtain ⟨start, message', reason', place, since, opened⟩ := told.since
    refine ⟨⟨now, lastEdit?_own rfl⟩, start, message', reason', place, since, opening?_set.trans ?_⟩
    rw [same] at opened
    rw [opened]
    rfl
  · rw [if_neg same]
    refine turned fun edit last => ?_
    obtain ⟨now', latest⟩ := told.latest
    cases last.symm.trans latest
    exact decide_eq_false same

end Told

theorem insertion?_other (other : edit.type ≠ type) :
    insertion? type (history ++ [edit]) = insertion? type history := by
  unfold insertion?
  rw [opening?_other other]

/-- A set inserts a type where it is not there, and does not move it where it is. -/
theorem insertion?_own (own : edit.type = type) (set : edit.isSet = true) :
    insertion? type (history ++ [edit]) = (insertion? type history).or (some history.length) := by
  unfold insertion?
  rw [opening?_own own set]
  cases opening? type history Edit.isSet <;> rfl

namespace InOrder

variable {conditions front back : List Condition} {old new : Condition}

theorem unmoved (apart : ∀ c ∈ conditions, edit.type ≠ c.type) :
    conditions.map (fun c => insertion? c.type (history ++ [edit])) =
      conditions.map fun c => insertion? c.type history :=
  List.map_congr_left fun c there => insertion?_other (apart c there)

theorem fewer (h : InOrder history conditions) {left : List Condition} (among : left.Sublist conditions)
    (apart : ∀ c ∈ left, edit.type ≠ c.type) : InOrder (history ++ [edit]) left := by
  obtain ⟨places, inserted, ascending⟩ := h
  have taken := among.map fun c => insertion? c.type history
  rw [inserted] at taken
  obtain ⟨kept, sub, same⟩ := List.sublist_map_iff.mp taken
  exact ⟨kept, (unmoved apart).trans same, ascending.sublist sub⟩

/-- A condition that is set again keeps its place. -/
theorem replaced (h : InOrder history (front ++ old :: back)) (set : edit.isSet = true) (own : edit.type = old.type)
    (same : new.type = old.type) (apart : ∀ c, c ∈ front ∨ c ∈ back → edit.type ≠ c.type) :
    InOrder (history ++ [edit]) (front ++ new :: back) := by
  obtain ⟨places, inserted, ascending⟩ := h
  rw [List.map_append, List.map_cons] at inserted
  have listed : insertion? old.type history ∈ places.map some :=
    inserted ▸ List.mem_append_right _ List.mem_cons_self
  obtain ⟨place, -, there⟩ := List.mem_map.mp listed
  have still : insertion? new.type (history ++ [edit]) = insertion? old.type history := by
    rw [same, insertion?_own own set, ← there, Option.some_or]
  refine ⟨places, ?_, ascending⟩
  rw [List.map_append, List.map_cons, still, unmoved fun c hc => apart c (.inl hc),
    unmoved fun c hc => apart c (.inr hc), inserted]

/-- A condition of a type that was not there goes behind all others. -/
theorem added (h : InOrder history conditions) (set : edit.isSet = true) (own : edit.type = new.type)
    (apart : ∀ c ∈ conditions, edit.type ≠ c.type) (absent : insertion? new.type history = none) :
    InOrder (history ++ [edit]) (conditions ++ [new]) := by
  obtain ⟨places, inserted, ascending⟩ := h
  have last : insertion? new.type (history ++ [edit]) = some history.length := by
    rw [insertion?_own own set, absent, Option.none_or]
  refine ⟨places ++ [history.length], ?_, List.pairwise_append.mpr ⟨ascending, List.pairwise_singleton .., ?_⟩⟩
  · rw [List.map_append, List.map_append, unmoved apart, inserted, List.map_singleton, List.map_singleton, last]
  · intro place there end_ hl
    obtain rfl := List.mem_singleton.mp hl
    have listed : some place ∈ conditions.map fun c => insertion? c.type history := inserted ▸ List.mem_map_of_mem there
    obtain ⟨c, -, placed⟩ := List.mem_map.mp listed
    exact insertion?_lt placed

end InOrder

theorem mem_ofType {c : Condition} {conditions : List Condition} :
    c ∈ ofType type conditions ↔ c ∈ conditions ∧ c.type = type := by
  simp [ofType]

/-- What stands beside a condition is of other types. -/
theorem apart_of_distinct {front back : List Condition} {old : Condition} (distinct : Distinct (front ++ old :: back))
    (c : Condition) (there : c ∈ front ∨ c ∈ back) : old.type ≠ c.type := by
  unfold Distinct at distinct
  rw [List.map_append, List.map_cons, List.nodup_middle, List.nodup_cons, ← List.map_append] at distinct
  exact fun same => distinct.1 (List.mem_map.mpr ⟨c, List.mem_append.mpr there, same.symm⟩)

namespace Recounts

variable {conditions : List Condition}

theorem empty : Recounts [] [] where
  distinct := List.nodup_nil
  ordered := ⟨[], rfl, List.Pairwise.nil⟩
  present type := by simp [lastEdit?, editsOf]
  told := List.forall_mem_nil _

/-- An edit of another type leaves it open whether there is a condition. -/
theorem present_other (h : Recounts history conditions) (edit : Edit) (other : edit.type ≠ type)
    {conditions' : List Condition} (kept : ofType type conditions' = ofType type conditions) :
    (∃ c ∈ conditions', c.type = type) ↔
      ∃ last, lastEdit? type (history ++ [edit]) = some last ∧ last.isSet = true := by
  rw [lastEdit?_other other, ← h.present type]
  simp only [← mem_ofType, kept]

theorem remove (h : Recounts history conditions) (type : ConditionType) :
    Recounts (history ++ [.remove type]) (Condition.remove type conditions) := by
  have left : ∀ c ∈ Condition.remove type conditions, type ≠ c.type := fun c there =>
    (of_decide_eq_true (List.mem_filter.mp there).2).symm
  refine ⟨distinct_remove h.distinct, h.ordered.fewer List.filter_sublist left, fun t => ?_, fun c there => ?_⟩
  · by_cases same : type = t
    · subst same
      have last : lastEdit? type (history ++ [.remove type]) = some (.remove type) := lastEdit?_own rfl
      rw [last]
      constructor
      · rintro ⟨c, there, own⟩
        exact absurd own.symm (left c there)
      · rintro ⟨_, ⟨⟩, set⟩
        cases set
    · exact h.present_other (.remove type) same (ofType_remove_other (Ne.symm same))
  · exact (h.told c (List.mem_filter.mp there).1).other (left c there)

variable (now : Instant) (type : ConditionType) (status : ConditionStatus) (message reason : Option String)

theorem present_set (h : Recounts history conditions) (t : ConditionType) :
    (∃ c ∈ Condition.set now type status message reason conditions, c.type = t) ↔
      ∃ last, lastEdit? t (history ++ [.set now type status message reason]) = some last ∧ last.isSet = true := by
  by_cases same : type = t
  · subst same
    obtain ⟨since, only⟩ := has_set (distinct_iff.mp h.distinct type)
    have there := mem_ofType.mp (only ▸ List.mem_singleton_self _)
    exact iff_of_true ⟨_, there⟩ ⟨_, lastEdit?_own rfl, rfl⟩
  · exact h.present_other (.set now type status message reason) same (ofType_set_other (Ne.symm same))

theorem set (h : Recounts history conditions) :
    Recounts (history ++ [.set now type status message reason])
      (Condition.set now type status message reason conditions) := by
  have present := h.present_set now type status message reason
  rcases set_cases now type status message reason conditions with ⟨front, old, back, rfl, rfl, replaced⟩ | ⟨absent, added⟩
  · have apart := apart_of_distinct h.distinct
    refine ⟨distinct_set h.distinct, replaced ▸ h.ordered.replaced rfl rfl rfl apart, present, replaced ▸ fun c there => ?_⟩
    rcases List.mem_append.mp there with there | there
    · exact (h.told c (List.mem_append_left _ there)).other (apart c (.inl there))
    rcases List.mem_cons.mp there with rfl | there
    · exact (h.told old (List.mem_append_right _ List.mem_cons_self)).replaced
    · exact (h.told c (List.mem_append_right _ (List.mem_cons_of_mem _ there))).other (apart c (.inr there))
  · have apart : ∀ c ∈ conditions, type ≠ c.type := fun c there => (absent c there).symm
    have ended : ∀ edit, lastEdit? type history = some edit → edit.isSet = false := by
      intro edit last
      refine eq_false_of_ne_true fun set => ?_
      obtain ⟨c, there, own⟩ := (h.present type).mpr ⟨edit, last, set⟩
      exact absent c there own
    have new : insertion? type history = none := by
      unfold insertion?
      rw [opening?_eq_none ended]
      rfl
    refine ⟨distinct_set h.distinct, added ▸ h.ordered.added rfl rfl apart new, present, added ▸ fun c there => ?_⟩
    rcases List.mem_append.mp there with there | there
    · exact (h.told c there).other (apart c there)
    · obtain rfl := List.mem_singleton.mp there
      exact Told.turned fun edit last => Edit.setsTo_eq_false (ended edit last)

theorem apply (h : Recounts history conditions) (edit : Edit) :
    Recounts (history ++ [edit]) (edit.apply conditions) := by
  cases edit with
  | set now type status message reason => exact h.set now type status message reason
  | remove type => exact h.remove type

end Recounts

/-- After every history of edits the conditions recount it. -/
theorem edited_recounts (history : List Edit) : Recounts history (edited history) := by
  induction history using List.reverseRecOn with
  | nil => exact .empty
  | append_singleton history edit ih =>
    unfold edited at ih ⊢
    rw [List.foldl_append]
    exact ih.apply edit

end IamKeeper.Condition
