import IamKeeper.Proofs.Run
import IamKeeper.Proofs.VersionAge

namespace IamKeeper.Iam

open Plan

/-- The versions of a policy as a listing tells them. -/
abbrev Shelf : Type :=
  List PolicyVersion

namespace Shelf

def ids (s : Shelf) : List String :=
  s.map PolicyVersion.id

/-- The versions of a policy, of which one is the default. -/
structure Sound (s : Shelf) : Prop where
  few : s.length ≤ versionLimit
  distinct : s.ids.Nodup
  oneDefault : s.countP PolicyVersion.isDefault = 1

/-- A version that is not the default. -/
def demote (v : PolicyVersion) : PolicyVersion :=
  { v with isDefault := false }

/-- The versions without those of an id. -/
def drop (s : Shelf) (id : String) : Shelf :=
  s.filter fun v => v.id ≠ id

/-- What a call that succeeds does to the versions of one policy. Listings come in any order; there is room
for a new version only below the limit. -/
def Does (arn : String) (s : Shelf) : (call : Call) → call.Result → Shelf → Prop
  | .listPolicyVersions policy, versions, t => t = s ∧ (policy = arn → versions.Perm s)
  | .deletePolicyVersion policy id, _, t => t = if policy = arn then s.drop id else s
  | .createPolicyVersion policy _ asDefault, version, t =>
    if policy = arn then
      s.length < versionLimit ∧ version.id ∉ s.ids ∧
        ∃ v : PolicyVersion, v.id = version.id ∧ v.isDefault = asDefault ∧
          t.Perm (v :: if asDefault then s.map demote else s)
    else t = s
  | .deletePolicy policy, _, t => t = if policy = arn then [] else s
  | _, _, t => t = s

/-- The world in which calls succeed as they are named, or fail without effect. -/
def Answers (arn : String) (s : Shelf) : (r : Request) → r.Answer → Shelf → Prop
  | .iam call, .ok result, t => s.Does arn call result t
  | _, _, t => t = s

variable {s t : Shelf} {v : PolicyVersion} {arn : String}

theorem Sound.nodup (sound : s.Sound) : s.Nodup :=
  sound.distinct.of_map _

theorem Sound.ne_id (sound : s.Sound) {w : PolicyVersion} (hv : v ∈ s) (hw : w ∈ s) (h : v ≠ w) :
    v.id ≠ w.id :=
  fun same => h (List.inj_on_of_nodup_map sound.distinct hv hw same)

theorem Sound.perm (sound : s.Sound) (h : t.Perm s) : t.Sound where
  few := h.length_eq ▸ sound.few
  distinct := (h.map _).nodup_iff.mpr sound.distinct
  oneDefault := (h.countP_eq _).trans sound.oneDefault

/-- Dropping a version that is there leaves one fewer. -/
theorem length_drop (distinct : s.ids.Nodup) (hv : v ∈ s) : (s.drop v.id).length + 1 = s.length := by
  have once : s.countP (fun w => w.id = v.id) = 1 := by
    have count := List.count_eq_one_of_mem distinct (List.mem_map.mpr ⟨v, hv, rfl⟩)
    rw [List.count, ids, List.countP_map] at count
    rw [← count]
    exact List.countP_congr fun w _ => by simp
  have split := List.length_eq_countP_add_countP (fun w : PolicyVersion => decide (w.id = v.id)) (l := s)
  have rest : (s.drop v.id).length = s.countP fun w => ¬ (decide (w.id = v.id)) = true := by
    unfold drop
    rw [← List.countP_eq_length_filter]
    exact List.countP_congr fun w _ => by simp
  omega

/-- Dropping a version that is not the default keeps the default. -/
theorem Sound.drop (sound : s.Sound) (hv : v ∈ s) (other : v.isDefault = false) :
    (s.drop v.id).Sound where
  few := Nat.le_trans (List.length_filter_le ..) sound.few
  distinct := sound.distinct.sublist (List.filter_sublist.map _)
  oneDefault := by
    rw [← sound.oneDefault, Shelf.drop, List.countP_filter]
    apply List.countP_congr
    intro w hw
    by_cases hd : w.isDefault = true
    · have ne : w ≠ v := by
        intro h
        subst h
        simp [other] at hd
      simp [hd, sound.ne_id hw hv ne]
    · simp [hd]

theorem mem_drop {id : String} : v ∈ s.drop id ↔ v ∈ s ∧ v.id ≠ id := by
  simp [Shelf.drop]

/-- A new default takes the place of the old one. -/
theorem Sound.push (sound : s.Sound) (room : s.length < versionLimit) (fresh : v.id ∉ s.ids)
    (isDefault : v.isDefault = true) (h : t.Perm (v :: s.map demote)) : t.Sound := by
  have ids : Shelf.ids (v :: s.map demote) = v.id :: s.ids := by
    simp [Shelf.ids, demote, Function.comp_def]
  have none : (s.map demote).countP PolicyVersion.isDefault = 0 := by
    simp [List.countP_map, Function.comp_def, demote]
  refine Sound.perm ⟨?_, ?_, ?_⟩ h
  · simpa using Nat.succ_le_of_lt room
  · rw [ids]
    exact List.nodup_cons.mpr ⟨fresh, sound.distinct⟩
  · rw [List.countP_cons, none]
    simp [isDefault]

end Shelf

section Turn

variable {s t : Shelf} {arn document : String} {steps : List (Step world Shelf)}

def listing (arn : String) (s : Shelf) (answer : Except Fault (List PolicyVersion)) :
    Step world Shelf :=
  ⟨s, Request.iam (.listPolicyVersions arn), answer, s⟩

def deletion (arn id : String) (s : Shelf) (answer : Except Fault Unit) (t : Shelf) :
    Step world Shelf :=
  ⟨s, Request.iam (.deletePolicyVersion arn id), answer, t⟩

def creation (arn document : String) (s : Shelf) (answer : Except Fault PolicyVersion)
    (t : Shelf) : Step world Shelf :=
  ⟨s, Request.iam (.createPolicyVersion arn document true), answer, t⟩

def remark (s : Shelf) (level : Level) (text : String) : Step world Shelf :=
  ⟨s, Request.note level text, (), s⟩

/-- Making room fails at the listing, finds room, or gives up one version if that does not fail. -/
theorem run_makeRoom {outcome : Except Fault Unit} (sound : s.Sound)
    (run : Run (Shelf.Answers arn) s (makeRoom arn) steps outcome t) :
    (t = s ∧ (∃ answer, steps = [listing arn s answer]) ∧
      (outcome = .ok () → s.length < versionLimit)) ∨
    ∃ versions v, versions.Perm s ∧ versions.length = versionLimit ∧ Expendable versions v ∧
      ((∃ fault, outcome = .error fault ∧ t = s ∧
        steps = [listing arn s (.ok versions), deletion arn v.id s (.error fault) s]) ∨
      outcome = .ok () ∧ t = s.drop v.id ∧ ∃ level text,
        steps = [listing arn s (.ok versions), deletion arn v.id s (.ok ()) t,
          remark t level text]) := by
  obtain ⟨answer, mid, rest, answered, hrest, rfl⟩ := run_ask.mp run
  cases answer with
  | error fault =>
    cases answered
    obtain ⟨rfl, rfl, rfl⟩ := run_done.mp hrest
    exact .inl ⟨rfl, ⟨_, rfl⟩, fun h => nomatch h⟩
  | ok versions =>
    obtain ⟨rfl, perm⟩ := answered
    have perm := perm rfl
    have length : (byAge versions).length = mid.length := by
      rw [byAge, List.length_mergeSort, perm.length_eq]
    change Run _ _ (if (byAge versions).length < versionLimit then _ else _) _ _ _ at hrest
    split at hrest
    next room =>
      obtain ⟨rfl, rfl, rfl⟩ := run_pure.mp hrest
      exact .inl ⟨rfl, ⟨_, rfl⟩, fun _ => length ▸ room⟩
    next full =>
      have few := sound.few
      have same := perm.length_eq
      have limit : versions.length = versionLimit := by omega
      obtain ⟨v, hv⟩ := exists_expendable ((perm.countP_eq _).trans sound.oneDefault)
        (by rw [limit]; decide)
      have expendable := expendable_of_byAge (perm.nodup_iff.mpr sound.nodup) hv
      refine .inr ⟨versions, v, perm, limit, expendable, ?_⟩
      rw [hv] at hrest
      obtain ⟨answer, last, _, answered, hdrop, rfl⟩ := run_ask.mp hrest
      cases answer with
      | error fault =>
        cases answered
        obtain ⟨rfl, rfl, rfl⟩ := run_done.mp hdrop
        exact .inl ⟨fault, rfl, rfl, rfl⟩
      | ok _ =>
        obtain ⟨_, answered', outcome, rfl⟩ := run_ask_done.mp hdrop
        cases answered'
        have dropped : t = mid.drop v.id := by simpa [Shelf.Answers, Shelf.Does] using answered
        exact .inr ⟨outcome, dropped, _, _, rfl⟩

def doomed? : Request → Option (String × String)
  | .iam (.deletePolicyVersion policy id) => some (policy, id)
  | _ => none

def isCreation : Request → Bool
  | .iam (.createPolicyVersion _ _ _) => true
  | _ => false

def deletes : (r : Request) → r.Answer → Bool
  | .iam (.deletePolicyVersion _ _), .ok _ => true
  | _, _ => false

def creates : (r : Request) → r.Answer → Bool
  | .iam (.createPolicyVersion _ _ _), .ok _ => true
  | _, _ => false

def deletions (steps : List (Step world Shelf)) : Nat :=
  steps.countP fun step => deletes step.request step.answer

def creations (steps : List (Step world Shelf)) : Nat :=
  steps.countP fun step => creates step.request step.answer

theorem deletions_append (first second : List (Step world Shelf)) :
    deletions (first ++ second) = deletions first + deletions second :=
  List.countP_append ..

theorem creations_append (first second : List (Step world Shelf)) :
    creations (first ++ second) = creations first + creations second :=
  List.countP_append ..

/-- What holds of the steps of a document update from one shelf to another. -/
structure Rotates (arn : String) (s : Shelf) (steps : List (Step world Shelf)) (t : Shelf) :
    Prop where
  /-- One version is the default at all times, and never are there more than the limit. -/
  sound : ∀ step ∈ steps, step.before.Sound ∧ step.after.Sound
  ends : t.Sound
  /-- A version is created only where there is room, which is not even tried otherwise. -/
  room : ∀ step ∈ steps, isCreation step.request = true → step.before.length < versionLimit
  /-- The default version is still there in the end. -/
  kept : ∀ v ∈ s, v.isDefault = true → v.id ∈ t.ids
  /-- No version but the expendable one of a full listing is deleted, which is not even tried otherwise. -/
  expendable : ∀ step ∈ steps, ∀ policy id, doomed? step.request = some (policy, id) →
    policy = arn ∧ ∃ versions v, listing arn s (.ok versions) ∈ steps ∧ versions.Perm s ∧
      versions.length = versionLimit ∧ Expendable versions v ∧ v.id = id
  once : deletions steps ≤ 1
  balance : t.length + deletions steps = s.length + creations steps

/-- Making room rotates, and if it gets through there is room. -/
theorem makeRoom_rotates {outcome : Except Fault Unit} (sound : s.Sound)
    (run : Run (Shelf.Answers arn) s (makeRoom arn) steps outcome t) :
    Rotates arn s steps t ∧ (∀ v ∈ s, v.isDefault = true → v ∈ t) ∧ creations steps = 0 ∧
      (outcome = .ok () → t.length < versionLimit) := by
  rcases run_makeRoom sound run with ⟨rfl, ⟨answer, rfl⟩, room⟩ |
    ⟨versions, v, perm, full, expendable, ⟨fault, rfl, rfl, rfl⟩ | ⟨rfl, rfl, level, text, rfl⟩⟩
  · refine ⟨⟨?_, sound, ?_, ?_, ?_, ?_, ?_⟩, fun _ hv _ => hv, rfl, room⟩
    · simp [listing, sound]
    · simp [listing, isCreation]
    · exact fun v hv _ => List.mem_map.mpr ⟨v, hv, rfl⟩
    · simp [listing, doomed?]
    · simp [deletions, listing, deletes]
    · simp [deletions, creations, listing, deletes, creates]
  · refine ⟨⟨?_, sound, ?_, ?_, ?_, ?_, ?_⟩, fun _ hv _ => hv, rfl, fun h => nomatch h⟩
    · simp [listing, deletion, sound]
    · simp [listing, deletion, isCreation]
    · exact fun v hv _ => List.mem_map.mpr ⟨v, hv, rfl⟩
    · intro step hs policy id doomed
      have same : arn = policy ∧ v.id = id := by
        simp only [List.mem_cons, List.not_mem_nil, or_false] at hs
        rcases hs with rfl | rfl
        · exact nomatch doomed
        · simpa [deletion, doomed?] using doomed
      exact ⟨same.1.symm, versions, v, by simp, perm, full, expendable, same.2⟩
    · simp [deletions, listing, deletion, deletes]
    · simp [deletions, creations, listing, deletion, deletes, creates]
  · have hv := perm.mem_iff.mp expendable.mem
    have fewer := Shelf.length_drop sound.distinct hv
    have dropped := sound.drop hv expendable.notDefault
    have kept (w : PolicyVersion) (hw : w ∈ s) (isDefault : w.isDefault = true) :
        w ∈ s.drop v.id := by
      have ne : w ≠ v := by
        intro h
        subst h
        simp [expendable.notDefault] at isDefault
      exact Shelf.mem_drop.mpr ⟨hw, sound.ne_id hw hv ne⟩
    refine ⟨⟨?_, dropped, ?_, ?_, ?_, ?_, ?_⟩, kept, ?_, fun _ => ?_⟩
    · simp [listing, deletion, remark, sound, dropped]
    · simp [listing, deletion, remark, isCreation]
    · exact fun w hw isDefault => List.mem_map.mpr ⟨w, kept w hw isDefault, rfl⟩
    · intro step hs policy id doomed
      have same : arn = policy ∧ v.id = id := by
        simp only [List.mem_cons, List.not_mem_nil, or_false] at hs
        rcases hs with rfl | rfl | rfl
        · exact nomatch doomed
        · simpa [deletion, doomed?] using doomed
        · exact nomatch doomed
      exact ⟨same.1.symm, versions, v, by simp, perm, full, expendable, same.2⟩
    · simp [deletions, listing, deletion, remark, deletes]
    · simpa [deletions, creations, listing, deletion, remark, deletes, creates] using fewer
    · simp [creations, listing, deletion, remark, creates]
    · have same := perm.length_eq
      omega

/-- After room was made, a version is created or not, and notes follow. -/
theorem Rotates.create {mid : Shelf} {first rest : List (Step world Shelf)}
    {answer : Except Fault PolicyVersion} (rotates : Rotates arn s first mid)
    (kept : ∀ v ∈ s, v.isDefault = true → v ∈ mid) (none : creations first = 0)
    (room : mid.length < versionLimit) (ends : t.Sound) (same : ∀ id ∈ mid.ids, id ∈ t.ids)
    (length : t.length = mid.length + creations [creation arn document mid answer t])
    (notes : ∀ step ∈ rest, ∃ level text, step = remark t level text) :
    Rotates arn s (first ++ creation arn document mid answer t :: rest) t := by
  have noted (step : Step world Shelf) (hs : step ∈ rest) :
      step.before = t ∧ step.after = t ∧ isCreation step.request = false ∧
        doomed? step.request = Option.none ∧ deletes step.request step.answer = false ∧
        creates step.request step.answer = false := by
    obtain ⟨level, text, rfl⟩ := notes step hs
    exact ⟨rfl, rfl, rfl, rfl, rfl, rfl⟩
  have noDeletions : deletions (creation arn document mid answer t :: rest) = 0 := by
    unfold deletions
    rw [List.countP_eq_zero]
    intro step hs
    rcases List.mem_cons.mp hs with rfl | hs
    · exact Bool.false_ne_true
    · simp [noted step hs]
  have noCreations : creations rest = 0 := by
    unfold creations
    rw [List.countP_eq_zero]
    intro step hs
    simp [noted step hs]
  have noMoreCreations : creations (creation arn document mid answer t :: rest) =
      creations [creation arn document mid answer t] := by
    rw [← List.singleton_append, creations_append, noCreations, Nat.add_zero]
  have balance := rotates.balance
  have once := rotates.once
  refine ⟨?_, ends, ?_, ?_, ?_, ?_, ?_⟩
  · intro step hs
    rcases List.mem_append.mp hs with hs | hs
    · exact rotates.sound step hs
    rcases List.mem_cons.mp hs with rfl | hs
    · exact ⟨rotates.ends, ends⟩
    · obtain ⟨before, after, -⟩ := noted step hs
      rw [before, after]
      exact ⟨ends, ends⟩
  · intro step hs tried
    rcases List.mem_append.mp hs with hs | hs
    · exact rotates.room step hs tried
    rcases List.mem_cons.mp hs with rfl | hs
    · exact room
    · simp [noted step hs] at tried
  · intro v hv isDefault
    exact same v.id (List.mem_map.mpr ⟨v, kept v hv isDefault, rfl⟩)
  · intro step hs policy id doomed
    rcases List.mem_append.mp hs with hs | hs
    · obtain ⟨rfl, versions, v, listed, rest⟩ := rotates.expendable step hs policy id doomed
      exact ⟨rfl, versions, v, List.mem_append_left _ listed, rest⟩
    rcases List.mem_cons.mp hs with rfl | hs
    · exact nomatch doomed
    · simp [noted step hs] at doomed
  · rw [deletions_append, noDeletions]
    omega
  · rw [deletions_append, creations_append, noDeletions, noMoreCreations]
    omega

theorem updateDocument_rotates {outcome : Except Fault String} (sound : s.Sound)
    (run : Run (Shelf.Answers arn) s (updateDocument arn document) steps outcome t) :
    Rotates arn s steps t := by
  rcases run_bind.mp run with ⟨fault, hroom, -⟩ | ⟨_, mid, first, second, hroom, hcreate, rfl⟩
  · exact (makeRoom_rotates sound hroom).1
  obtain ⟨rotates, kept, none, room⟩ := makeRoom_rotates sound hroom
  have room := room rfl
  obtain ⟨answer, last, rest, answered, hrest, rfl⟩ := run_ask.mp hcreate
  cases answer with
  | error fault =>
    cases answered
    obtain ⟨rfl, -, rfl⟩ := run_done.mp hrest
    exact rotates.create kept none room rotates.ends (fun _ h => h) rfl (by simp)
  | ok version =>
    simp only [Shelf.Answers, Shelf.Does, if_true] at answered
    obtain ⟨-, fresh, v, same, isDefault, perm⟩ := answered
    obtain ⟨_, note, _, rfl⟩ := run_ask_done.mp hrest
    cases note
    have ends := rotates.ends.push room (same ▸ fresh) isDefault perm
    refine rotates.create kept none room ends ?_ ?_ ?_
    · intro id hid
      obtain ⟨w, hw, rfl⟩ := List.mem_map.mp hid
      have demoted : Shelf.demote w ∈ t :=
        perm.mem_iff.mpr (List.mem_cons_of_mem _ (List.mem_map.mpr ⟨w, hw, rfl⟩))
      exact List.mem_map.mpr ⟨_, demoted, rfl⟩
    · simpa [creations, creation, creates] using perm.length_eq
    · intro step hs
      exact ⟨_, _, List.mem_singleton.mp hs⟩

structure Turn where
  before : Shelf
  steps : List (Step world Shelf)
  outcome : Except Fault String
  after : Shelf

/-- A series of updates of one policy's document, each of which may fail. -/
inductive Series (arn : String) : Shelf → List Turn → Shelf → Prop
  | nil {s : Shelf} : Series arn s [] s
  | cons {s mid t : Shelf} {document : String} {steps : List (Step world Shelf)}
      {outcome : Except Fault String} {turns : List Turn}
      (run : Run (Shelf.Answers arn) s (updateDocument arn document) steps outcome mid)
      (rest : Series arn mid turns t) : Series arn s (⟨s, steps, outcome, mid⟩ :: turns) t

theorem exists_doomed {r : Request} {answer : r.Answer} (deleted : deletes r answer = true) :
    ∃ policy id, doomed? r = some (policy, id) := by
  unfold deletes at deleted
  split at deleted
  next policy id _ => exact ⟨policy, id, rfl⟩
  next => cases deleted

theorem Rotates.deletions_eq_zero (rotates : Rotates arn s steps t) (room : s.length < versionLimit) :
    deletions steps = 0 := by
  unfold deletions
  rw [List.countP_eq_zero]
  intro step hs deleted
  obtain ⟨policy, id, doomed⟩ := exists_doomed deleted
  obtain ⟨-, versions, v, -, perm, full, -⟩ := rotates.expendable step hs policy id doomed
  have same := perm.length_eq
  omega

theorem Series.rotates {turns : List Turn} (series : Series arn s turns t) (sound : s.Sound) :
    t.Sound ∧ ∀ turn ∈ turns, turn.before.Sound ∧
      Rotates arn turn.before turn.steps turn.after := by
  induction series with
  | nil => exact ⟨sound, by simp⟩
  | cons run rest ih =>
    have rotates := updateDocument_rotates sound run
    obtain ⟨ends, later⟩ := ih rotates.ends
    refine ⟨ends, fun turn ht => ?_⟩
    rcases List.mem_cons.mp ht with rfl | ht
    · exact ⟨sound, rotates⟩
    · exact later turn ht

theorem Series.split {first second : List Turn} (series : Series arn s (first ++ second) t) :
    ∃ mid, Series arn s first mid ∧ Series arn mid second t := by
  induction first generalizing s with
  | nil => exact ⟨s, .nil, series⟩
  | cons turn first ih =>
    cases series with
    | cons run rest =>
      obtain ⟨mid, hfirst, hsecond⟩ := ih rest
      exact ⟨mid, .cons run hfirst, hsecond⟩

/-- Without a creation there is room after one deletion, and room it stays. -/
theorem Series.deletions_le_one {turns : List Turn} (series : Series arn s turns t)
    (sound : s.Sound) (idle : ∀ turn ∈ turns, creations turn.steps = 0) :
    deletions (turns.flatMap Turn.steps) ≤ 1 ∧
      (s.length < versionLimit → deletions (turns.flatMap Turn.steps) = 0) := by
  induction series with
  | nil => exact ⟨Nat.zero_le _, fun _ => rfl⟩
  | @cons s mid t document steps outcome turns run rest ih =>
    have rotates := updateDocument_rotates sound run
    have idle := List.forall_mem_cons.mp idle
    obtain ⟨once, settled⟩ := ih rotates.ends idle.2
    have none : creations steps = 0 := idle.1
    have few := sound.few
    have balance := rotates.balance
    have atMost := rotates.once
    have unneeded := rotates.deletions_eq_zero
    have total : deletions ((⟨s, steps, outcome, mid⟩ :: turns).flatMap Turn.steps) =
        deletions steps + deletions (turns.flatMap Turn.steps) := by
      rw [List.flatMap_cons, deletions_append]
    rw [total]
    -- Only a creation could use up the room that a deletion makes.
    constructor
    · by_cases deleted : deletions steps = 0
      · omega
      · have room : mid.length < versionLimit := by omega
        have later := settled room
        omega
    · intro room
      have zero := unneeded room
      have later := settled (by omega)
      omega

/-- Over any series of document updates a policy keeps one default version and never has more versions than
the limit; each update keeps the version that was the default when it started, tries to create only where
there is room, and deletes at most one version, the expendable one of a full listing; and updates in a row
that create nothing delete at most one version together. -/
theorem rotates_of_series {turns : List Turn} (sound : s.Sound) (series : Series arn s turns t) :
    t.Sound ∧
    (∀ turn ∈ turns, turn.before.Sound ∧ Rotates arn turn.before turn.steps turn.after) ∧
    ∀ stretch, stretch <:+: turns → (∀ turn ∈ stretch, creations turn.steps = 0) →
      deletions (stretch.flatMap Turn.steps) ≤ 1 := by
  obtain ⟨ends, each⟩ := series.rotates sound
  refine ⟨ends, each, ?_⟩
  rintro stretch ⟨front, back, rfl⟩ idle
  obtain ⟨_, hfirst, -⟩ := series.split
  obtain ⟨mid, hfront, hstretch⟩ := hfirst.split
  exact (hstretch.deletions_le_one (hfront.rotates sound).1 idle).1

def atSecond (second : Fin 60) : Option Time.Instant :=
  some ⟨Time.Instant.epoch.date, second, 0, by simp [Time.secondsPerDay, Time.nanosecondsPerSecond]; omega⟩

theorem notLater_atSecond (a b : Fin 60) : notLater (atSecond a) (atSecond b) = !decide (b < a) := by
  change _ = !decide (b.val < a.val)
  have dates : Time.Instant.epoch.date.lt Time.Instant.epoch.date = false := by decide
  simp [notLater, atSecond, Time.Instant.lt, dates]

def fullShelf : Shelf :=
  [⟨"v1", none, false, atSecond 3⟩, ⟨"v2", none, true, none⟩, ⟨"v3", none, false, atSecond 2⟩,
    ⟨"v4", none, false, atSecond 2⟩, ⟨"v5", none, false, atSecond 4⟩]

/-- An update of a policy with five versions gives up the oldest one but the default, of two of one age the one that is
listed first, and then fails to create. -/
theorem fullShelf_rotates :
    ∃ turns t, fullShelf.Sound ∧ Series "arn" fullShelf turns t ∧ t = fullShelf.drop "v3" ∧
      t.Sound ∧ ∀ turn ∈ turns, Rotates "arn" turn.before turn.steps turn.after := by
  have sound : fullShelf.Sound := ⟨by decide, by decide, by decide⟩
  have sorted : byAge fullShelf = [⟨"v2", none, true, none⟩, ⟨"v3", none, false, atSecond 2⟩,
      ⟨"v4", none, false, atSecond 2⟩, ⟨"v1", none, false, atSecond 3⟩, ⟨"v5", none, false, atSecond 4⟩] := by
    have absent (date : Option Time.Instant) : notLater none date = true := rfl
    have known (second : Fin 60) : notLater (atSecond second) none = false := rfl
    simp [byAge, fullShelf, List.mergeSort, List.MergeSort.Internal.splitInTwo, notLater_atSecond, absent, known]
  have listed : fullShelf.Answers "arn" (.iam (.listPolicyVersions "arn")) (Except.ok fullShelf)
      fullShelf :=
    ⟨rfl, fun _ => .rfl⟩
  have dropped : fullShelf.Answers "arn" (.iam (.deletePolicyVersion "arn" "v3")) (Except.ok ())
      (fullShelf.drop "v3") :=
    rfl
  have oldestFirst : Run (Shelf.Answers "arn") fullShelf (policyVersions "arn")
      [listing "arn" fullShelf (.ok fullShelf)] (.ok (byAge fullShelf)) fullShelf :=
    Run.ask (I := world) listed .done
  rw [sorted] at oldestFirst
  have room : ∃ steps, Run (Shelf.Answers "arn") fullShelf (makeRoom "arn") steps (.ok ())
      (fullShelf.drop "v3") :=
    ⟨_, oldestFirst.bind <| Run.ask (I := world) dropped <|
      Run.ask (I := world) (r := Request.note _ _) (a := ()) rfl .done⟩
  have create : Run (Shelf.Answers "arn") (fullShelf.drop "v3")
      (Job.iam (.createPolicyVersion "arn" "document" true) >>= fun version => do
        Job.debug s!"policy arn now defaults to version {version.id}"
        return version.id) [creation "arn" "document" (fullShelf.drop "v3")
          (.error (.missingResult "CreatePolicyVersion" "PolicyVersion")) (fullShelf.drop "v3")]
      (.error (.missingResult "CreatePolicyVersion" "PolicyVersion")) (fullShelf.drop "v3") :=
    Run.ask (I := world) rfl .done
  obtain ⟨steps, room⟩ := room
  have series := Series.cons (room.bind create) .nil
  obtain ⟨ends, each, -⟩ := rotates_of_series sound series
  exact ⟨_, _, sound, series, rfl, ends, fun turn ht => (each turn ht).2⟩

end Turn

end IamKeeper.Iam
