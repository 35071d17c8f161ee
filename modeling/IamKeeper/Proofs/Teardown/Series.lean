import IamKeeper.Proofs.Teardown.Clearing
import IamKeeper.Proofs.Tracking.Sync

namespace IamKeeper

open Iam
open Plan hiding bind_assoc
open Estate (Answers)

/-- A request that leaves IAM and the cluster alone. -/
def Request.Notes (r : Request) : Prop :=
  r.Among fun _ => False

theorem Request.Notes.among {P : Call → Prop} {r : Request} (h : r.Notes) : r.Among P :=
  Among.mono (fun _ => False.elim) r h

theorem Iam.Call.isDelete_eq (call : Call) : call.isDelete = call.deleted?.isSome := by
  cases call <;> rfl

theorem Request.Among.keeps {P : Call → Prop} (keeps : ∀ call, P call → call.deleted? = none)
    {r : Request} (h : r.Among P) : r.destroys = false := by
  cases r with
  | iam call =>
    have alone := keeps call h
    simp [Request.destroys, Call.isDelete_eq, alone]
  | _ => rfl

theorem Estate.Unties.deleted? {s : Estate} {owner : Owner} {call : Call}
    (h : s.Unties owner call) : call.deleted? = none := by
  rcases h with read | ⟨tie, untied, -⟩
  · exact Call.deleted?_read read
  · exact Call.deleted?_untied (Option.isSome_of_mem untied)

namespace Kind

variable {kind : Kind} {s t : Estate} {key : String} {o : kind.Object}
  {steps : List (Step world Estate)} {outcome : Except Fault Unit}

/-- The steps of a removal: the entity is read, cleared and deleted, as far as the removal gets. -/
inductive Removes (kind : Kind) (s : Estate) (key : String) : List (Step world Estate) → Prop
  | short {steps : List (Step world Estate)}
      (unties : ∀ step ∈ steps, step.request.Among (s.Unties (kind.owner key))) :
      Removes kind s key steps
  | whole {front back : List (Step world Estate)} {mid after : Estate}
      {answer : (Request.iam (kind.deletion key)).Answer}
      (unties : ∀ step ∈ front, step.request.Among (s.Unties (kind.owner key)))
      (accepted : ¬ mid.Refuses (kind.deletion key)) (notes : ∀ step ∈ back, step.request.Notes) :
      Removes kind s key (front ++ ⟨mid, .iam (kind.deletion key), answer, after⟩ :: back)

theorem Removes.after {front : List (Step world Estate)}
    (unties : ∀ step ∈ front, step.request.Among (s.Unties (kind.owner key)))
    (removes : Removes kind s key steps) : Removes kind s key (front ++ steps) := by
  cases removes with
  | short unties' => exact .short (List.forall_mem_append.mpr ⟨unties, unties'⟩)
  | whole unties' accepted notes =>
    rw [← List.append_assoc]
    exact .whole (List.forall_mem_append.mpr ⟨unties, unties'⟩) accepted notes

theorem Removes.faded {mid : Estate} (fades : s.Fades mid) (removes : Removes kind mid key steps) :
    Removes kind s key steps := by
  cases removes with
  | short unties => exact .short fun step hs => (unties step hs).mono fun _ => .faded fades
  | whole unties accepted notes =>
    exact .whole (fun step hs => (unties step hs).mono fun _ => .faded fades) accepted notes

theorem Removes.calls (removes : Removes kind s key steps) : ∀ step ∈ steps,
    step.request.Among fun call =>
      s.Unties (kind.owner key) call ∨ call.deleted? = some (kind.owner key) := by
  cases removes with
  | short unties => exact fun step hs => (unties step hs).mono fun _ => .inl
  | whole unties accepted notes =>
    refine List.forall_mem_append.mpr ⟨fun step hs => (unties step hs).mono fun _ => .inl,
      List.forall_mem_cons.mpr ⟨.inr (kind.deleted?_deletion key), fun step hs => (notes step hs).among⟩⟩

theorem Removes.accepted (removes : Removes kind s key steps) : ∀ step ∈ steps, ∀ call,
    step.request = .iam call → ¬ step.before.Refuses call := by
  have kept (step : Step world Estate) (unties : step.request.Among (s.Unties (kind.owner key)))
      (call : Call) (same : step.request = .iam call) : ¬ step.before.Refuses call := by
    rw [same] at unties
    intro refused
    obtain ⟨owner, tie, deleted, -⟩ := refused
    cases (Estate.Unties.deleted? unties).symm.trans deleted
  cases removes with
  | short unties => exact fun step hs => kept step (unties step hs)
  | whole unties accepted notes =>
    refine List.forall_mem_append.mpr ⟨fun step hs => kept step (unties step hs),
      List.forall_mem_cons.mpr ⟨fun call same => ?_, fun step hs => kept step (notes step hs).among⟩⟩
    cases same
    exact accepted

theorem Removes.last (removes : Removes kind s key steps) : steps.Pairwise fun earlier later =>
    earlier.request.destroys = true → later.request.Notes := by
  have kept (step : Step world Estate) (unties : step.request.Among (s.Unties (kind.owner key))) :
      step.request.destroys ≠ true := by
    rw [unties.keeps fun _ => Estate.Unties.deleted?]
    exact Bool.false_ne_true
  cases removes with
  | short unties =>
    exact List.pairwise_of_forall_mem_list fun earlier he _ _ destroys =>
      absurd destroys (kept earlier (unties earlier he))
  | @whole front back mid after answer unties accepted notes =>
    refine List.pairwise_append.mpr ⟨?_, List.pairwise_cons.mpr ⟨fun later hl _ => notes later hl, ?_⟩, ?_⟩
    · exact List.pairwise_of_forall_mem_list fun earlier he _ _ destroys =>
        absurd destroys (kept earlier (unties earlier he))
    · exact List.pairwise_of_forall_mem_list fun _ _ later hl _ => notes later hl
    · exact fun earlier he _ _ destroys => absurd destroys (kept earlier (unties earlier he))

theorem Removes.deleted {mid after : Estate} {answer : (Request.iam (kind.deletion key)).Answer}
    {back : List (Step world Estate)} (accepted : ¬ mid.Refuses (kind.deletion key))
    (notes : ∀ step ∈ back, step.request.Notes) :
    Removes kind s key (⟨mid, .iam (kind.deletion key), answer, after⟩ :: back) := by
  have none : ∀ step ∈ ([] : List (Step world Estate)),
      step.request.Among (s.Unties (kind.owner key)) := by simp
  exact .whole none accepted notes

theorem run_deletion {text : (kind.deletion key).Result → String}
    (rid : ∀ tie, tie.bond ∈ (kind.deletion key).bonds → ¬ s.Holds (kind.owner key) tie)
    (run : Run Answers s (Job.iam (kind.deletion key) >>= fun result => Job.info (text result)) steps
      outcome t) :
    Removes kind s key steps ∧ (∃ step ∈ steps, step.request = .iam (kind.deletion key)) ∧
      (outcome = .ok () → t (kind.owner key) = none) := by
  have deleted := kind.deleted?_deletion key
  have accepted : ¬ s.Refuses (kind.deletion key) := by
    intro h
    obtain ⟨owner, tie, same, mem, held⟩ := h
    cases deleted.symm.trans same
    exact rid tie mem held
  rcases run_bind.mp run with ⟨fault, hcall, rfl⟩ | ⟨result, mid, _, rest, hcall, hnote, rfl⟩
  · obtain ⟨answer, -, -, rfl⟩ := run_ask_done.mp hcall
    exact ⟨.deleted accepted (by simp), ⟨_, List.mem_cons_self .., rfl⟩, nofun⟩
  · obtain ⟨answer, answered, rfl, rfl⟩ := run_ask_done.mp hcall
    obtain ⟨_, noted, -, rfl⟩ := run_ask_done.mp hnote
    cases noted
    have gone := answered.2.deletes _ deleted
    refine ⟨.deleted accepted (List.forall_mem_singleton.mpr trivial), ⟨_, List.mem_cons_self .., rfl⟩,
      fun _ => ?_⟩
    rw [gone, Function.update_self]

theorem run_delete (sound : s.Sound) {latest : kind.Object}
    (known : kind.key? latest.spec latest.status = some key) (shows : kind.Shows s key latest)
    (run : Run Answers s (kind.manager.delete latest) steps outcome t) :
    Removes kind s key steps ∧ (outcome = .ok () → t (kind.owner key) = none ∧
      ∃ step ∈ steps, step.request = .iam (kind.deletion key)) := by
  obtain ⟨text, eq⟩ := kind.delete_eq latest
  rw [eq, known] at run
  have rids := rids_clear sound shows
  rcases run_bind.mp run with ⟨fault, hclear, rfl⟩ | ⟨_, mid, first, rest, hclear, hrest, rfl⟩
  · exact ⟨.short (rids _ _ _ hclear).1, nofun⟩
  · obtain ⟨unties, rid⟩ := rids _ _ _ hclear
    obtain ⟨removes, ⟨step, hs, same⟩, gone⟩ := run_deletion (rid rfl) hrest
    exact ⟨(removes.faded (rids.fades hclear)).after unties, fun through =>
      ⟨gone through, step, List.mem_append_right _ hs, same⟩⟩

theorem run_remove (sound : s.Sound) (known : kind.key? o.spec o.status = some key)
    (run : Run Answers s (kind.manager.remove o) steps outcome t) :
    Removes kind s key steps ∧ (outcome = .ok () → t (kind.owner key) = none ∧
      (s (kind.owner key) ≠ none → ∃ step ∈ steps, step.request = .iam (kind.deletion key))) := by
  have looked {first : List (Step world Estate)} {found : Except Fault (Option kind.Object)}
      {mid : Estate} (hread : Run Answers s (kind.manager.readOne o) first found mid) :
      mid = s ∧ ∀ step ∈ first, step.request.Among (s.Unties (kind.owner key)) := by
    have reads := Job.Heeds.asked (kind.reads Replies.escaped_own o) Estate.escaped_bound hread
    exact ⟨Estate.run_still hread reads, fun step hs => (reads step hs).mono fun _ => .inl⟩
  rcases run_bind.mp run with ⟨fault, hread, rfl⟩ | ⟨found, mid, first, rest, hread, hrest, rfl⟩
  · exact ⟨.short (looked hread).2, nofun⟩
  obtain ⟨rfl, unties⟩ := looked hread
  have told := run_readOne sound known hread
  cases found with
  | none =>
    obtain ⟨_, noted, -, rfl⟩ := run_ask_done.mp hrest
    cases noted
    have missing := told.missing rfl
    exact ⟨.short (List.forall_mem_append.mpr ⟨unties, List.forall_mem_singleton.mpr trivial⟩),
      fun _ => ⟨missing, absurd missing⟩⟩
  | some latest =>
    obtain ⟨removes, gone⟩ := run_delete sound (told.known _ rfl) (told.shows _ rfl) hrest
    refine ⟨removes.after unties, fun through => ?_⟩
    obtain ⟨lost, step, hs, same⟩ := gone through
    exact ⟨lost, fun _ => ⟨step, List.mem_append_right _ hs, same⟩⟩

end Kind

structure Removal where
  kind : Kind
  object : kind.Object
  before : Estate
  steps : List (Step world Estate)
  outcome : Except Fault Unit
  after : Estate

namespace Removal

variable {r : Removal}

def Ran (r : Removal) : Prop :=
  Run Answers r.before (r.kind.manager.remove r.object) r.steps r.outcome r.after

def owner? (r : Removal) : Option Owner :=
  (r.kind.key? r.object.spec r.object.status).map r.kind.owner

/-- What the calls of a removal may do: read, take away what hung on the entity when it started, and delete
the entity. -/
def Allows (r : Removal) (call : Call) : Prop :=
  call.isRead = true ∨ ∃ owner, r.owner? = some owner ∧
    ((∃ tie, call.untied? = some (owner, tie) ∧ r.before.Holds owner tie) ∨
      call.deleted? = some owner)

structure Orderly (r : Removal) : Prop where
  calls : ∀ step ∈ r.steps, step.request.Among r.Allows
  accepted : ∀ step ∈ r.steps, ∀ call, step.request = .iam call → ¬ step.before.Refuses call
  last : r.steps.Pairwise fun earlier later =>
    earlier.request.destroys = true → later.request.Notes
  stops : r.steps.Pairwise fun earlier _ => earlier.failed = false
  fails : ∀ fault, r.outcome = .error fault → ∃ step ∈ r.steps, step.failed = true
  smooth : r.outcome = .ok () → ∀ step ∈ r.steps, step.failed = false
  gone : r.outcome = .ok () → ∀ owner, r.owner? = some owner → r.after owner = none ∧
    (r.before owner ≠ none → ∃ step ∈ r.steps, step.request.destroys = true)

theorem Ran.removes (ran : r.Ran) (sound : r.before.Sound) :
    ∃ key, Kind.Removes r.kind r.before key r.steps ∧
      (∀ owner, r.owner? = some owner → owner = r.kind.owner key ∧
        (r.outcome = .ok () → r.after owner = none ∧
          (r.before owner ≠ none → ∃ step ∈ r.steps, step.request.destroys = true))) ∧
      (r.owner? = none → ∀ step ∈ r.steps, step.request.Notes) := by
  have run : Run Answers r.before (r.kind.manager.remove r.object) r.steps r.outcome r.after := ran
  cases hk : r.kind.key? r.object.spec r.object.status with
  | some key =>
    have own : r.owner? = some (r.kind.owner key) := by simp [owner?, hk]
    obtain ⟨removes, gone⟩ := Kind.run_remove sound hk run
    refine ⟨key, removes, fun owner same => ?_, fun unknown => ?_⟩
    · cases own.symm.trans same
      refine ⟨rfl, fun through => ⟨(gone through).1, fun there => ?_⟩⟩
      obtain ⟨step, hs, same⟩ := (gone through).2 there
      refine ⟨step, hs, ?_⟩
      rw [same]
      cases r.kind <;> rfl
    · cases own.symm.trans unknown
  | none =>
    -- Without a key nothing is read, and the entity counts as gone.
    have unknown : r.owner? = none := by simp [owner?, hk]
    have blind := (r.kind.tracks.read r.object).blind hk
    have notes : ∀ step ∈ r.steps, step.request.Notes := by
      unfold Manager.remove at run
      rw [blind] at run
      obtain ⟨_, -, -, steps⟩ := run_ask_done.mp run
      rw [steps]
      exact List.forall_mem_singleton.mpr trivial
    refine ⟨"", .short fun step hs => (notes step hs).among, fun owner same => ?_, fun _ => notes⟩
    cases unknown.symm.trans same

theorem Ran.orderly (ran : r.Ran) (sound : r.before.Sound) : r.Orderly := by
  have heeds := r.kind.heeds_remove Replies.escaped_own r.object
  obtain ⟨key, removes, own, unknown⟩ := ran.removes sound
  refine ⟨fun step hs => ?_, removes.accepted, removes.last,
    heeds.uninterrupted Estate.escaped_bound ran, fun fault h => ?_, fun h => ?_,
    fun h owner same => (own owner same).2 h⟩
  · cases ho : r.owner? with
    | none => exact (unknown ho step hs).among
    | some owner =>
      obtain ⟨rfl, -⟩ := own owner ho
      refine (removes.calls step hs).mono fun call allowed => ?_
      rcases allowed with (read | untied) | deleted
      · exact .inl read
      · exact .inr ⟨_, ho, .inl untied⟩
      · exact .inr ⟨_, ho, .inr deleted⟩
  · unfold Ran at ran
    rw [h] at ran
    rcases heeds.blames Estate.escaped_bound ran with impossible | failed
    · exact impossible.elim
    · exact failed
  · unfold Ran at ran
    rw [h] at ran
    exact heeds.smooth Estate.escaped_bound ran

theorem Ran.fades (ran : r.Ran) :
    r.before.Fades r.after ∧
      ∀ step ∈ r.steps, r.before.Fades step.before ∧ step.after.Fades r.after :=
  Estate.run_fades ran (Job.Heeds.asked (r.kind.heeds_remove Replies.escaped_own r.object)
    Estate.escaped_bound ran)

def Asks (r : Removal) (owner : Owner) (tie : Tie) : Prop :=
  ∃ step ∈ r.steps, ∃ call, step.request = .iam call ∧ call.untied? = some (owner, tie)

def Takes (r : Removal) (owner : Owner) (tie : Tie) : Prop :=
  ∃ step ∈ r.steps, ∃ call, step.request = .iam call ∧ call.untied? = some (owner, tie) ∧
    step.failed = false

theorem Ran.held (ran : r.Ran) (sound : r.before.Sound) {owner : Owner} {tie : Tie}
    (asks : r.Asks owner tie) : r.before.Holds owner tie := by
  obtain ⟨step, hs, call, same, untied⟩ := asks
  have allowed := (ran.orderly sound).calls step hs
  rw [same] at allowed
  rcases allowed with read | ⟨owner', -, ⟨tie', untied', held⟩ | deleted⟩
  · cases (Call.untied?_read read).symm.trans untied
  · cases untied.symm.trans untied'
    exact held
  · cases (Call.deleted?_untied (Option.isSome_of_mem untied)).symm.trans deleted

theorem Ran.lost (ran : r.Ran) {owner : Owner} {tie : Tie} (takes : r.Takes owner tie) :
    ¬ r.after.Holds owner tie := by
  obtain ⟨⟨before, request, answer, after⟩, hs, call, same, untied, smooth⟩ := takes
  cases same
  cases answer with
  | error fault => cases smooth
  | ok result =>
    have answered := Run.answered ran _ hs
    have gone : after = before.untie owner tie := answered.2.unties owner tie untied
    intro held
    have still := (ran.fades.2 _ hs).2.holds _ _ held
    rw [gone, Estate.holds_untie] at still
    exact still.2 ⟨rfl, rfl⟩

/-- Removals one after the other. Between two of them what others take away may go as well. -/
inductive Series : Estate → List Removal → Estate → Prop
  | nil {s : Estate} : Series s [] s
  | fade {s mid t : Estate} {removals : List Removal} (fades : s.Fades mid)
      (rest : Series mid removals t) : Series s removals t
  | remove {r : Removal} {removals : List Removal} {t : Estate} (ran : r.Ran)
      (rest : Series r.after removals t) : Series r.before (r :: removals) t

variable {s t : Estate} {removals : List Removal}

theorem Series.each (series : Series s removals t) :
    s.Fades t ∧ ∀ r ∈ removals, r.Ran ∧ s.Fades r.before := by
  induction series with
  | nil => exact ⟨.refl _, by simp⟩
  | fade fades _ ih => exact ⟨fades.trans ih.1, fun r hr => ⟨(ih.2 r hr).1, fades.trans (ih.2 r hr).2⟩⟩
  | remove ran _ ih =>
    have fades := ran.fades.1
    exact ⟨fades.trans ih.1, List.forall_mem_cons.mpr ⟨⟨ran, .refl _⟩, fun r hr =>
      ⟨(ih.2 r hr).1, fades.trans (ih.2 r hr).2⟩⟩⟩

/-- What was taken away is not there for any later removal to ask for. -/
theorem Series.once (series : Series s removals t) (sound : s.Sound) :
    removals.Pairwise fun earlier later =>
      ∀ owner tie, earlier.Takes owner tie → ¬ later.Asks owner tie := by
  induction series with
  | nil => exact .nil
  | fade fades _ ih => exact ih (sound.fades fades)
  | remove ran rest ih =>
    have after := sound.fades ran.fades.1
    refine List.pairwise_cons.mpr ⟨fun later hl owner tie takes asks => ?_, ih after⟩
    obtain ⟨ran', fades⟩ := rest.each.2 later hl
    exact ran.lost takes (fades.holds _ _ (ran'.held (after.fades fades) asks))

/-- A removal can run without a failure, since none of its calls is refused. -/
theorem exists_smooth (sound : s.Sound) (kind : Kind) (o : kind.Object) :
    ∃ steps u, Run Answers s (kind.manager.remove o) steps (.ok ()) u ∧
      ∀ step ∈ steps, step.failed = false := by
  obtain ⟨steps, outcome, u, run, fine⟩ :=
    Estate.exists_run (kind.heeds_remove Replies.escaped_own o) s
  have orderly : (Removal.mk kind o s steps outcome u).Orderly := Ran.orderly run sound
  have smooth (step) (hs : step ∈ steps) : step.failed = false := by
    by_contra failed
    obtain ⟨call, same, refused⟩ := fine step hs (Bool.of_not_eq_false failed)
    exact orderly.accepted step hs call same refused
  cases outcome with
  | ok _ => exact ⟨steps, u, run, smooth⟩
  | error fault =>
    obtain ⟨step, hs, failed⟩ := orderly.fails fault rfl
    cases (smooth step hs).symm.trans failed

/-- Every removal of a series is orderly, asks for nothing that an earlier one took away, and after all of
them any object can be removed without a failure. -/
theorem Series.orderly_and_removable (series : Series s removals t) (sound : s.Sound) :
    (∀ r ∈ removals, r.Orderly) ∧
    (removals.Pairwise fun earlier later =>
      ∀ owner tie, earlier.Takes owner tie → ¬ later.Asks owner tie) ∧
    ∀ (kind : Kind) (o : kind.Object), ∃ steps u,
      Run Answers t (kind.manager.remove o) steps (.ok ()) u ∧
        ∀ step ∈ steps, step.failed = false := by
  obtain ⟨fades, each⟩ := series.each
  exact ⟨fun r hr => (each r hr).1.orderly (sound.fades (each r hr).2), series.once sound,
    exists_smooth (sound.fades fades)⟩

def web : Kind.instanceProfile.Object where
  metadata := ⟨some "web", none, some "space", [], none⟩
  spec := ⟨"web", none, some "app", none, []⟩
  status := none

/-- An instance profile that holds a role, and nothing else. -/
def webEstate : Estate :=
  Function.update (fun _ => none) (.instanceProfile "web") (some [⟨.role, "app"⟩])

theorem holds_webEstate {owner : Owner} {tie : Tie} :
    webEstate.Holds owner tie ↔ owner = .instanceProfile "web" ∧ tie = ⟨.role, "app"⟩ := by
  unfold Estate.Holds webEstate
  by_cases same : owner = .instanceProfile "web"
  · subst same
    simp
  · simp [same]

/-- A removal takes the role out and then cannot delete the profile; the next one only deletes it. -/
theorem web_removed :
    ∃ first second, webEstate.Sound ∧ Series webEstate [first, second] second.after ∧
      first.Takes (.instanceProfile "web") ⟨.role, "app"⟩ ∧
      ¬ second.Asks (.instanceProfile "web") ⟨.role, "app"⟩ ∧
      second.after (.instanceProfile "web") = none := by
  have sound : webEstate.Sound := by
    intro profile role held
    have same : role = "app" := congrArg Tie.name (holds_webEstate.mp held).2
    subst same
    exact ⟨by decide, fun other h => congrArg Tie.name (holds_webEstate.mp h).2⟩
  let mid := webEstate.untie (.instanceProfile "web") ⟨.role, "app"⟩
  let report : InstanceProfileReport := { (default : InstanceProfileReport) with
    name := "web", roles := ["app"] }
  have found : webEstate.Does (.getInstanceProfile "web") (some report) webEstate := by
    refine ⟨nofun, fun _ => ⟨⟨by simp [webEstate], fun _ h => ?_⟩, rfl⟩, nofun, nofun⟩
    cases h
    exact ⟨rfl, fun role => by simp [report, holds_webEstate]⟩
  have listed : webEstate.Does (.listTags (.instanceProfile "web")) [] webEstate :=
    ⟨nofun, fun _ => ⟨trivial, rfl⟩, nofun, nofun⟩
  have taken : webEstate.Does (.removeRole "web" "app") () mid := by
    refine ⟨nofun, nofun, fun _ _ h => ?_, nofun⟩
    cases h
    rfl
  have run : ∃ steps outcome, Run Answers webEstate (instanceProfileManager.remove web) steps outcome mid ∧
      ∃ step ∈ steps, step.request = .iam (.removeRole "web" "app") ∧ step.failed = false :=
    ⟨_, _,
      Job.run_ask (r := Request.iam (.getInstanceProfile "web")) (Except.ok (some report))
        ⟨Estate.escaped_of_nil rfl, found⟩ <|
      Job.run_ask (r := Request.iam (.listTags (.instanceProfile "web"))) (Except.ok [])
        ⟨Estate.escaped_of_nil rfl, listed⟩ <|
      Job.run_ask (r := Request.note _ _) () rfl <|
      Job.run_ask (r := Request.iam (.removeRole "web" "app")) (Except.ok ())
        ⟨Estate.escaped_of_nil rfl, taken⟩ <|
      Job.run_ask (r := Request.iam (.deleteInstanceProfile "web"))
        (Except.error (.iam "DeleteInstanceProfile" none "throttled")) rfl .done,
      _, .tail _ (.tail _ (.tail _ (.head _))), rfl, rfl⟩
  obtain ⟨steps, outcome, run, step, hs, same, smooth⟩ := run
  let first : Removal := ⟨.instanceProfile, web, webEstate, steps, outcome, mid⟩
  have ran : first.Ran := run
  have once : Series webEstate [first] mid := .remove ran .nil
  obtain ⟨-, -, again⟩ := once.orderly_and_removable sound
  obtain ⟨steps', u, run', -⟩ := again .instanceProfile web
  let second : Removal := ⟨.instanceProfile, web, mid, steps', .ok (), u⟩
  have ran' : second.Ran := run'
  have series : Series webEstate [first, second] u := .remove ran (.remove ran' .nil)
  obtain ⟨orderly, pairwise, -⟩ := series.orderly_and_removable sound
  have takes : first.Takes (.instanceProfile "web") ⟨.role, "app"⟩ := ⟨step, hs, _, same, rfl, smooth⟩
  refine ⟨first, second, sound, series, takes, ?_, ?_⟩
  · exact (List.pairwise_cons.mp pairwise).1 second (List.mem_singleton_self _) _ _ takes
  · exact ((orderly second (List.mem_cons_of_mem _ (List.mem_singleton_self _))).gone rfl _ rfl).1

end Removal

end IamKeeper
