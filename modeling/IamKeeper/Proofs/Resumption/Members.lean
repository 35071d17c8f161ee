import IamKeeper.Manager.OidcProvider
import IamKeeper.Proofs.Entries
import IamKeeper.Proofs.Resumption.Basic

namespace IamKeeper

open Iam (Call Principal)
open Function (update)
open Step

/-- A set of members in a store, with the jobs that add and remove one. -/
structure Membership where
  members : Store → Set String
  put : Store → Set String → Store
  members_put (s : Store) (kept : Set String) : members (put s kept) = kept
  put_members (s : Store) : put s (members s) = s
  put_put (s : Store) (kept kept' : Set String) : put (put s kept) kept' = put s kept'
  add : String → Call
  remove : String → Call
  apart (item item' : String) : remove item ≠ add item'
  keys_add (item : String) : (add item).keys = [item]
  keys_remove (item : String) : (remove item).keys = [item]
  after_add (s : Store) (item : String) : s.after (add item) = put s (insert item (members s))
  after_remove (s : Store) (item : String) : s.after (remove item) = put s (members s \ {item})
  adding : String → Job Unit
  removing : String → Job Unit
  adds (item : String) : Performs [add item] (adding item)
  removes (item : String) : Performs [remove item] (removing item)

/-- What members that are brought in line keep to: none that is wanted is ever lost, and none is removed before all that
are wanted are there. -/
structure MembersKept (members : Store → Set String) (add remove : String → Call) (desired latest : List String)
    (s : Store) (steps : List (Step world Store)) : Prop where
  lower : ∀ u ∈ states s steps, ∀ item ∈ desired, item ∈ latest → item ∈ members u
  upper : ∀ u ∈ states s steps, ∀ item ∈ members u, item ∈ desired ∨ item ∈ latest
  once : ∃ added removed : List String, called steps = added.map add ++ removed.map remove ∧ (added ++ removed).Nodup
  patient : ∀ front step rest item, steps = front ++ step :: rest → step.request = .iam (remove item) →
    ∀ wanted ∈ desired, wanted ∉ latest → add wanted ∈ carriedOut front

namespace Membership

open Iam (difference mem_difference)

variable (m : Membership) {desired latest : List String}

def part : Compartment Prop where
  contents s item := item ∈ m.members s
  place s kept := m.put s {item | kept item}
  contents_place s kept := by simp [m.members_put]
  place_contents s := m.put_members s
  place_place s kept kept' := m.put_put s _ _

def calls (desired latest : List String) : List Call :=
  (difference desired latest).map m.add ++ (difference latest desired).map m.remove

theorem sets {call : Call} (there : call ∈ m.calls desired latest) (s : Store) :
    s.after call = m.part.place s fun key => if key ∈ call.keys then key ∈ desired else key ∈ m.members s := by
  rcases List.mem_append.mp there with there | there
  · obtain ⟨item, missing, rfl⟩ := List.mem_map.mp there
    rw [m.after_add, m.keys_add]
    refine congrArg (m.put s) (Set.ext fun key => ?_)
    by_cases same : key = item
    · simp [same, (mem_difference.mp missing).1]
    · simp [same]
  · obtain ⟨item, surplus, rfl⟩ := List.mem_map.mp there
    rw [m.after_remove, m.keys_remove]
    refine congrArg (m.put s) (Set.ext fun key => ?_)
    by_cases same : key = item
    · simp [same, (mem_difference.mp surplus).2]
    · simp [same]

theorem covers {key : String} (differs : (key ∈ desired) ≠ (key ∈ latest)) :
    ∃ call ∈ m.calls desired latest, key ∈ call.keys := by
  by_cases wanted : key ∈ desired
  · have missing : key ∉ latest := fun there => differs (by simp [wanted, there])
    have added := List.mem_map_of_mem (f := m.add) (mem_difference.mpr ⟨wanted, missing⟩)
    exact ⟨m.add key, List.mem_append_left _ added, by simp [m.keys_add]⟩
  · have there : key ∈ latest := by
      by_contra missing
      exact differs (by simp [wanted, missing])
    have removed := List.mem_map_of_mem (f := m.remove) (mem_difference.mpr ⟨there, wanted⟩)
    exact ⟨m.remove key, List.mem_append_right _ removed, by simp [m.keys_remove]⟩

def hook (desired : List String) : Hook (List String) Prop where
  part := m.part
  told latest item := item ∈ latest
  aim item _ := item ∈ desired
  calls := m.calls desired
  job latest := do
    Plan.forEach m.adding (difference desired latest)
    Plan.forEach m.removing (difference latest desired)
  performs _ := (Performs.forEach m.adds _).bind (Performs.forEach m.removes _)
  sets _ _ := m.sets
  covers _ _ := m.covers
  settled _ _ := rfl

/-- Items are added and removed in order, and no item is both. -/
theorem once_of_prefix {add remove : String → Call} {called : List Call}
    (front : called <+: (difference desired latest).map add ++ (difference latest desired).map remove) :
    ∃ added removed : List String, called = added.map add ++ removed.map remove ∧ (added ++ removed).Nodup := by
  have apart : (difference desired latest ++ difference latest desired).Nodup := by
    refine List.nodup_append'.mpr ⟨(Table.keys_nodup _).filter _, (Table.keys_nodup _).filter _, ?_⟩
    exact fun item missing surplus => (mem_difference.mp missing).2 (mem_difference.mp surplus).1
  rw [List.prefix_iff_eq_take.mp front, List.take_append, ← List.map_take, ← List.map_take]
  exact ⟨_, _, rfl, apart.sublist ((List.take_sublist _ _).append (List.take_sublist _ _))⟩

section Kept

variable {m} {s t u : Store} {steps : List (Step world Store)}

theorem members_left (read : (m.hook desired).told latest = m.part.contents s)
    (trail : Trail ((m.hook desired).calls latest) s steps t) (left : u ∈ states s steps) (item : String) :
    (item ∈ m.members u ↔ item ∈ latest) ∨ (item ∈ m.members u ↔ item ∈ desired) := by
  obtain ⟨made, front, rfl⟩ := trail.states_left u left
  rcases (m.hook desired).halfway front.subset read item with same | done
  · exact .inl (iff_of_eq (same.trans (congrFun read item).symm))
  · exact .inr (iff_of_eq done)

theorem kept (read : (m.hook desired).told latest = m.part.contents s)
    (trail : Trail ((m.hook desired).calls latest) s steps t) :
    MembersKept m.members m.add m.remove desired latest s steps where
  lower := by
    intro u left item wanted there
    rcases members_left read trail left item with same | done
    · exact same.mpr there
    · exact done.mpr wanted
  upper := by
    intro u left item there
    rcases members_left read trail left item with same | done
    · exact .inr (same.mp there)
    · exact .inl (done.mp there)
  once := once_of_prefix trail.called_prefix
  patient := by
    rintro front step rest item rfl made wanted hw missing
    have late : m.remove item ∉ (difference desired latest).map m.add := by
      intro there
      obtain ⟨other, -, same⟩ := List.mem_map.mp there
      exact m.apart item other same.symm
    exact trail.earlier_carriedOut made late (List.mem_map_of_mem (mem_difference.mpr ⟨hw, missing⟩))

end Kept

theorem interruptible (desired : List String) : Interruptible (fun s item => item ∈ m.members s)
    (fun latest item => item ∈ latest) (fun kept => ∀ item, kept item ↔ item ∈ desired) (m.hook desired).job
    fun latest s steps _ => MembersKept m.members m.add m.remove desired latest s steps :=
  (m.hook desired).interruptible (fun _ _ => Iff.rfl) kept

/-- The policies that are attached to a principal. -/
def attached (p : Principal) : Membership where
  members s := s.attached p
  put s kept := { s with attached := update s.attached p kept }
  members_put s kept := by simp
  put_members s := by simp
  put_put s kept kept' := by simp
  add := .attach p
  remove := .detach p
  apart _ _ := nofun
  keys_add _ := rfl
  keys_remove _ := rfl
  after_add _ _ := rfl
  after_remove _ _ := rfl
  adding := Iam.attach p
  removing := Iam.detach p
  adds _ := .note (.call ⟨()⟩ (fun _ => rfl) fun _ => .done)
  removes _ := .note (.call ⟨()⟩ (fun _ => rfl) fun _ => .done)

/-- The client ids of a provider. -/
def clientIds (arn : String) : Membership where
  members s := s.clientIds arn
  put s kept := { s with clientIds := update s.clientIds arn kept }
  members_put s kept := by simp
  put_members s := by simp
  put_put s kept kept' := by simp
  add := .addClientId arn
  remove := .removeClientId arn
  apart _ _ := nofun
  keys_add _ := rfl
  keys_remove _ := rfl
  after_add _ _ := rfl
  after_remove _ _ := rfl
  adding := OidcProviderManager.addClientId arn
  removing := OidcProviderManager.removeClientId arn
  adds _ := .note (.call ⟨()⟩ (fun _ => rfl) fun _ => .done)
  removes _ := .note (.call ⟨()⟩ (fun _ => rfl) fun _ => .done)

end Membership

end IamKeeper
