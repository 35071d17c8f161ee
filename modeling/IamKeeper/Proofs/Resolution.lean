import IamKeeper.Proofs.Account
import IamKeeper.Proofs.References

namespace IamKeeper

open Plan hiding bind_assoc

/-- A request for an object that a reference of any kind may lead to. -/
def Request.Refers : Request → Prop
  | .policy _ _ | .role _ _ => True
  | _ => False

theorem Request.Refers.unpatched {r : Request} (h : r.Refers) : r.patches = false := by
  cases r with
  | policy | role => rfl
  | _ => cases h

theorem Request.Refers.reads {r : Request} (h : r.Refers) : r.Reads := by
  cases r with
  | policy | role => rfl
  | _ => cases h

theorem Request.LooksUp.refers {r : Request} (h : r.LooksUp) : r.Refers := by
  cases r with
  | policy => trivial
  | _ => cases h

/-- A request for a role that a reference may lead to. -/
def Request.LooksUpRole : Request → Prop
  | .role _ _ => True
  | _ => False

theorem Request.LooksUpRole.refers {r : Request} (h : r.LooksUpRole) : r.Refers := by
  cases r with
  | role => trivial
  | _ => cases h

namespace Wanted

/-- A request for an object that has what is wanted. -/
def Asked : Wanted → Request → Prop
  | policyArn => Request.LooksUp
  | roleName => Request.LooksUpRole

theorem Asked.refers {wanted : Wanted} {r : Request} (h : wanted.Asked r) : r.Refers := by
  cases wanted with
  | policyArn => exact Request.LooksUp.refers h
  | roleName => exact Request.LooksUpRole.refers h

theorem asks_look (wanted : Wanted) (place : String × String) :
    (wanted.look place).Asks wanted.Asked := by
  cases wanted with
  | policyArn | roleName => exact Asks.bind ⟨trivial, fun _ => trivial⟩ fun _ => trivial

end Wanted

theorem Pointer.asks_take (p : Pointer) (space : String) : (p.take space).Asks p.wanted.Asked := by
  rw [p.take_eq]
  cases p.place? space with
  | none => trivial
  | some place => exact (p.wanted.asks_look place).bind fun _ => trivial

namespace Resolution

variable {α β : Type} {conflicts : List (String × String)} {p : Job α}

theorem refuse_bind (f : α → Job β) : refuse conflicts p >>= f = refuse conflicts (p >>= f) := by
  cases conflicts <;> rfl

theorem asks_refuse {P : Request → Prop} (h : p.Asks P) : (refuse conflicts p).Asks P := by
  cases conflicts with
  | nil => exact h
  | cons => trivial

theorem yields_refuse {P : α → Prop} (h : p.Yields P) : (refuse conflicts p).Yields P := by
  cases conflicts with
  | nil => exact h
  | cons => trivial

end Resolution

namespace Kind

open Resolution (refuse_bind asks_refuse)

variable {kind : Kind}

/-- What the references of a kind are there for. -/
def wanted : Kind → Wanted
  | instanceProfile => .roleName
  | _ => .policyArn

theorem wanted_of_mem {spec : kind.Spec} {p : Pointer} (hp : p ∈ kind.pointers spec) :
    p.wanted = kind.wanted := by
  have attached {ref : Option Reference} {refs : List Reference}
      (hp : p ∈ Pointer.boundary ref ++ Pointer.policies refs) : p.wanted = .policyArn := by
    rcases List.mem_append.mp hp with hp | hp
    · obtain ⟨_, -, rfl⟩ := List.mem_map.mp hp
      rfl
    · obtain ⟨_, -, rfl⟩ := List.mem_map.mp hp
      rfl
  cases kind with
  | role | user => exact attached hp
  | group => exact attached (List.mem_append_right (Pointer.boundary none) hp)
  | instanceProfile =>
    obtain ⟨_, -, rfl⟩ := List.mem_map.mp hp
    rfl
  | policy | oidcProvider | samlProvider | serviceLinkedRole => cases hp

theorem asks_wanted (kind : Kind) (o : kind.Object) :
    (kind.manager.resolve o).Asks kind.wanted.Asked := by
  rw [resolve_eq]
  refine asks_refuse (asks_ite trivial ?_)
  unfold takeAll
  cases o.metadata.space with
  | none => trivial
  | some space =>
    refine (asks_collect _ fun p hp => ?_).bind fun _ => trivial
    rw [← wanted_of_mem hp]
    exact p.asks_take space

theorem asks_resolve (o : kind.Object) : (kind.manager.resolve o).Asks Request.Refers :=
  (kind.asks_wanted o).mono fun _ => Wanted.Asked.refers

/-- The status takes no part in resolving references. -/
theorem resolve_status (kind : Kind) (o : kind.Object) (status : Option (Status kind.Detail)) :
    kind.manager.resolve { o with status } =
      kind.manager.resolve o >>= fun r => pure ⟨{ r.object with status }, r.referenced⟩ := by
  simp only [resolve_eq, refuse_bind]
  refine congrArg (Resolution.refuse _) ?_
  split
  · rfl
  · unfold takeAll
    cases o.metadata.space with
    | none => rfl
    | some space => simp only [bind_assoc, pure_bind]

end Kind

end IamKeeper
