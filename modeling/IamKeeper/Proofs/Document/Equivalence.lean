import IamKeeper.Proofs.Document.Forms
import IamKeeper.Proofs.Document.Quotation

namespace IamKeeper

open Relation (ReflTransGen EqvGen)
open Json (InMember EachMember SameValue)

section Congruence

variable {α β : Type} {R : α → α → Prop} {P : α → Prop} {f : α → β}

/-- A step, in either direction, keeps a property, and what `f` makes of a value with that property. -/
def Keeps (R : α → α → Prop) (P : α → Prop) (f : α → β) : Prop :=
  ∀ x y, R x y → (P x ↔ P y) ∧ (P x → f x = f y)

theorem atOne_map {f : α → α} {xs : List α} (steps : ∀ x ∈ xs, ReflTransGen R x (f x)) :
    ReflTransGen (AtOne R) xs (xs.map f) := by
  induction xs with
  | nil => exact .refl
  | cons x xs ih =>
    obtain ⟨first, later⟩ := List.forall_mem_cons.mp steps
    have head : ReflTransGen (AtOne R) (x :: xs) (f x :: xs) :=
      first.lift (· :: xs) fun _ _ => .here xs
    have tail : ReflTransGen (AtOne R) (f x :: xs) (f x :: xs.map f) :=
      (ih later).lift (f x :: ·) fun _ _ => .later (f x)
    exact head.trans tail

theorem Keeps.atOne (keeps : Keeps R P f) : Keeps (AtOne R) (fun xs => ∀ x ∈ xs, P x) (List.map f) := by
  intro xs ys step
  induction step with
  | @here x y xs step =>
    obtain ⟨iff, same⟩ := keeps x y step
    simp only [List.forall_mem_cons, List.map_cons, iff, true_and]
    exact fun h => by rw [same (iff.mpr h.1)]
  | later x step ih =>
    simp only [List.forall_mem_cons, List.map_cons, ih.1, true_and]
    exact fun h => by rw [ih.2 (ih.1.mpr h.2)]

end Congruence

namespace Json

variable {R : String → Json → Json → Prop} {P : String → Json → Prop}
  {g : String × Json → String × Json} {members : List (String × Json)}

theorem inMember_map (name : ∀ m, (g m).1 = m.1)
    (steps : ∀ m ∈ members, ReflTransGen (R m.1) m.2 (g m).2) :
    ReflTransGen (InMember R) (.object members) (.object (members.map g)) := by
  have each (m) (hm : m ∈ members) :
      ReflTransGen (fun m n => n.1 = m.1 ∧ R m.1 m.2 n.2) m (g m) := by
    rw [show g m = (m.1, (g m).2) from Prod.ext (name m) rfl]
    exact (steps m hm).lift (Prod.mk m.1) fun _ _ step => ⟨rfl, step⟩
  exact (atOne_map each).lift Json.object fun _ _ => .mk

theorem keeps_inMember {f : Json → Json} (object : ∀ members, f (.object members) = .object (members.map g))
    (keeps : ∀ name, Keeps (R name) (P name) fun v => g (name, v)) :
    Keeps (InMember R) (EachMember P) f := by
  intro v w step
  cases step with
  | mk step =>
    have each : Keeps (fun m n => n.1 = m.1 ∧ R m.1 m.2 n.2) (fun m => P m.1 m.2) g := by
      rintro ⟨name, x⟩ ⟨_, y⟩ ⟨rfl, step⟩
      exact keeps _ x y step
    obtain ⟨iff, same⟩ := each.atOne _ _ step
    exact ⟨iff, fun h => by rw [object, object, same h]⟩

end Json

namespace Document

theorem textLe_total (a b : Json) : (textLe a b || textLe b a) = true := by
  unfold textLe
  have := String.le_total a.compact b.compact
  simpa using this

theorem textLe_trans (a b c : Json) (hab : textLe a b = true) (hbc : textLe b c = true) :
    textLe a c = true := by
  unfold textLe at *
  simp only [decide_eq_true_eq] at *
  exact String.le_trans hab hbc

theorem mergeSort_eq_of_perm {xs ys : List Json} (texts : ∀ x ∈ xs, ∃ s, x = .string s) (perm : xs.Perm ys) :
    xs.mergeSort textLe = ys.mergeSort textLe := by
  have hx := List.mergeSort_perm xs textLe
  have hy := List.mergeSort_perm ys textLe
  refine List.Perm.eq_of_pairwise ?_ (List.pairwise_mergeSort textLe_trans textLe_total xs)
    (List.pairwise_mergeSort textLe_trans textLe_total ys) (hx.trans (perm.trans hy.symm))
  intro a b ha hb hab hba
  obtain ⟨s, rfl⟩ := texts a (hx.mem_iff.mp ha)
  obtain ⟨t, rfl⟩ := texts b (perm.mem_iff.mpr (hy.mem_iff.mp hb))
  have same : (Json.string s).compact = (Json.string t).compact := by
    unfold textLe at hab hba
    simp only [decide_eq_true_eq] at hab hba
    exact String.le_antisymm hab hba
  rw [Json.compact_string_injective same]

theorem listStep_keeps : Keeps ListStep TextsOnly normalizeList := by
  intro v w step
  cases step with
  | wrap s =>
    refine ⟨by simp [TextsOnly], fun _ => ?_⟩
    simp [normalizeList]
  | @permute xs ys perm =>
    refine ⟨?_, fun texts => congrArg Json.array (mergeSort_eq_of_perm texts perm)⟩
    unfold TextsOnly
    simp only [perm.mem_iff]

theorem listStep_normalize (v : Json) : ReflTransGen ListStep v (normalizeList v) := by
  cases v with
  | string s => exact .single (.wrap s)
  | array items => exact .single (.permute (List.mergeSort_perm items textLe).symm)
  | _ => exact .refl

theorem mem_listMembers {name : String} : name ∈ listMembers ↔ ListKey name := by
  simp [listMembers, ListKey]

theorem mem_principalMembers {name : String} : name ∈ principalMembers ↔ PrincipalKey name := by
  simp [principalMembers, PrincipalKey]

theorem not_listKey_of_principalKey {name : String} (key : PrincipalKey name) : ¬ ListKey name := by
  rcases key with rfl | rfl <;> simp [ListKey]

section Member

variable {name : String} (v : Json)

theorem normalizeMember_list (key : ListKey name) : normalizeMember (name, v) = (name, normalizeList v) := by
  unfold normalizeMember
  rw [if_pos (List.contains_iff_mem.mpr (mem_listMembers.mpr key))]

theorem normalizeMember_principal (key : PrincipalKey name) :
    normalizeMember (name, v) = (name, normalizePrincipal v) := by
  have unlisted : name ∉ listMembers := fun h => not_listKey_of_principalKey key (mem_listMembers.mp h)
  unfold normalizeMember
  rw [if_neg (by simpa using unlisted), if_pos (List.contains_iff_mem.mpr (mem_principalMembers.mpr key))]

theorem normalizeMember_other (unlisted : ¬ ListKey name) (other : ¬ PrincipalKey name) :
    normalizeMember (name, v) = (name, v) := by
  rw [← mem_listMembers] at unlisted
  rw [← mem_principalMembers] at other
  unfold normalizeMember
  rw [if_neg (by simpa using unlisted), if_neg (by simpa using other)]

theorem memberListed_list (key : ListKey name) : MemberListed name v ↔ TextsOnly v :=
  ⟨fun listed => listed.list key,
    fun texts => ⟨fun _ => texts, fun other => absurd key (not_listKey_of_principalKey other)⟩⟩

theorem memberListed_principal (key : PrincipalKey name) :
    MemberListed name v ↔ EachMember (fun _ => TextsOnly) v :=
  ⟨fun listed => listed.inside key,
    fun each => ⟨fun other => absurd other (not_listKey_of_principalKey key), fun _ => each⟩⟩

end Member

theorem principalStep_keeps :
    Keeps (InMember fun _ => ListStep) (EachMember fun _ => TextsOnly) normalizePrincipal := by
  refine Json.keeps_inMember (fun _ => rfl) fun name v w step => ?_
  obtain ⟨iff, same⟩ := listStep_keeps v w step
  exact ⟨iff, fun texts => congrArg (Prod.mk name) (same texts)⟩

theorem memberStep_keeps (name : String) :
    Keeps (MemberStep name) (MemberListed name) fun v => normalizeMember (name, v) := by
  intro v w step
  cases step with
  | list key step =>
    simp only [memberListed_list _ key, normalizeMember_list _ key]
    obtain ⟨iff, same⟩ := listStep_keeps v w step
    exact ⟨iff, fun texts => by rw [same texts]⟩
  | inside key step =>
    simp only [memberListed_principal _ key, normalizeMember_principal _ key]
    obtain ⟨iff, same⟩ := principalStep_keeps v w step
    exact ⟨iff, fun texts => by rw [same texts]⟩

theorem memberStep_normalize (name : String) (v : Json) :
    ReflTransGen (MemberStep name) v (normalizeMember (name, v)).2 := by
  by_cases list : ListKey name
  · rw [normalizeMember_list v list]
    exact ReflTransGen.mono (fun _ _ => .list list) _ _ (listStep_normalize v)
  by_cases principal : PrincipalKey name
  · rw [normalizeMember_principal v principal]
    refine ReflTransGen.mono (fun _ _ => .inside principal) _ _ ?_
    cases v with
    | object members => exact Json.inMember_map (fun _ => rfl) fun m _ => listStep_normalize m.2
    | _ => exact .refl
  · rw [normalizeMember_other v list principal]

theorem normalizeMember_fst (m : String × Json) : (normalizeMember m).1 = m.1 := by
  unfold normalizeMember
  split
  · rfl
  split <;> rfl

theorem statementStep_keeps :
    Keeps (InMember MemberStep) (EachMember MemberListed) normalizeStatement :=
  Json.keeps_inMember (fun _ => rfl) memberStep_keeps

theorem statementStep_normalize (v : Json) :
    ReflTransGen (InMember MemberStep) v (normalizeStatement v) := by
  cases v with
  | object members =>
    exact Json.inMember_map normalizeMember_fst fun m _ => memberStep_normalize m.1 m.2
  | _ => exact .refl

section Single

variable {v : Json} (single : ∀ items, v ≠ .array items)

include single

theorem statementsListed_single : StatementsListed v ↔ EachMember MemberListed v := by
  cases v with
  | array items => exact absurd rfl (single items)
  | _ => rfl

theorem normalizeStatements_single : normalizeStatements v = .array [normalizeStatement v] := by
  cases v with
  | array items => exact absurd rfl (single items)
  | _ => rfl

theorem normalizeStatement_single (items : List Json) : normalizeStatement v ≠ .array items := by
  cases v with
  | array items => exact absurd rfl (single items)
  | _ => exact nofun

end Single

theorem statementsStep_keeps : Keeps StatementsStep StatementsListed normalizeStatements := by
  intro v w step
  cases step with
  | wrap single =>
    rw [statementsListed_single single, normalizeStatements_single single]
    simp [StatementsListed, normalizeStatements]
  | single step =>
    obtain ⟨iff, same⟩ := statementStep_keeps v w step
    cases step with
    | mk step =>
      refine ⟨iff, fun listed => ?_⟩
      change Json.array [_] = Json.array [_]
      rw [same listed]
  | @listed xs ys step =>
    obtain ⟨iff, same⟩ := statementStep_keeps.atOne xs ys step
    exact ⟨iff, fun listed => congrArg Json.array (same listed)⟩

theorem statementsStep_normalize (v : Json) : ReflTransGen StatementsStep v (normalizeStatements v) := by
  by_cases h : ∃ items, v = .array items
  · obtain ⟨items, rfl⟩ := h
    exact (atOne_map fun v _ => statementStep_normalize v).lift Json.array fun _ _ => .listed
  · have single : ∀ items, v ≠ .array items := fun items h' => h ⟨items, h'⟩
    rw [normalizeStatements_single single]
    -- The statement is brought to its form first and wrapped then, since only a single one can be wrapped.
    have inside := ReflTransGen.mono (fun _ _ => StatementsStep.single) _ _ (statementStep_normalize v)
    exact inside.tail (.wrap (normalizeStatement_single single))

theorem step_keeps : Keeps Step Listed normalize := by
  refine Json.keeps_inMember (fun _ => rfl) ?_
  rintro name v w ⟨rfl, step⟩
  obtain ⟨iff, same⟩ := statementsStep_keeps v w step
  simp only [if_true, forall_const]
  exact ⟨iff, fun listed => by rw [same listed]⟩

theorem step_normalize (v : Json) : ReflTransGen Step v (normalize v) := by
  cases v with
  | object members =>
    refine Json.inMember_map (fun m => ?_) fun m _ => ?_
    · split <;> rfl
    · split
      next statement =>
        exact ReflTransGen.mono (fun _ _ step => ⟨statement, step⟩) _ _ (statementsStep_normalize m.2)
      next => exact .refl
  | _ => exact .refl

/-- A property that does not see the sign of zeros, for values of which `f` does not either. -/
def Stable (P : Json → Prop) (f : Json → Json) : Prop :=
  ∀ v, (P v.unsignedZeros ↔ P v) ∧ (P v → (f v).unsignedZeros = f v.unsignedZeros)

theorem unsignedZerosList_eq (items : List Json) :
    Json.unsignedZerosList items = items.map Json.unsignedZeros := by
  induction items with
  | nil => rfl
  | cons v items ih => rw [Json.unsignedZerosList, ih, List.map_cons]

theorem unsignedZerosMembers_eq (members : List (String × Json)) :
    Json.unsignedZerosMembers members = members.map fun m => (m.1, m.2.unsignedZeros) := by
  induction members with
  | nil => rfl
  | cons m members ih => rw [Json.unsignedZerosMembers, ih, List.map_cons]

theorem unsignedZeros_eq_string {v : Json} {s : String} : v.unsignedZeros = .string s ↔ v = .string s := by
  cases v <;> simp [Json.unsignedZeros]

theorem map_unsignedZeros_texts {items : List Json} (texts : ∀ x ∈ items, ∃ s, x = .string s) :
    items.map Json.unsignedZeros = items := by
  refine (List.map_congr_left fun x hx => ?_).trans (List.map_id items)
  obtain ⟨s, rfl⟩ := texts x hx
  rfl

theorem stable_list : Stable TextsOnly normalizeList := by
  intro v
  cases v with
  | array items =>
    simp only [Json.unsignedZeros, unsignedZerosList_eq, TextsOnly, List.forall_mem_map,
      unsignedZeros_eq_string, true_and]
    intro texts
    -- Only lists of texts are sorted alike on both sides: a zero is written with its sign.
    have sorted : ∀ x ∈ items.mergeSort textLe, ∃ s, x = .string s :=
      fun x hx => texts x ((List.mergeSort_perm items textLe).mem_iff.mp hx)
    simp only [normalizeList, Json.unsignedZeros, unsignedZerosList_eq]
    rw [map_unsignedZeros_texts sorted, map_unsignedZeros_texts texts]
  | _ => exact ⟨Iff.rfl, fun _ => rfl⟩

theorem stable_members {P : String → Json → Prop} {g : String × Json → String × Json} {f : Json → Json}
    (object : ∀ members, f (.object members) = .object (members.map g))
    (other : ∀ v, (∀ members, v ≠ .object members) → f v = v) (name : ∀ m, (g m).1 = m.1)
    (stable : ∀ name, Stable (P name) fun v => (g (name, v)).2) : Stable (EachMember P) f := by
  intro v
  cases v with
  | object members =>
    simp only [Json.unsignedZeros, unsignedZerosMembers_eq, EachMember, List.forall_mem_map, object,
      List.map_map, Json.object.injEq]
    refine ⟨forall₂_congr fun m _ => (stable m.1 m.2).1, fun each => ?_⟩
    refine List.map_congr_left fun m hm => ?_
    exact Prod.ext ((name m).trans (name (m.1, m.2.unsignedZeros)).symm)
      ((stable m.1 m.2).2 (each m hm))
  | _ =>
    refine ⟨Iff.rfl, fun _ => ?_⟩
    rw [other _ (by simp), other _ (by simp [Json.unsignedZeros])]

theorem stable_principal : Stable (EachMember fun _ => TextsOnly) normalizePrincipal :=
  stable_members (fun _ => rfl) (fun v h => by cases v <;> first | rfl | exact absurd rfl (h _))
    (fun _ => rfl) fun _ => stable_list

theorem stable_member (name : String) :
    Stable (MemberListed name) fun v => (normalizeMember (name, v)).2 := by
  intro v
  by_cases list : ListKey name
  · simpa only [memberListed_list _ list, normalizeMember_list _ list] using stable_list v
  by_cases principal : PrincipalKey name
  · simpa only [memberListed_principal _ principal, normalizeMember_principal _ principal] using stable_principal v
  · simp only [normalizeMember_other _ list principal, implies_true, and_true]
    have free (w : Json) : MemberListed name w := ⟨fun key => absurd key list, fun key => absurd key principal⟩
    exact iff_of_true (free _) (free _)

theorem stable_statement : Stable (EachMember MemberListed) normalizeStatement :=
  stable_members (fun _ => rfl) (fun v h => by cases v <;> first | rfl | exact absurd rfl (h _))
    normalizeMember_fst stable_member

theorem stable_statements : Stable StatementsListed normalizeStatements := by
  intro v
  by_cases h : ∃ items, v = .array items
  · obtain ⟨items, rfl⟩ := h
    simp only [Json.unsignedZeros, unsignedZerosList_eq, StatementsListed, List.forall_mem_map,
      normalizeStatements, List.map_map, Json.array.injEq]
    refine ⟨forall₂_congr fun v _ => (stable_statement v).1, fun listed => ?_⟩
    exact List.map_congr_left fun v hv => (stable_statement v).2 (listed v hv)
  · have single : ∀ items, v ≠ .array items := fun items h' => h ⟨items, h'⟩
    have single' : ∀ items, v.unsignedZeros ≠ .array items := by
      cases v <;> simp_all [Json.unsignedZeros]
    rw [statementsListed_single single, statementsListed_single single', normalizeStatements_single single,
      normalizeStatements_single single']
    refine ⟨(stable_statement v).1, fun listed => ?_⟩
    simp only [Json.unsignedZeros, unsignedZerosList_eq, List.map_cons, List.map_nil,
      (stable_statement v).2 listed]

theorem stable_document : Stable Listed normalize := by
  refine stable_members (fun _ => rfl)
    (fun v h => by cases v <;> first | rfl | exact absurd rfl (h _)) (fun m => ?_) fun name => ?_
  · split <;> rfl
  · intro v
    by_cases statement : name = "Statement"
    · simpa [statement] using stable_statements v
    · simp [statement]

theorem canonical_unsignedZeros {v : Json} (listed : Listed v) :
    canonical v = normalize v.unsignedZeros :=
  (stable_document v).2 listed

theorem sameValue_keeps : Keeps SameValue Listed canonical := by
  intro v w same
  have iff : Listed v ↔ Listed w := by
    rw [← (stable_document v).1, ← (stable_document w).1, same]
  refine ⟨iff, fun listed => ?_⟩
  rw [canonical_unsignedZeros listed, canonical_unsignedZeros (iff.mp listed), same]

theorem connected_keeps : Keeps Connected Listed canonical := by
  intro v w connected
  induction connected with
  | rel v w step =>
    rcases step with step | same
    · obtain ⟨iff, same⟩ := step_keeps v w step
      exact ⟨iff, fun listed => congrArg Json.unsignedZeros (same listed)⟩
    · exact sameValue_keeps v w same
  | refl v => exact ⟨Iff.rfl, fun _ => rfl⟩
  | symm v w _ ih => exact ⟨ih.1.symm, fun listed => (ih.2 (ih.1.mpr listed)).symm⟩
  | trans u v w _ _ ih ih' =>
    exact ⟨ih.1.trans ih'.1, fun listed => (ih.2 listed).trans (ih'.2 (ih.1.mp listed))⟩

theorem connected_normalize (v : Json) : Connected v (normalize v) :=
  EqvGen.reflTransGen_le_eqvGen _ _ _ (ReflTransGen.mono (fun _ _ => .inl) _ _ (step_normalize v))

theorem connected_of_canonical {v w : Json} (same : canonical v = canonical w) : Connected v w :=
  .trans _ _ _ (connected_normalize v) <|
    .trans _ _ _ (.rel _ _ (.inr same)) (.symm _ _ (connected_normalize w))

/-- Two documents are equivalent exactly when they are forms of one document. -/
theorem equivalent_iff_connected {a b : String} {v w : Json} (ha : Json.read? a = some v)
    (hb : Json.read? b = some w) (listed : Listed v) : equivalent a b = true ↔ Connected v w := by
  have same : equivalent a b = true ↔ canonical v = canonical w := by
    unfold equivalent
    rw [ha, hb]
    exact decide_eq_true_iff
  rw [same]
  exact ⟨connected_of_canonical, fun connected => (connected_keeps v w connected).2 listed⟩

/-- One statement with a list of actions and a principal that is one text. -/
def shortText : String :=
  "\x7b\"Statement\":\x7b\"Action\":[\"b\",\"a\"],\"Principal\":\x7b\"AWS\":\"x\"\x7d\x7d\x7d"

/-- A list of that statement, with the actions in another order and the principal as a list. -/
def longText : String :=
  "\x7b\"Statement\":[\x7b\"Action\":[\"a\",\"b\"],\"Principal\":\x7b\"AWS\":[\"x\"]\x7d\x7d]\x7d"

theorem equivalent_swapped :
    ∃ v w, Json.read? shortText = some v ∧ Json.read? longText = some w ∧ Listed v ∧ Connected v w ∧
      equivalent shortText longText = true := by
  let statement (first second : String) (principal : Json) : Json :=
    .object [("Action", .array [.string first, .string second]), ("Principal", .object [("AWS", principal)])]
  let v : Json := .object [("Statement", statement "b" "a" (.string "x"))]
  let w : Json := .object [("Statement", .array [statement "a" "b" (.array [.string "x"])])]
  have hv : Json.read? shortText = some v := by decide +kernel
  have hw : Json.read? longText = some w := by decide +kernel
  have listed : Listed v := by
    have actions : MemberListed "Action" (.array [.string "b", .string "a"]) := by
      simp [memberListed_list _ (.inl rfl : ListKey "Action"), TextsOnly]
    have principal : MemberListed "Principal" (.object [("AWS", .string "x")]) := by
      simp [memberListed_principal _ (.inl rfl : PrincipalKey "Principal"), EachMember, TextsOnly]
    have members : StatementsListed (statement "b" "a" (.string "x")) :=
      List.forall_mem_cons.mpr ⟨actions, List.forall_mem_singleton.mpr principal⟩
    exact List.forall_mem_singleton.mpr fun _ => members
  have swapped : Connected v (.object [("Statement", statement "a" "b" (.string "x"))]) := by
    refine .rel _ _ (.inl (.mk (.here _ ⟨rfl, rfl, .single (.mk (.here _ ⟨rfl, .list (.inl rfl) ?_⟩))⟩)))
    exact .permute (.swap _ _ _)
  have spread : Connected (.object [("Statement", statement "a" "b" (.string "x"))])
      (.object [("Statement", statement "a" "b" (.array [.string "x"]))]) := by
    refine .rel _ _ (.inl (.mk (.here _ ⟨rfl, rfl, .single (.mk (.later _ (.here _ ⟨rfl, .inside (.inl rfl) ?_⟩)))⟩)))
    exact .mk (.here _ ⟨rfl, .wrap "x"⟩)
  have single (items : List Json) : statement "a" "b" (.array [.string "x"]) ≠ .array items := by
    intro same
    cases same
  have wrapped : Connected (.object [("Statement", statement "a" "b" (.array [.string "x"]))]) w :=
    .rel _ _ (.inl (.mk (.here _ ⟨rfl, rfl, .wrap single⟩)))
  have connected := EqvGen.trans _ _ _ (EqvGen.trans _ _ _ swapped spread) wrapped
  exact ⟨v, w, hv, hw, listed, connected, (equivalent_iff_connected hv hw listed).mpr connected⟩

end Document

end IamKeeper
