import IamKeeper.Iam.Query.Result
import IamKeeper.Proofs.Xml.Written
import Mathlib.Data.List.Forall2

namespace IamKeeper.Iam.Query

open Time (Instant)
open Xml (Content Shape Reader Record)

/-- What the members of a name tell. Each of them has to tell something, and the last one counts. -/
def Tells (name : String) (Holds : Content → α → Prop) (members : List (String × Content)) (told : Option α) : Prop :=
  ∃ values, List.Forall₂ (fun member => Holds member.2) (members.filter (·.1 = name)) values ∧
    values.getLast? = told

/-- What the members of a name tell, or a default where there is none. -/
def TellsOr (name : String) (Holds : Content → α → Prop) (default : α) (members : List (String × Content))
    (value : α) : Prop :=
  ∃ told, Tells name Holds members told ∧ told.getD default = value

def IsText (content : Content) (text : String) : Prop :=
  content = .text (some text)

def IsFlag (content : Content) (flag : Bool) : Prop :=
  IsText content (if flag then "true" else "false")

def IsInstant (content : Content) (t : Instant) : Prop :=
  ∃ text, IsText content text ∧ Instant.readTimestamp? text = some t

def HasMembers (Holds : List (String × Content) → α → Prop) (content : Content) (value : α) : Prop :=
  ∃ members, content = .members members ∧ Holds members value

/-- The items of a list are its members of the name `member`, in order. -/
def IsList (Holds : Content → α → Prop) : Content → List α → Prop :=
  HasMembers fun members => List.Forall₂ (fun member => Holds member.2) (members.filter (·.1 = "member"))

structure ShowsTag (members : List (String × Content)) (tag : Tag) : Prop where
  key : TellsOr "Key" IsText "" members tag.key
  value : TellsOr "Value" IsText "" members tag.value

structure ShowsVersion (members : List (String × Content)) (version : PolicyVersion) : Prop where
  id : TellsOr "VersionId" IsText "" members version.id
  document : Tells "Document" IsText members version.document
  isDefault : TellsOr "IsDefaultVersion" IsFlag false members version.isDefault
  created : Tells "CreateDate" IsInstant members version.created

/-- An attached policy, which may be listed without its ARN. -/
structure ShowsAttached (members : List (String × Content)) (arn : Option String) : Prop where
  arn : Tells "PolicyArn" IsText members arn
  name : ∃ name, Tells "PolicyName" IsText members name

def Reads (read : β → Option α) (Holds : β → α → Prop) : Prop :=
  ∀ content value, read content = some value ↔ Holds content value

theorem mapM_eq_some {f : β → Option α} {xs : List β} {ys : List α} :
    xs.mapM f = some ys ↔ List.Forall₂ (f · = some ·) xs ys := by
  induction xs generalizing ys with
  | nil => simp [eq_comm]
  | cons x xs ih =>
    simp only [List.mapM_cons, Option.bind_eq_bind, Option.bind_eq_some_iff, Option.pure_def, Option.some.injEq, ih,
      List.forall₂_cons_left_iff]
    constructor
    · rintro ⟨y, first, ys, rest, rfl⟩
      exact ⟨y, ys, first, rest, rfl⟩
    · rintro ⟨y, ys, first, rest, rfl⟩
      exact ⟨y, first, ys, rest, rfl⟩

theorem reads_text : Reads Reader.text.read IsText := by
  intro content text
  cases content <;> simp [Reader.text, IsText]

theorem reads_written (read? : String → Option α) :
    Reads (Reader.written read?).read fun content value => ∃ text, IsText content text ∧ read? text = some value := by
  intro content value
  simp only [Reader.written, Option.bind_eq_some_iff, reads_text content]

theorem reads_instant : Reads instant.read IsInstant :=
  reads_written _

theorem reads_flag : Reads flag.read IsFlag := by
  intro content value
  refine (reads_written _ content value).trans ?_
  unfold IsFlag
  constructor
  · rintro ⟨text, isText, h⟩
    split at h <;> cases h
    · exact isText
    · exact isText
  · intro isText
    cases value with
    | true => exact ⟨_, isText, rfl⟩
    | false => exact ⟨_, isText, rfl⟩

theorem reads_record {r : Record α} {Holds : List (String × Content) → α → Prop} (reads : Reads r.read Holds) :
    Reads (Reader.record r).read (HasMembers Holds) := by
  intro content value
  cases content with
  | text content => simp [Reader.record, HasMembers]
  | members found => simp [Reader.record, HasMembers, reads found value]

section Member

variable {reader : Reader α} {Holds : Content → α → Prop} (reads : Reads reader.read Holds) (name : String)

include reads

theorem reads_all :
    Reads (Record.all name reader).read fun members =>
      List.Forall₂ (fun member => Holds member.2) (members.filter (·.1 = name)) := by
  intro members values
  simp only [Record.all, Xml.inside, mapM_eq_some, List.forall₂_map_left_iff, reads _ _]

theorem reads_list : Reads (list reader).read (IsList Holds) :=
  reads_record (reads_all reads "member")

theorem reads_optional : Reads (Record.optional name reader).read (Tells name Holds) := by
  intro members told
  simp only [Record.optional, Functor.map, Option.map_eq_some_iff, reads_all reads name _ _, Tells]

theorem reads_required (default : α) :
    Reads (Record.required name reader default).read (TellsOr name Holds default) := by
  intro members value
  change ((Record.optional name reader).read members).map _ = _ ↔ _
  simp only [Option.map_eq_some_iff, reads_optional reads name members, TellsOr]

end Member

section Record

variable {α β : Type} {r : Record α} {s : Record β} {members : List (String × Content)}

theorem read_map {f : α → β} {value : β} :
    (f <$> r).read members = some value ↔ ∃ a, r.read members = some a ∧ f a = value :=
  Option.map_eq_some_iff

theorem read_seq {f : Record (α → β)} {value : β} :
    (f <*> r).read members = some value ↔
      ∃ g, f.read members = some g ∧ ∃ a, r.read members = some a ∧ g a = value := by
  change (f.read members).bind _ = _ ↔ _
  simp only [Option.bind_eq_some_iff, Option.map_eq_some_iff]

theorem read_seqLeft {value : α} :
    (r <* s).read members = some value ↔ r.read members = some value ∧ ∃ b, s.read members = some b := by
  change (Function.const β <$> r <*> s).read members = _ ↔ _
  rw [read_seq]
  constructor
  · rintro ⟨_, h, b, other, rfl⟩
    obtain ⟨a, first, rfl⟩ := read_map.mp h
    exact ⟨first, b, other⟩
  · rintro ⟨first, b, other⟩
    exact ⟨_, read_map.mpr ⟨value, first, rfl⟩, b, other, rfl⟩

end Record

theorem reads_tag : Reads tag.read ShowsTag := by
  intro members found
  simp only [tag, requiredText, read_seq, read_map, reads_required reads_text _ _ members, exists_exists_and_eq_and]
  constructor
  · rintro ⟨key, isKey, value, isValue, rfl⟩
    exact ⟨isKey, isValue⟩
  · rintro ⟨isKey, isValue⟩
    exact ⟨_, isKey, _, isValue, rfl⟩

theorem reads_version : Reads policyVersion.read ShowsVersion := by
  intro members found
  simp only [policyVersion, requiredText, optionalText, read_seq, read_map, reads_required reads_text _ _ members,
    reads_required reads_flag _ _ members, reads_optional reads_text _ members, reads_optional reads_instant _ members,
    exists_exists_and_eq_and]
  constructor
  · rintro ⟨_, ⟨_, ⟨id, isId, document, isDocument, rfl⟩, isDefault, told, rfl⟩, created, isCreated, rfl⟩
    exact ⟨isId, isDocument, told, isCreated⟩
  · rintro ⟨isId, isDocument, isDefault, isCreated⟩
    exact ⟨_, ⟨_, ⟨_, isId, _, isDocument, rfl⟩, _, isDefault, rfl⟩, _, isCreated, rfl⟩

theorem reads_attached : Reads attachedArn.read ShowsAttached := by
  intro members found
  simp only [attachedArn, read_seqLeft, optionalText, reads_optional reads_text _ members]
  exact ⟨fun ⟨arn, name⟩ => ⟨arn, name⟩, fun ⟨arn, name⟩ => ⟨arn, name⟩⟩

/-- The members of the result in an answer. -/
def members? (action : String) (known : List (String × Shape)) (body : String) : Option (List (String × Content)) :=
  result? action ⟨known, some⟩ body

theorem result?_eq_bind (action : String) (r : Record α) (body : String) :
    result? action r body = (members? action r.known body).bind r.read := by
  unfold members? result?
  cases Xml.front? (Xml.tokens body) with
  | none => rfl
  | some front =>
    obtain ⟨response, tokens⟩ := front
    simp only [Option.bind_eq_bind, Option.bind_some]
    rcases response.next tokens with ⟨_ | result, tokens⟩
    · rfl
    · simp only
      split
      · rfl
      · rfl

/-- The answer to an action, with the members of its result. -/
def document (action : String) (found : List (String × Content)) : String :=
  .ofList (Xml.enclosed (action ++ "Response") (Xml.writeMembers [(action ++ "Result", .members found)]))

theorem members?_document {action : String} (response : Xml.IsName (action ++ "Response"))
    (result : Xml.IsName (action ++ "Result")) {known : List (String × Shape)} {found : List (String × Content)}
    (fits : Xml.Fits known found) : members? action known (document action found) = some found := by
  have whole : Xml.Fits [(action ++ "Result", .members known)] [(action ++ "Result", .members found)] :=
    .members List.lookup_cons_self result fits .nil
  have tokens := Xml.tokens_enclosed response whole
  have named (name : String) (depth : Nat) : Xml.Element.name ⟨Xml.tagOf name depth, false⟩ = name :=
    String.ofList_toList
  unfold members? result? document
  rw [tokens]
  simp [Xml.front?, Xml.Element.next, Xml.memberTokens, Xml.Content.tokens, Xml.nextWithin, named, Record.within,
    Xml.find_write fits]

example : document "ListTags" [("Tags", .text (some "a < b"))] =
    "<ListTagsResponse><ListTagsResult><Tags>a &lt; b</Tags></ListTagsResult></ListTagsResponse>" := by
  decide

end IamKeeper.Iam.Query
