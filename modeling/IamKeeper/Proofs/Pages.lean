import IamKeeper.Iam.Query.Client
import IamKeeper.Proofs.Pages.Members
import IamKeeper.Proofs.Run

namespace IamKeeper.Iam.Query

open Xml (Content Shape Reader Record)

/-- The replies that are left to give, and what has been sent. -/
structure Session where
  replies : List Reply
  sent : List Form
deriving DecidableEq

/-- Gives the next reply; where none is left, the request is lost. -/
def Session.handle (form : Form) : StateM Session Reply :=
  fun s => (s.replies.headD .lost, ⟨s.replies.tail, s.sent ++ [form]⟩)

/-- What an exchange comes to in a session, and how it leaves the session. -/
def conduct (exchange : Exchange α) (s : Session) : Except Fault α × Session :=
  exchange.run Session.handle s

theorem conduct_bind (p : Exchange α) (f : α → Exchange β) (s : Session) :
    conduct (p >>= f) s =
      match conduct p s with
      | (.ok value, t) => conduct (f value) t
      | (.error fault, t) => (.error fault, t) := by
  induction p generalizing s with
  | done outcome => cases outcome <;> rfl
  | ask form next ih => exact ih (Session.handle form s).1 (Session.handle form s).2

section

variable {p : Exchange α} {s t : Session}

theorem conduct_bind_ok {value : α} (f : α → Exchange β) (h : conduct p s = (.ok value, t)) :
    conduct (p >>= f) s = conduct (f value) t := by
  rw [conduct_bind, h]

theorem conduct_bind_error {fault : Fault} (f : α → Exchange β) (h : conduct p s = (.error fault, t)) :
    conduct (p >>= f) s = (.error fault, t) := by
  rw [conduct_bind, h]

end

theorem conduct_map (f : α → β) (p : Exchange α) (s : Session) :
    conduct (f <$> p) s = ((conduct p s).1.map f, (conduct p s).2) := by
  rw [map_eq_pure_bind, conduct_bind]
  rcases conduct p s with ⟨_ | value, t⟩
  · rfl
  · rfl

theorem conduct_exchange (action : String) (parameters : List (String × String)) (status : Nat) (body : String)
    (replies : List Reply) (sent : List Form) :
    conduct (exchange action parameters) ⟨.answer status body :: replies, sent⟩ =
      (if 200 ≤ status ∧ status < 300 then .ok body else .error (refusal action body),
        ⟨replies, sent ++ [⟨action, parameters⟩]⟩) := by
  change conduct (if 200 ≤ status ∧ status < 300 then pure body else Plan.fail (refusal action body)) _ = _
  split
  · rfl
  · rfl

theorem conduct_query (action : String) (parameters : List (String × String)) (result : Record α) (status : Nat)
    (body : String) (replies : List Reply) (sent : List Form) :
    conduct (query action parameters result) ⟨.answer status body :: replies, sent⟩ =
      (if 200 ≤ status ∧ status < 300 then (result? action result body).elim (.error (brokenReply action)) .ok
        else .error (refusal action body), ⟨replies, sent ++ [⟨action, parameters⟩]⟩) := by
  unfold query
  rw [conduct_bind, conduct_exchange]
  by_cases accepted : 200 ≤ status ∧ status < 300
  · simp only [if_pos accepted]
    cases result? action result body with
    | none => rfl
    | some value => rfl
  · rw [if_neg accepted, if_neg accepted]

theorem result?_map (action : String) (f : α → β) (r : Record α) (body : String) :
    result? action (f <$> r) body = (result? action r body).map f := by
  rw [result?_eq_bind, result?_eq_bind, Option.map_bind]
  rfl

theorem query_map (action : String) (parameters : List (String × String)) (f : α → β) (r : Record α) :
    query action parameters (f <$> r) = f <$> query action parameters r := by
  unfold query
  rw [map_bind]
  congr 1
  funext body
  rw [result?_map]
  cases result? action r body with
  | none => rfl
  | some value => rfl

/-- A page with other items in place of its own. -/
def Page.over (f : List α → List β) (found : Page α) : Page β :=
  ⟨f found.items, found.marker⟩

theorem page_map (f : List α → List β) (items : Record (List α)) :
    page (f <$> items) = Page.over f <$> page items := by
  refine congrArg (Record.mk _) (funext fun members => ?_)
  simp only [page, Seq.seq, SeqLeft.seqLeft, Functor.map]
  rcases items.read members with _ | value
  · rfl
  · rcases (optionalText "Marker").read members with _ | marker
    · rfl
    · simp only [Option.map_some, Option.bind_some, Option.map_map]
      rfl

theorem pages_filterMap (action : String) (parameters : List (String × String)) (keep : α → Option β)
    (items : Record (List α)) (limit : Nat) (marker : Option String) :
    pages action parameters (List.filterMap keep <$> items) limit marker =
      List.filterMap keep <$> pages action parameters items limit marker := by
  induction limit generalizing marker with
  | zero => rfl
  | succ limit ih =>
    unfold pages
    rw [page_map, query_map, map_bind, bind_map_left]
    congr 1
    funext found
    simp only [Page.over]
    cases found.marker with
    | none => rfl
    | some next =>
      simp only
      split
      · rfl
      · simp only [ih, map_bind, bind_map_left, map_pure, List.filterMap_append]

/-- How a list is asked for, where it stands in a page, and what its items are. -/
structure Roll (α : Type) where
  action : String
  subject : String × String
  list : String
  shape : Shape
  Shows : Content → α → Prop

/-- What comes of following a list. -/
inductive Ending where
  | complete
  | broken (code : Option String) (message : String)

namespace Roll

variable (r : Roll α)

/-- The request for a page, with the marker that leads to it. -/
def form (marker : Option String) : Form :=
  ⟨r.action, r.subject :: optionalField "Marker" marker⟩

/-- What is looked for in a page. -/
def layout : List (String × Shape) :=
  [(r.list, .members [("member", r.shape)]), ("Marker", .text), ("IsTruncated", .text)]

/-- What a page tells. A page without the list has no items; whether more follow only has to be readable. -/
structure ShowsPage (members : List (String × Content)) (found : Page α) : Prop where
  items : TellsOr r.list (IsList r.Shows) [] members found.items
  marker : Tells "Marker" IsText members found.marker
  isTruncated : ∃ told, Tells "IsTruncated" IsFlag members told

/-- The page in a reply. -/
inductive Brings : Reply → Page α → Prop
  | answer {status : Nat} {body : String} {members : List (String × Content)} {found : Page α}
      (accepted : 200 ≤ status ∧ status < 300) (holds : members? r.action r.layout body = some members)
      (shows : r.ShowsPage members found) : Brings (.answer status body) found

/-- The code and the message of a reply that brings no page. -/
inductive Fails : Reply → Option String → String → Prop
  | refused {status : Nat} {body : String} {complaint : Complaint} (refused : ¬(200 ≤ status ∧ status < 300))
      (explained : complaint? r.action body = some complaint) :
      Fails (.answer status body) complaint.code (complaint.message.getD "the request was refused")
  | unexplained {status : Nat} {body : String} (refused : ¬(200 ≤ status ∧ status < 300))
      (unexplained : complaint? r.action body = none) :
      Fails (.answer status body) none "the request was refused"
  | unreadable {status : Nat} {body : String} (accepted : 200 ≤ status ∧ status < 300)
      (unreadable : ∀ found, ¬ r.Brings (.answer status body) found) :
      Fails (.answer status body) none "no readable answer"
  | lost : Fails .lost none "no readable answer"

/-- The requests for the pages behind a marker, with the reply to each: the pages that they bring, and what comes of
them in the end. The marker of each page leads to the next. -/
inductive Chain : Option String → List (Form × Reply) → List (Page α) → Ending → Prop
  | last {marker : Option String} {reply : Reply} {found : Page α} (brings : r.Brings reply found)
      (ends : ∀ next, found.marker = some next → next = "" ∨ marker = some next) :
      Chain marker [(r.form marker, reply)] [found] .complete
  | more {marker : Option String} {reply : Reply} {found : Page α} {next : String}
      {exchanges : List (Form × Reply)} {behind : List (Page α)} {ending : Ending} (brings : r.Brings reply found)
      (leads : found.marker = some next) (nonempty : next ≠ "") (distinct : marker ≠ some next)
      (rest : Chain (some next) exchanges behind ending) :
      Chain marker ((r.form marker, reply) :: exchanges) (found :: behind) ending
  | broken {marker : Option String} {reply : Reply} {code : Option String} {message : String}
      (fails : r.Fails reply code message) :
      Chain marker [(r.form marker, reply)] [] (.broken code message)

/-- What there is of a list that was followed to its end, or the error of the page at which it broke off. -/
def outcome (items : List α) : Ending → Except Fault (List α)
  | .complete => .ok items
  | .broken code message => .error (.iam r.action code message)

variable {r} {reply : Reply} {marker : Option String} {limit : Nat}

theorem brings_or_fails (r : Roll α) (reply : Reply) :
    (∃ found, r.Brings reply found) ∨ ∃ code message, r.Fails reply code message := by
  cases reply with
  | lost => exact .inr ⟨_, _, .lost⟩
  | answer status body =>
    by_cases accepted : 200 ≤ status ∧ status < 300
    · by_cases readable : ∃ found, r.Brings (.answer status body) found
      · exact .inl readable
      · exact .inr ⟨_, _, .unreadable accepted (not_exists.mp readable)⟩
    · cases explained : complaint? r.action body with
      | some complaint => exact .inr ⟨_, _, .refused accepted explained⟩
      | none => exact .inr ⟨_, _, .unexplained accepted explained⟩

/-- Reads the list in a page, with a reader of its items. -/
def items (r : Roll α) (reader : Reader α) : Record (List α) :=
  requiredList r.list reader

/-- A reader of the items of a list. -/
structure ReadBy (r : Roll α) (reader : Reader α) : Prop where
  shape : reader.shape = r.shape
  reads : Reads reader.read r.Shows

section

variable {reader : Reader α} (readBy : r.ReadBy reader)

include readBy

theorem ReadBy.reads_page : Reads (page (r.items reader)).read r.ShowsPage := by
  intro members found
  simp only [page, items, requiredList, optionalText, read_seqLeft, read_seq, read_map,
    reads_required (reads_list readBy.reads) _ _ members, reads_optional reads_text _ members,
    reads_required reads_flag _ _ members, exists_exists_and_eq_and]
  constructor
  · rintro ⟨⟨items, isItems, marker, isMarker, rfl⟩, _, told, isTruncated, _⟩
    exact ⟨isItems, isMarker, told, isTruncated⟩
  · rintro ⟨isItems, isMarker, told, isTruncated⟩
    exact ⟨⟨_, isItems, _, isMarker, rfl⟩, _, told, isTruncated, rfl⟩

theorem ReadBy.brings_iff {status : Nat} {body : String} {found : Page α}
    (accepted : 200 ≤ status ∧ status < 300) :
    r.Brings (.answer status body) found ↔ result? r.action (page (r.items reader)) body = some found := by
  have known : (page (r.items reader)).known = r.layout := by
    unfold layout
    rw [← readBy.shape]
    rfl
  rw [result?_eq_bind, known, Option.bind_eq_some_iff]
  simp only [readBy.reads_page _ found]
  constructor
  · rintro ⟨_, holds, shows⟩
    exact ⟨_, holds, shows⟩
  · rintro ⟨_, holds, shows⟩
    exact .answer accepted holds shows

section

variable (replies : List Reply) (sent : List Form)

theorem Brings.conduct_query {found : Page α} (brings : r.Brings reply found) :
    conduct (query r.action (r.form marker).parameters (page (r.items reader))) ⟨reply :: replies, sent⟩ =
      (.ok found, ⟨replies, sent ++ [r.form marker]⟩) := by
  cases reply with
  | lost => cases brings
  | answer status body =>
    have accepted : 200 ≤ status ∧ status < 300 := by
      cases brings
      assumption
    rw [Query.conduct_query, if_pos accepted, (readBy.brings_iff accepted).mp brings]
    rfl

theorem Fails.conduct_query {code : Option String} {message : String} (fails : r.Fails reply code message) :
    conduct (query r.action (r.form marker).parameters (page (r.items reader))) ⟨reply :: replies, sent⟩ =
      (.error (.iam r.action code message), ⟨replies, sent ++ [r.form marker]⟩) := by
  cases fails with
  | refused refused explained =>
    rw [Query.conduct_query, if_neg refused, refusal, explained]
    rfl
  | unexplained refused unexplained =>
    rw [Query.conduct_query, if_neg refused, refusal, unexplained]
    rfl
  | unreadable accepted unreadable =>
    have broken := Option.eq_none_iff_forall_ne_some.mpr fun found h =>
      unreadable found ((readBy.brings_iff accepted).mpr h)
    rw [Query.conduct_query, if_pos accepted, broken]
    rfl
  | lost => rfl

theorem Brings.conduct_pages_last {found : Page α} (brings : r.Brings reply found)
    (ends : ∀ next, found.marker = some next → next = "" ∨ marker = some next) :
    conduct (pages r.action [r.subject] (r.items reader) (limit + 1) marker) ⟨reply :: replies, sent⟩ =
      (.ok found.items, ⟨replies, sent ++ [r.form marker]⟩) := by
  refine (conduct_bind_ok _ (brings.conduct_query readBy replies sent)).trans ?_
  cases h : found.marker with
  | none => rfl
  | some next =>
    have ended : next.isEmpty = true ∨ marker = some next := by simpa using ends next h
    simp only [if_pos ended]
    rfl

theorem Brings.conduct_pages_more {found : Page α} {next : String} (brings : r.Brings reply found)
    (leads : found.marker = some next) (nonempty : next ≠ "") (distinct : marker ≠ some next) :
    conduct (pages r.action [r.subject] (r.items reader) (limit + 1) marker) ⟨reply :: replies, sent⟩ =
      conduct ((found.items ++ ·) <$> pages r.action [r.subject] (r.items reader) limit (some next))
        ⟨replies, sent ++ [r.form marker]⟩ := by
  have goesOn : ¬(next.isEmpty = true ∨ marker = some next) := by simpa using ⟨nonempty, distinct⟩
  refine (conduct_bind_ok _ (brings.conduct_query readBy replies sent)).trans ?_
  simp only [leads, if_neg goesOn, map_eq_pure_bind]

theorem Fails.conduct_pages {code : Option String} {message : String} (fails : r.Fails reply code message) :
    conduct (pages r.action [r.subject] (r.items reader) (limit + 1) marker) ⟨reply :: replies, sent⟩ =
      (.error (.iam r.action code message), ⟨replies, sent ++ [r.form marker]⟩) :=
  conduct_bind_error _ (fails.conduct_query readBy replies sent)

end

/-- A list that is followed as far as it goes. Each page is asked for once, with the marker of the page before it. -/
theorem Chain.conduct_pages {exchanges : List (Form × Reply)} {found : List (Page α)} {ending : Ending}
    (chain : r.Chain marker exchanges found ending) (enough : exchanges.length ≤ limit) (rest : List Reply)
    (sent : List Form) :
    conduct (pages r.action [r.subject] (r.items reader) limit marker) ⟨exchanges.map Prod.snd ++ rest, sent⟩ =
      (r.outcome (found.flatMap Page.items) ending, ⟨rest, sent ++ exchanges.map Prod.fst⟩) := by
  induction chain generalizing limit sent with
  | last brings ends =>
    obtain ⟨limit, rfl⟩ := Nat.exists_eq_add_one.mpr enough
    refine (brings.conduct_pages_last readBy rest sent ends).trans ?_
    simp [outcome]
  | @more marker _ _ _ _ _ ending brings leads nonempty distinct chain ih =>
    obtain ⟨limit, rfl⟩ := Nat.exists_eq_add_one.mpr (Nat.zero_lt_of_lt enough)
    rw [List.map_cons, List.cons_append, brings.conduct_pages_more readBy _ sent leads nonempty distinct, conduct_map,
      ih (Nat.le_of_succ_le_succ enough)]
    cases ending with
    | complete => simp [outcome, Except.map]
    | broken code message => simp [outcome, Except.map]
  | broken fails =>
    obtain ⟨limit, rfl⟩ := Nat.exists_eq_add_one.mpr enough
    exact fails.conduct_pages readBy rest sent

/-- A list that is got in whole is that of a chain that was followed to its end. -/
theorem chain_of_conduct_pages {replies : List Reply} {sent : List Form} {value : List α} {t : Session}
    (got : conduct (pages r.action [r.subject] (r.items reader) limit marker) ⟨replies, sent⟩ = (.ok value, t)) :
    ∃ exchanges found, r.Chain marker exchanges found .complete ∧ replies = exchanges.map Prod.snd ++ t.replies ∧
      t.sent = sent ++ exchanges.map Prod.fst ∧ value = found.flatMap Page.items := by
  induction limit generalizing marker replies sent value with
  | zero => cases got
  | succ limit ih =>
    cases replies with
    | nil => cases got
    | cons reply replies =>
      rcases r.brings_or_fails reply with ⟨found, brings⟩ | ⟨code, message, fails⟩
      · by_cases ends : ∀ next, found.marker = some next → next = "" ∨ marker = some next
        · cases got.symm.trans (brings.conduct_pages_last readBy replies sent ends)
          exact ⟨_, _, .last brings ends, rfl, rfl, by simp⟩
        · obtain ⟨next, h⟩ := Classical.not_forall.mp ends
          obtain ⟨leads, goesOn⟩ := Classical.not_imp.mp h
          obtain ⟨nonempty, distinct⟩ := not_or.mp goesOn
          rw [brings.conduct_pages_more readBy replies sent leads nonempty distinct, conduct_map] at got
          rcases behind : conduct (pages r.action [r.subject] (r.items reader) limit (some next))
            ⟨replies, sent ++ [r.form marker]⟩ with ⟨_ | others, u⟩
          · rw [behind] at got
            cases got
          · rw [behind] at got
            cases got
            obtain ⟨exchanges, pages, chain, rfl, asked, rfl⟩ := ih behind
            refine ⟨_, _, .more brings leads nonempty distinct chain, rfl, ?_, by simp⟩
            rw [asked, List.append_assoc]
            rfl
      · cases got.symm.trans (fails.conduct_pages readBy replies sent)

end

end Roll

/-- The calls whose answer is a list that comes page by page. -/
inductive Paged where
  | attached (principal : Principal)
  | inline (principal : Principal)
  | tags (target : TagTarget)
  | versions (arn : String)

namespace Paged

def call : Paged → Call
  | attached principal => .listAttached principal
  | inline principal => .listInline principal
  | tags target => .listTags target
  | versions arn => .listPolicyVersions arn

/-- What a page lists; an attached policy may be listed without its ARN. -/
@[reducible]
def Item : Paged → Type
  | attached _ => Option String
  | inline _ => String
  | tags _ => Tag
  | versions _ => PolicyVersion

/-- The names of the operations. -/
def action : Paged → String
  | attached (.role _) => "ListAttachedRolePolicies"
  | attached (.user _) => "ListAttachedUserPolicies"
  | attached (.group _) => "ListAttachedGroupPolicies"
  | inline (.role _) => "ListRolePolicies"
  | inline (.user _) => "ListUserPolicies"
  | inline (.group _) => "ListGroupPolicies"
  | tags (.role _) => "ListRoleTags"
  | tags (.user _) => "ListUserTags"
  | tags (.policy _) => "ListPolicyTags"
  | tags (.instanceProfile _) => "ListInstanceProfileTags"
  | tags (.oidcProvider _) => "ListOpenIDConnectProviderTags"
  | tags (.samlProvider _) => "ListSAMLProviderTags"
  | versions _ => "ListPolicyVersions"

def subject : Paged → String × String
  | attached principal | inline principal => principalField principal
  | tags target => targetField target
  | versions arn => ("PolicyArn", arn)

/-- The member of a page that holds the list. -/
def list : Paged → String
  | attached _ => "AttachedPolicies"
  | inline _ => "PolicyNames"
  | tags _ => "Tags"
  | versions _ => "Versions"

def shape : Paged → Shape
  | attached _ => .members [("PolicyArn", .text), ("PolicyName", .text)]
  | inline _ => .text
  | tags _ => .members [("Key", .text), ("Value", .text)]
  | versions _ =>
    .members [("VersionId", .text), ("Document", .text), ("IsDefaultVersion", .text), ("CreateDate", .text)]

def Shows : (p : Paged) → Content → p.Item → Prop
  | attached _ => HasMembers ShowsAttached
  | inline _ => IsText
  | tags _ => HasMembers ShowsTag
  | versions _ => HasMembers ShowsVersion

def roll (p : Paged) : Roll p.Item :=
  ⟨p.action, p.subject, p.list, p.shape, p.Shows⟩

def reader : (p : Paged) → Reader p.Item
  | attached _ => .record attachedArn
  | inline _ => .text
  | tags _ => .record tag
  | versions _ => .record policyVersion

theorem readBy (p : Paged) : p.roll.ReadBy p.reader := by
  cases p with
  | attached principal => exact ⟨rfl, reads_record reads_attached⟩
  | inline principal => exact ⟨rfl, reads_text⟩
  | tags target => exact ⟨rfl, reads_record reads_tag⟩
  | versions arn => exact ⟨rfl, reads_record reads_version⟩

/-- What a call gives of the items that are listed: all of them, but for attached policies without an ARN. -/
def gather : (p : Paged) → List p.Item → p.call.Result
  | attached _, found => found.filterMap id
  | inline _, found | tags _, found | versions _, found => found

theorem send_eq (p : Paged) (limit : Nat) :
    send limit p.call =
      p.gather <$> pages p.roll.action [p.roll.subject] (p.roll.items p.reader) limit none := by
  cases p with
  | attached principal =>
    refine Eq.trans ?_ (pages_filterMap _ _ _ _ _ _)
    cases principal <;> rfl
  | inline principal =>
    refine Eq.trans ?_ (id_map _).symm
    cases principal <;> rfl
  | tags target =>
    refine Eq.trans ?_ (id_map _).symm
    cases target <;> rfl
  | versions arn => exact (id_map _).symm

def textMember (name text : String) : String × Content :=
  (name, .text (some text))

/-- A page with items, and with the marker of the next one if there is one. -/
def pageMembers (p : Paged) (items : List Content) (marker : Option String) : List (String × Content) :=
  (p.list, .members (items.map ("member", ·))) ::
    textMember "IsTruncated" (if marker.isSome then "true" else "false") :: (marker.map (textMember "Marker")).toList

section

variable {p : Paged} {items : List Content} {marker : Option String}

theorem fits_pageMembers (fits : Xml.Fits [("member", p.shape)] (items.map ("member", ·)))
    (allowed : ∀ text, marker = some text → text.toList.all Xml.isAllowed = true) :
    Xml.Fits p.roll.layout (pageMembers p items marker) := by
  have behind : Xml.Fits p.roll.layout (marker.map (textMember "Marker")).toList := by
    cases marker with
    | none => exact .nil
    | some text => exact .text (by cases p <;> rfl) (by decide) (allowed text rfl) .nil
  have truncated : (if marker.isSome then "true" else "false").toList.all Xml.isAllowed = true := by
    split <;> decide
  exact .members List.lookup_cons_self (by cases p <;> simp only [Paged.list] <;> decide) fits
    (.text (by cases p <;> rfl) (by decide) truncated behind)

theorem showsPage_pageMembers {values : List p.Item} (shows : List.Forall₂ p.Shows items values) :
    p.roll.ShowsPage (pageMembers p items marker) ⟨values, marker⟩ := by
  have listed : IsList p.Shows (.members (items.map ("member", ·))) values := by
    refine ⟨_, rfl, ?_⟩
    simpa only [List.filter_map, Function.comp_def, decide_true, List.filter_true, List.forall₂_map_left_iff]
  have other : "IsTruncated" ≠ p.list ∧ "Marker" ≠ p.list := by
    cases p <;> simp [Paged.list]
  refine ⟨⟨some values, ⟨[values], ?_, rfl⟩, rfl⟩, ⟨marker.toList, ?_, ?_⟩,
    some marker.isSome, [marker.isSome], ?_, rfl⟩
  · cases marker <;> simp [roll, pageMembers, textMember, other, listed]
  · cases marker <;> simp [pageMembers, textMember, other.2.symm, IsText]
  · cases marker <;> rfl
  · cases marker <;> simp [pageMembers, textMember, other.1.symm, IsFlag, IsText]

/-- Items that can be written are brought by the document with them. -/
theorem brings_document (fits : Xml.Fits [("member", p.shape)] (items.map ("member", ·)))
    (allowed : ∀ text, marker = some text → text.toList.all Xml.isAllowed = true) {values : List p.Item}
    (shows : List.Forall₂ p.Shows items values) :
    p.roll.Brings (.answer 200 (document p.action (pageMembers p items marker))) ⟨values, marker⟩ := by
  have named : Xml.IsName (p.action ++ "Response") ∧ Xml.IsName (p.action ++ "Result") := by
    cases p with
    | attached principal | inline principal => cases principal <;> simp only [action] <;> decide
    | tags target => cases target <;> simp only [action] <;> decide
    | versions arn => simp only [action]; decide
  exact .answer (by decide) (members?_document named.1 named.2 (fits_pageMembers fits allowed))
    (showsPage_pageMembers shows)

end

/-- What IAM replies to a list call settles it. When the replies are pages that lead from one to the next, up to a
last one, the call gives the items of all of them in order; when one of the replies is a failure, it is that failure.
No limit matters that is not below the number of pages. -/
theorem conduct_send {p : Paged} {exchanges : List (Form × Reply)} {found : List (Page p.Item)} {ending : Ending}
    (chain : p.roll.Chain none exchanges found ending) {limit : Nat} (enough : exchanges.length ≤ limit)
    (rest : List Reply) :
    conduct (send limit p.call) ⟨exchanges.map Prod.snd ++ rest, []⟩ =
      (match ending with
        | .complete => .ok (p.gather (found.flatMap Page.items))
        | .broken code message => .error (.iam p.action code message),
      ⟨rest, exchanges.map Prod.fst⟩) := by
  rw [send_eq, conduct_map, chain.conduct_pages p.readBy enough]
  cases ending with
  | complete => rfl
  | broken code message => rfl

def throttledDocument : String :=
  "<ErrorResponse><Error><Code>Throttling</Code><Message>slow down</Message></Error></ErrorResponse>"

/-- Answers with a page of a list and what comes behind it. -/
def pageThen (p : Paged) (items : List Content) (behind : Reply) : Session :=
  ⟨[.answer 200 (document p.action (pageMembers p items (some "m"))), behind], []⟩

/-- Answers with two pages of a list. -/
def twoPages (p : Paged) (first last : List Content) : Session :=
  pageThen p first (.answer 200 (document p.action (pageMembers p last none)))

/-- The policies of a role, of which one has no ARN; the names of the policies of a group; the tags of a user, of which
one has no value; the versions of a policy; and again the policies of a role, broken off behind the first page. -/
theorem conduct_send_twoPages :
    conduct (send 2 (.listAttached (.role "r"))) (twoPages (.attached (.role "r"))
        [.members [textMember "PolicyName" "x", textMember "PolicyArn" "a"], .members []]
        [.members [textMember "PolicyArn" "b"]]) =
      (.ok ["a", "b"],
        ⟨[], [⟨"ListAttachedRolePolicies", [("RoleName", "r")]⟩,
          ⟨"ListAttachedRolePolicies", [("RoleName", "r"), ("Marker", "m")]⟩]⟩) ∧
    conduct (send 2 (.listInline (.group "g"))) (twoPages (.inline (.group "g"))
        [.text (some "x"), .text (some "y & z")] [.text (some "x")]) =
      (.ok ["x", "y & z", "x"],
        ⟨[], [⟨"ListGroupPolicies", [("GroupName", "g")]⟩,
          ⟨"ListGroupPolicies", [("GroupName", "g"), ("Marker", "m")]⟩]⟩) ∧
    conduct (send 2 (.listTags (.user "u"))) (twoPages (.tags (.user "u"))
        [.members [textMember "Key" "team", textMember "Value" "a"]] [.members [textMember "Key" "free"]]) =
      (.ok [⟨"team", "a"⟩, ⟨"free", ""⟩],
        ⟨[], [⟨"ListUserTags", [("UserName", "u")]⟩, ⟨"ListUserTags", [("UserName", "u"), ("Marker", "m")]⟩]⟩) ∧
    conduct (send 2 (.listPolicyVersions "p")) (twoPages (.versions "p")
        [.members [textMember "VersionId" "v2", textMember "IsDefaultVersion" "true"]]
        [.members [textMember "Document" "d", textMember "VersionId" "v1",
          textMember "CreateDate" "1970-01-01T00:00:00Z"]]) =
      (.ok [⟨"v2", none, true, none⟩, ⟨"v1", some "d", false, some .epoch⟩],
        ⟨[], [⟨"ListPolicyVersions", [("PolicyArn", "p")]⟩,
          ⟨"ListPolicyVersions", [("PolicyArn", "p"), ("Marker", "m")]⟩]⟩) ∧
    conduct (send 2 (.listAttached (.role "r")))
        (pageThen (.attached (.role "r")) [.members [textMember "PolicyArn" "a"]] (.answer 400 throttledDocument)) =
      (.error (.iam "ListAttachedRolePolicies" (some "Throttling") "slow down"),
        ⟨[], [⟨"ListAttachedRolePolicies", [("RoleName", "r")]⟩,
          ⟨"ListAttachedRolePolicies", [("RoleName", "r"), ("Marker", "m")]⟩]⟩) := by
  have brings (p : Paged) (items : List Content) (values : List p.Item) (marker : Option String)
      (allowed : ∀ text, marker = some text → text.toList.all Xml.isAllowed = true)
      (fits : Xml.Fits [("member", p.shape)] (items.map ("member", ·)))
      (read : items.mapM p.reader.read = some values) :
      p.roll.Brings (.answer 200 (document p.action (pageMembers p items marker))) ⟨values, marker⟩ :=
    brings_document fits allowed ((mapM_eq_some.mp read).imp fun item value => (p.readBy.reads item value).mp)
  have marked : ∀ text, some "m" = some text → text.toList.all Xml.isAllowed = true := by
    rintro _ ⟨⟩
    decide
  have throttled : (attached (.role "r")).roll.Fails (.answer 400 throttledDocument) (some "Throttling") "slow down" :=
    .refused (by decide) (show _ = some ⟨some "Throttling", some "slow down"⟩ by decide +kernel)
  have followed (p : Paged) {first last : List Content} (xs ys : List p.Item)
      (firstFits : Xml.Fits [("member", p.shape)] (first.map ("member", ·)))
      (lastFits : Xml.Fits [("member", p.shape)] (last.map ("member", ·)))
      (firstRead : first.mapM p.reader.read = some xs) (lastRead : last.mapM p.reader.read = some ys) :
      conduct (send 2 p.call) (twoPages p first last) =
        (.ok (p.gather (xs ++ (ys ++ []))), ⟨[], [p.roll.form none, p.roll.form (some "m")]⟩) := by
    have page := brings p first xs (some "m") marked firstFits firstRead
    have ends := brings p last ys none nofun lastFits lastRead
    have chain := Roll.Chain.more page rfl (by decide) (Option.some_ne_none _).symm (.last ends nofun)
    exact conduct_send chain (Nat.le_refl 2) []
  have brokenOff (fits) :=
    Roll.Chain.more (brings (.attached (.role "r")) [.members [textMember "PolicyArn" "a"]] [some "a"] (some "m")
      marked fits rfl) rfl (by decide) (Option.some_ne_none _).symm (.broken throttled)
  refine ⟨followed (.attached (.role "r")) [some "a", none] [some "b"] ?_ ?_ rfl rfl,
    followed (.inline (.group "g")) ["x", "y & z"] ["x"] ?_ ?_ rfl rfl,
    followed (.tags (.user "u")) [⟨"team", "a"⟩] [⟨"free", ""⟩] ?_ ?_ rfl rfl,
    followed (.versions "p") [⟨"v2", none, true, none⟩] [⟨"v1", some "d", false, some .epoch⟩] ?_ ?_ rfl rfl,
    conduct_send (brokenOff ?_) (Nat.le_refl 2) []⟩
  all_goals
    repeat' first | exact .nil | apply Xml.Fits.text | apply Xml.Fits.members | rfl | decide

/-- A list call that gets through gives all pages. -/
theorem chain_of_conduct_send {p : Paged} {limit : Nat} {replies : List Reply} {value : p.call.Result} {t : Session}
    (got : conduct (send limit p.call) ⟨replies, []⟩ = (.ok value, t)) :
    ∃ exchanges found, p.roll.Chain none exchanges found .complete ∧ replies = exchanges.map Prod.snd ++ t.replies ∧
      t.sent = exchanges.map Prod.fst ∧ value = p.gather (found.flatMap Page.items) := by
  rw [send_eq, conduct_map] at got
  rcases followed : conduct (pages p.roll.action [p.roll.subject] (p.roll.items p.reader) limit none)
    ⟨replies, []⟩ with ⟨_ | listed, u⟩
  · rw [followed] at got
    cases got
  · rw [followed] at got
    cases got
    obtain ⟨exchanges, found, chain, rfl, asked, rfl⟩ := Roll.chain_of_conduct_pages p.readBy followed
    exact ⟨exchanges, found, chain, rfl, asked, rfl⟩

end Paged

end IamKeeper.Iam.Query
