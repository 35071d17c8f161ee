import IamKeeper.Xml.Element
import Mathlib.Tactic.SplitIfs

namespace IamKeeper.Xml

/-- Names that stand in tags as they are. -/
def IsName (name : String) : Prop :=
  name.toList.head?.any isNameStart = true ∧ name.toList.all isNameChar = true

instance (name : String) : Decidable (IsName name) :=
  inferInstanceAs (Decidable (_ ∧ _))

def enclosed (name : String) (inner : List Char) : List Char :=
  '<' :: (name.toList ++ '>' :: (inner ++ '<' :: '/' :: (name.toList ++ ['>'])))

mutual

/-- What stands in an element, as it is written. -/
def Content.write : Content → List Char
  | .text content => escape (content.getD "").toList
  | .members found => writeMembers found

def writeMembers : List (String × Content) → List Char
  | [] => []
  | (name, content) :: found => enclosed name content.write ++ writeMembers found

end

/-- Members that can be written, of the names and shapes that are looked for. -/
inductive Fits : List (String × Shape) → List (String × Content) → Prop
  | nil {known : List (String × Shape)} : Fits known []
  | text {known : List (String × Shape)} {name content : String} {found : List (String × Content)}
      (sought : known.lookup name = some .text) (isName : IsName name)
      (allowed : content.toList.all isAllowed = true) (rest : Fits known found) :
      Fits known ((name, .text (some content)) :: found)
  | members {known deeper : List (String × Shape)} {name : String} {inner found : List (String × Content)}
      (sought : known.lookup name = some (.members deeper)) (isName : IsName name) (within : Fits deeper inner)
      (rest : Fits known found) : Fits known ((name, .members inner) :: found)

def tagOf (name : String) (depth : Nat) : Tag :=
  ⟨⟨[], name.toList⟩, depth⟩

mutual

/-- The tokens of what stands in an element, within `depth` open elements. Without characters there is no text. -/
def Content.tokens (depth : Nat) : Content → List Token
  | .text content => if content.getD "" = "" then [] else [.text content]
  | .members found => memberTokens depth found

def memberTokens (depth : Nat) : List (String × Content) → List Token
  | [] => []
  | (name, content) :: found =>
    .opening (tagOf name depth) false true ::
      (content.tokens (depth + 1) ++ .closing (tagOf name depth) :: memberTokens depth found)

end

section Name

variable {name : String} (isName : IsName name)

include isName

theorem exists_cons_of_isName : ∃ c cs, name.toList = c :: cs ∧ isNameStart c = true := by
  obtain ⟨starts, _⟩ := isName
  cases h : name.toList with
  | nil => simp [h] at starts
  | cons c cs => exact ⟨c, cs, rfl, by simpa [h] using starts⟩

theorem readName_name (rest : List Char) :
    readName (name.toList ++ '>' :: rest) = some (⟨[], name.toList⟩, '>' :: rest) := by
  obtain ⟨starts, chars⟩ := isName
  have chars := List.all_eq_true.mp chars
  let within (c : Char) : Bool := isNameChar c || c = ':'
  have inside : ∀ c ∈ name.toList, within c = true := fun c hc => by simp [within, chars c hc]
  have stops : ¬within '>' = true := by decide
  have written : (name.toList ++ '>' :: rest).takeWhile within = name.toList := by
    rw [List.takeWhile_append_of_pos inside, List.takeWhile_cons_of_neg stops, List.append_nil]
  have behind : (name.toList ++ '>' :: rest).dropWhile within = '>' :: rest := by
    rw [List.dropWhile_append_of_pos inside, List.dropWhile_cons_of_neg stops]
  have whole : Text.splitAt ':' name.toList = [name.toList] := by
    rw [Text.splitAt_eq_splitOn]
    exact List.splitOn_eq_singleton fun h => absurd (chars ':' h) (by decide)
  unfold readName
  simp only [within] at written behind
  simp only [written, behind, whole]
  exact if_pos starts

theorem readToken_opening (depth : Nat) (rest : List Char) :
    readToken depth ('<' :: (name.toList ++ '>' :: rest)) =
      some (some (.opening (tagOf name depth) false true), rest) := by
  have read := readName_name isName rest
  have tagEnd (limit : Nat) : readTagEnd limit ('>' :: rest) = some (false, true, rest) := by
    unfold readTagEnd
    rfl
  obtain ⟨c, cs, h, starts⟩ := exists_cons_of_isName isName
  have plain : c ≠ '!' ∧ c ≠ '?' ∧ c ≠ '/' := by
    refine ⟨?_, ?_, ?_⟩ <;> (rintro rfl; exact absurd starts (by decide))
  rw [h, List.cons_append] at read ⊢
  simp [readToken, plain, read, tagEnd, tagOf, h]

theorem readToken_closing (depth : Nat) (rest : List Char) :
    readToken (depth + 1) ('<' :: '/' :: (name.toList ++ '>' :: rest)) =
      some (some (.closing (tagOf name depth)), rest) := by
  have tagEnd : skipSpace ('>' :: rest) = '>' :: rest := rfl
  simp [readToken, readName_name isName, tagEnd, Text.afterFront?, tagOf]

end Name

/-- No mark of a tag stands in a text that is escaped. -/
theorem mem_escape {s : List Char} {c : Char} (h : c ∈ escape s) :
    c ∈ ['&', 'a', 'm', 'p', 'l', 't', 'g', ';'] ∨ c ∈ s ∧ c ≠ '<' ∧ c ≠ '>' := by
  obtain ⟨d, hd, h⟩ := List.mem_flatMap.mp h
  unfold escapedChar at h
  split_ifs at h with _ lt gt
  · exact .inl ((by decide : ['&', 'a', 'm', 'p', ';'] ⊆ _) h)
  · exact .inl ((by decide : ['&', 'l', 't', ';'] ⊆ _) h)
  · exact .inl ((by decide : ['&', 'g', 't', ';'] ⊆ _) h)
  · cases List.mem_singleton.mp h
    exact .inr ⟨hd, lt, gt⟩

theorem plain_of_mem_escape {s : List Char} {c : Char} (h : c ∈ escape s) : c ≠ '<' ∧ c ≠ '>' := by
  rcases mem_escape h with named | ⟨_, plain⟩
  · exact ⟨by rintro rfl; simp at named, by rintro rfl; simp at named⟩
  · exact plain

theorem all_isAllowed_escape {s : List Char} (allowed : s.all isAllowed = true) :
    (escape s).all isAllowed = true := by
  have named : ['&', 'a', 'm', 'p', 'l', 't', 'g', ';'].all isAllowed = true := by decide
  rw [List.all_eq_true] at allowed named ⊢
  intro c h
  rcases mem_escape h with h | ⟨h, _⟩
  · exact named c h
  · exact allowed c h

theorem escape_ne_nil {s : List Char} (nonempty : s ≠ []) : escape s ≠ [] := by
  obtain ⟨c, s, rfl⟩ := List.exists_cons_of_ne_nil nonempty
  unfold escape escapedChar
  rw [List.flatMap_cons]
  split_ifs <;> simp

theorem behind?_eq_none {mark s : List Char} {c : Char} (marked : c ∈ mark) (absent : c ∉ s) :
    behind? mark s = none := by
  induction s with
  | nil => rfl
  | cons d s ih =>
    have front : Text.afterFront? mark (d :: s) = none := by
      refine Option.eq_none_iff_forall_ne_some.mpr fun rest h => absent ?_
      rw [Text.afterFront?_eq_some.mp h]
      exact List.mem_append_left _ marked
    simp only [behind?, front, ih fun h => absent (List.mem_cons_of_mem _ h), ite_self]

theorem readText_escape {s : List Char} (allowed : s.all isAllowed = true) (rest : List Char) :
    readText (escape s ++ '<' :: rest) = some (.text (some (String.ofList s)), '<' :: rest) := by
  have inside : ∀ c ∈ escape s, decide (c ≠ '<') = true := fun c h => by simpa using (plain_of_mem_escape h).1
  have written : (escape s ++ '<' :: rest).takeWhile (· ≠ '<') = escape s := by
    rw [List.takeWhile_append_of_pos inside, List.takeWhile_cons_of_neg (by simp), List.append_nil]
  have behind : (escape s ++ '<' :: rest).dropWhile (· ≠ '<') = '<' :: rest := by
    rw [List.dropWhile_append_of_pos inside, List.dropWhile_cons_of_neg (by simp)]
  have unclosed : behind? "]]>".toList (escape s) = none :=
    behind?_eq_none (by decide : '>' ∈ "]]>".toList) fun h => (plain_of_mem_escape h).2 rfl
  unfold readText
  simp only [written, behind, all_isAllowed_escape allowed, unclosed, unescape?_escape]
  rfl

theorem readToken_text {s : List Char} (nonempty : s ≠ []) (allowed : s.all isAllowed = true) (depth : Nat)
    (rest : List Char) :
    readToken depth (escape s ++ '<' :: rest) = some (some (.text (some (String.ofList s))), '<' :: rest) := by
  have read := readText_escape allowed rest
  obtain ⟨c, t, h⟩ := List.exists_cons_of_ne_nil (escape_ne_nil nonempty)
  have plain : c ≠ '<' := (plain_of_mem_escape (h ▸ List.mem_cons_self)).1
  rw [h, List.cons_append] at read ⊢
  simp [readToken, plain, read]

theorem readTokens_cons {limit depth : Nat} {s rest : List Char} {token : Token}
    (read : readToken depth s = some (some token, rest)) (nonempty : s ≠ []) :
    readTokens (limit + 1) depth s = token ::
      match token.depthBehind depth with
      | 0 => readEpilog rest
      | depth => readTokens limit depth rest := by
  cases s with
  | nil => exact absurd rfl nonempty
  | cons c s =>
    cases behind : token.depthBehind depth with
    | zero => simp only [readTokens, read, behind]
    | succ depth => simp only [readTokens, read, behind]

theorem readTokens_text {content : String} (allowed : content.toList.all isAllowed = true)
    (depth limit : Nat) (rest : List Char) :
    readTokens (((Content.text (some content)).tokens (depth + 1)).length + limit) (depth + 1)
        (escape content.toList ++ '<' :: rest) =
      (Content.text (some content)).tokens (depth + 1) ++ readTokens limit (depth + 1) ('<' :: rest) := by
  by_cases empty : content = ""
  · subst empty
    simp [Content.tokens, escape]
  · have nonempty : content.toList ≠ [] := by simpa using empty
    have written : escape content.toList ++ '<' :: rest ≠ [] := by simp
    simp only [Content.tokens, Option.getD_some, if_neg empty, List.length_singleton, Nat.add_comm 1]
    rw [readTokens_cons (readToken_text nonempty allowed _ _) written, String.ofList_toList]
    rfl

/-- An element and the ones behind it, when what stands in it is read within one more open element. -/
theorem readTokens_member {name : String} (isName : IsName name) {content : Content}
    {found : List (String × Content)} {depth limit : Nat} {rest : List Char}
    (inside : ∀ limit rest, readTokens ((content.tokens (depth + 1 + 1)).length + limit) (depth + 1 + 1)
      (content.write ++ '<' :: rest) = content.tokens (depth + 1 + 1) ++ readTokens limit (depth + 1 + 1) ('<' :: rest))
    (others : readTokens ((memberTokens (depth + 1) found).length + limit) (depth + 1)
      (writeMembers found ++ rest) = memberTokens (depth + 1) found ++ readTokens limit (depth + 1) rest) :
    readTokens ((memberTokens (depth + 1) ((name, content) :: found)).length + limit) (depth + 1)
        (writeMembers ((name, content) :: found) ++ rest) =
      memberTokens (depth + 1) ((name, content) :: found) ++ readTokens limit (depth + 1) rest := by
  have written : writeMembers ((name, content) :: found) ++ rest =
      '<' :: (name.toList ++ '>' :: (content.write ++ '<' :: '/' :: (name.toList ++
        '>' :: (writeMembers found ++ rest)))) := by
    simp [writeMembers, enclosed]
  have fuel : (memberTokens (depth + 1) ((name, content) :: found)).length + limit =
      (content.tokens (depth + 1 + 1)).length + ((memberTokens (depth + 1) found).length + limit + 1) + 1 := by
    simp only [memberTokens, List.length_cons, List.length_append]
    omega
  rw [written, fuel, readTokens_cons (readToken_opening isName _ _) (List.cons_ne_nil _ _)]
  change _ :: readTokens _ (depth + 1 + 1) _ = _
  rw [inside, readTokens_cons (readToken_closing isName _ _) (List.cons_ne_nil _ _)]
  change _ :: (_ ++ _ :: readTokens _ (depth + 1) _) = _
  rw [others]
  simp [memberTokens]

theorem readTokens_write {known : List (String × Shape)} {found : List (String × Content)} (fits : Fits known found)
    (depth limit : Nat) (rest : List Char) :
    readTokens ((memberTokens (depth + 1) found).length + limit) (depth + 1) (writeMembers found ++ rest) =
      memberTokens (depth + 1) found ++ readTokens limit (depth + 1) rest := by
  induction fits generalizing depth limit rest with
  | nil => simp [memberTokens, writeMembers]
  | text _ isName allowed _ ih =>
    exact readTokens_member isName (readTokens_text allowed (depth + 1)) (ih depth limit rest)
  | members _ isName _ _ within ih =>
    exact readTokens_member isName (fun limit rest => within (depth + 1) limit ('<' :: rest)) (ih depth limit rest)

theorem length_memberTokens_le {known : List (String × Shape)} {found : List (String × Content)}
    (fits : Fits known found) (depth : Nat) : (memberTokens depth found).length ≤ (writeMembers found).length := by
  induction fits generalizing depth with
  | nil => exact Nat.zero_le _
  | @text known name content found _ _ _ _ ih =>
    have text : ((Content.text (some content)).tokens (depth + 1)).length ≤ (escape content.toList).length := by
      unfold Content.tokens
      split
      · exact Nat.zero_le _
      next filled =>
        have nonempty : content.toList ≠ [] := by simpa using filled
        exact List.length_pos_iff.mpr (escape_ne_nil nonempty)
    have others := ih depth
    simp only [memberTokens, writeMembers, Content.write, Option.getD_some, enclosed, List.length_cons,
      List.length_append]
    omega
  | members _ _ _ _ within ih =>
    have inside := within (depth + 1)
    have others := ih depth
    simp only [memberTokens, writeMembers, Content.write, Content.tokens, enclosed, List.length_cons,
      List.length_append]
    omega

theorem behindProlog?_start {c : Char} (starts : isNameStart c = true) (s : List Char) :
    behindProlog? ('<' :: c :: s) = some ('<' :: c :: s) := by
  have plain : c ≠ '!' ∧ c ≠ '?' := by
    refine ⟨?_, ?_⟩ <;> (rintro rfl; exact absurd starts (by decide))
  have unmarked (limit : Nat) : skipMisc limit ('<' :: c :: s) = some ('<' :: c :: s) := by
    have front : skipSpace ('<' :: c :: s) = '<' :: c :: s := rfl
    cases limit with
    | zero => rfl
    | succ limit => simp [skipMisc, front, plain]
  unfold behindProlog?
  simp [Text.afterFront?, unmarked, plain.1.symm, plain.2.symm]

/-- The tokens of a document that is one element. -/
theorem tokens_enclosed {name : String} (isName : IsName name) {known : List (String × Shape)}
    {found : List (String × Content)} (fits : Fits known found) :
    tokens (.ofList (enclosed name (writeMembers found))) =
      .opening (tagOf name 0) false true :: (memberTokens 1 found ++ [.closing (tagOf name 0)]) := by
  have front : behindProlog? (enclosed name (writeMembers found)) = some (enclosed name (writeMembers found)) := by
    obtain ⟨c, cs, h, starts⟩ := exists_cons_of_isName isName
    simp only [enclosed, h, List.cons_append]
    exact behindProlog?_start starts _
  obtain ⟨limit, enough⟩ := Nat.exists_eq_add_of_le (length_memberTokens_le fits 1)
  have fuel : (enclosed name (writeMembers found)).length =
      (memberTokens 1 found).length + (limit + 2 * name.toList.length + 3 + 1) + 1 := by
    simp only [enclosed, List.length_cons, List.length_append, List.length_nil, enough]
    omega
  unfold tokens
  simp only [String.toList_ofList, front, fuel]
  unfold enclosed
  rw [readTokens_cons (readToken_opening isName _ _) (List.cons_ne_nil _ _)]
  change _ :: readTokens _ (0 + 1) _ = _
  rw [readTokens_write fits, readTokens_cons (readToken_closing isName _ _) (List.cons_ne_nil _ _)]
  rfl

theorem text_tokens (content : Option String) (tag : Tag) (depth : Nat) (rest : List Token) :
    textWithin tag ((Content.text content).tokens depth ++ .closing tag :: rest) = some (content.getD "") ∧
      behindClosing tag ((Content.text content).tokens depth ++ .closing tag :: rest) = rest := by
  unfold Content.tokens
  split
  next empty => simp [textWithin, behindClosing, empty]
  next => cases content <;> simp_all [textWithin, behindClosing]

theorem members_memberTokens {known : List (String × Shape)} {found : List (String × Content)}
    (fits : Fits known found) (e : Element) (filled : e.isEmpty = false) (depth : Nat) {limit : Nat}
    (enough : (memberTokens depth found).length < limit) (rest : List Token) :
    e.members limit known (memberTokens depth found ++ .closing e.tag :: rest) = (found, rest) := by
  induction fits generalizing e depth limit rest with
  | nil =>
    obtain ⟨limit, rfl⟩ := Nat.exists_eq_add_one.mpr (Nat.zero_lt_of_lt enough)
    simp [memberTokens, Element.members, Element.next, filled, nextWithin]
  | @text known name content found sought _ _ _ ih =>
    obtain ⟨limit, rfl⟩ := Nat.exists_eq_add_one.mpr (Nat.zero_lt_of_lt enough)
    simp only [memberTokens, List.length_cons, List.length_append] at enough
    obtain ⟨text, behind⟩ := text_tokens (some content) (tagOf name depth) (depth + 1)
      (memberTokens depth found ++ .closing e.tag :: rest)
    have others := ih e filled depth (by omega : (memberTokens depth found).length < limit) rest
    have named : Element.name ⟨tagOf name depth, false⟩ = name := String.ofList_toList
    simp only [memberTokens, List.cons_append, List.append_assoc]
    simp [Element.members, Element.next, filled, nextWithin, named, sought, Element.behind, Element.text?, text,
      behind, others]
  | @members known deeper name inner found sought _ _ _ within ih =>
    obtain ⟨limit, rfl⟩ := Nat.exists_eq_add_one.mpr (Nat.zero_lt_of_lt enough)
    simp only [memberTokens, Content.tokens, List.length_cons, List.length_append] at enough
    have inside := within ⟨tagOf name depth, false⟩ rfl (depth + 1)
      (by omega : (memberTokens (depth + 1) inner).length < limit)
      (memberTokens depth found ++ .closing e.tag :: rest)
    have others := ih e filled depth (by omega : (memberTokens depth found).length < limit) rest
    have named : Element.name ⟨tagOf name depth, false⟩ = name := String.ofList_toList
    simp only [memberTokens, Content.tokens, List.cons_append, List.append_assoc]
    simp [Element.members, Element.next, filled, nextWithin, named, sought, inside, others]

theorem find_write {known : List (String × Shape)} {found : List (String × Content)} (fits : Fits known found)
    (tag : Tag) (depth : Nat) (rest : List Token) :
    Element.find known ⟨tag, false⟩ (memberTokens depth found ++ .closing tag :: rest) = found := by
  have enough : (memberTokens depth found).length < (memberTokens depth found ++ .closing tag :: rest).length + 1 := by
    rw [List.length_append]
    omega
  unfold Element.find
  rw [members_memberTokens fits ⟨tag, false⟩ rfl depth enough rest]

end IamKeeper.Xml
