import Curation.Proofs.Query.Lexemes
import Curation.Proofs.Query.Writing

/-!
# The shape of the queries that texts tell

Whatever a text looks like, the query that it tells is a canonical one, and it is made of the terms
that stand in the text: none is lost, none is told twice, and they keep their order. The keyword
`OR` cuts them into conjunctions; `AND`, and an `OR` without terms on one of its sides, leave no
trace.

* `Query.alternatives`, `Query.conjunctions`: the parts of a query of which one has to match.
* `Query.groupsOf_append_or`, `Query.groupsOf_append`: the groups of tokens put together.
* `Query.Joined`: two terms that stand side by side in one conjunction.
* `Query.parse_canonical`: the shape and the terms of the query that a text tells.
* `Query.parse_append`: the query of a text that is put together from two.
-/

namespace Curation

/-- The term that a token is, if it is no keyword. -/
def Token.term? : Token → Option Term
  | .term t => some t
  | _ => none

namespace Query

/-- The queries of which one has to match: none for the query that asks for nothing, the branches
of alternatives, and any other query by itself. -/
def alternatives : Query → List Query
  | .all [] => []
  | .any queries => queries
  | query => [query]

/-- The terms of each alternative. -/
def conjunctions (query : Query) : List (List Term) := query.alternatives.map terms

/-! ## Queries of groups -/

section Groups

variable {ts : List Term} {groups : List (List Term)}

/-- The query of a group has the terms of the group, in order. -/
theorem terms_ofGroup (ts : List Term) : (ofGroup ts).terms = ts := by
  unfold ofGroup
  split
  · rfl
  · rw [terms, termsOfEach_eq_flatMap, List.flatMap_map]
    exact List.flatMap_singleton' _

/-- The terms of the queries of groups are the groups. -/
theorem map_terms_ofGroup (groups : List (List Term)) :
    (groups.map ofGroup).map terms = groups := by
  rw [List.map_map]
  exact (List.map_congr_left fun ts _ => terms_ofGroup ts).trans (List.map_id' groups)

/-- The query of a group with a term is a conjunction. -/
theorem isConjunction_ofGroup (hne : ts ≠ []) : (ofGroup ts).IsConjunction := by
  match ts, hne with
  | [t], _ => exact .term t
  | t :: u :: ts, _ => exact @IsConjunction.all (t :: u :: ts) (Nat.le_add_left 2 _)

/-- The query of a group is its own only alternative. -/
theorem alternatives_ofGroup (hne : ts ≠ []) : (ofGroup ts).alternatives = [ofGroup ts] := by
  match ts, hne with
  | [t], _ => rfl
  | t :: u :: ts, _ => rfl

/-- The alternatives of the query of groups are the queries of the groups. -/
theorem alternatives_ofGroups (hne : ∀ ts ∈ groups, ts ≠ []) :
    (ofGroups groups).alternatives = groups.map ofGroup := by
  match groups, hne with
  | [], _ => rfl
  | [ts], hne => exact alternatives_ofGroup (hne ts List.mem_cons_self)
  | _ :: _ :: _, _ => rfl

/-- The conjunctions of the query of groups are the groups. -/
theorem conjunctions_ofGroups (hne : ∀ ts ∈ groups, ts ≠ []) :
    (ofGroups groups).conjunctions = groups := by
  rw [conjunctions, alternatives_ofGroups hne, map_terms_ofGroup]

/-- The query of groups has the terms of all groups, in order. -/
theorem terms_ofGroups (groups : List (List Term)) : (ofGroups groups).terms = groups.flatten := by
  match groups with
  | [] => rfl
  | [ts] => simpa [ofGroups] using terms_ofGroup ts
  | ts :: us :: groups =>
    show termsOfEach ((ts :: us :: groups).map ofGroup) = _
    rw [termsOfEach_eq_flatMap, List.flatMap_def, map_terms_ofGroup]

/-- The query of groups is canonical if each group has a term. -/
theorem isCanonical_ofGroups (hne : ∀ ts ∈ groups, ts ≠ []) : (ofGroups groups).IsCanonical := by
  match groups, hne with
  | [], _ => exact .identity
  | [ts], hne => exact .conjunction (isConjunction_ofGroup (hne ts List.mem_cons_self))
  | ts :: us :: groups, hne =>
    refine .any (by simp) fun query hquery => ?_
    obtain ⟨group, hgroup, rfl⟩ := List.mem_map.mp hquery
    exact isConjunction_ofGroup (hne group hgroup)

end Groups

/-! ## Groups of tokens -/

/-- Tokens have at least one group, which may be empty. -/
theorem groupsOf_ne_nil (tokens : List Token) : groupsOf tokens ≠ [] := by
  fun_induction groupsOf tokens with
  | case1 | case2 | case4 | case5 => exact List.cons_ne_nil _ _
  | case3 tokens ih => exact ih

/-- A term belongs to the group behind it. -/
theorem groupsOf_term_cons {tokens : List Token} {group : List Term} {groups : List (List Term)}
    (h : groupsOf tokens = group :: groups) (t : Term) :
    groupsOf (.term t :: tokens) = (t :: group) :: groups := by
  rw [groupsOf, h]

/-- Groups of tokens are put together by joining the last one of the first tokens and the first one
of those behind them. -/
theorem groupsOf_append (left right : List Token) :
    ∃ before last first after, groupsOf left = before ++ [last] ∧
      groupsOf right = first :: after ∧
      groupsOf (left ++ right) = before ++ (last ++ first) :: after := by
  obtain ⟨first, after, hright⟩ := List.exists_cons_of_ne_nil (groupsOf_ne_nil right)
  induction left with
  | nil => exact ⟨[], [], first, after, rfl, hright, hright⟩
  | cons token left ih =>
    obtain ⟨before, last, _, _, hleft, hright', happend⟩ := ih
    obtain ⟨rfl, rfl⟩ := List.cons.inj (hright.symm.trans hright')
    cases token with
    | and => exact ⟨before, last, first, after, hleft, hright, happend⟩
    | or =>
      refine ⟨[] :: before, last, first, after, ?_, hright, ?_⟩
      · rw [groupsOf, hleft, List.cons_append]
      · rw [List.cons_append, groupsOf, happend, List.cons_append]
    | term t =>
      -- the term belongs to the first group, which is the last one as well if there is no other
      cases before with
      | nil =>
        exact ⟨[], t :: last, first, after, groupsOf_term_cons hleft t, hright,
          groupsOf_term_cons happend t⟩
      | cons group before =>
        exact ⟨(t :: group) :: before, last, first, after, groupsOf_term_cons hleft t, hright,
          groupsOf_term_cons happend t⟩

/-- The keyword `OR` separates the groups on its sides. -/
theorem groupsOf_append_or (left right : List Token) :
    groupsOf (left ++ .or :: right) = groupsOf left ++ groupsOf right := by
  obtain ⟨before, last, first, after, hleft, hright, happend⟩ := groupsOf_append left (.or :: right)
  obtain ⟨rfl, rfl⟩ := List.cons.inj hright
  rw [happend, hleft, List.append_nil, List.append_assoc]
  rfl

/-- The keyword `AND` leaves no trace. -/
theorem groupsOf_append_and (left right : List Token) :
    groupsOf (left ++ .and :: right) = groupsOf (left ++ right) := by
  induction left with
  | nil => rfl
  | cons token left ih => cases token <;> simp only [List.cons_append, groupsOf, ih]

/-- The groups hold the terms of the tokens. -/
theorem flatten_groupsOf (tokens : List Token) :
    (groupsOf tokens).flatten = tokens.filterMap Token.term? := by
  induction tokens with
  | nil => rfl
  | cons token tokens ih =>
    cases token with
    -- a keyword is no term, and it adds an empty group at most
    | and | or => exact ih
    | term t =>
      obtain ⟨group, groups, h⟩ := List.exists_cons_of_ne_nil (groupsOf_ne_nil tokens)
      rw [groupsOf_term_cons h, List.flatten_cons, List.cons_append, ← List.flatten_cons, ← h, ih]
      rfl

/-- Keywords without an `OR` among them leave the groups behind them as they are; an `OR` among them
cuts those off. -/
theorem groupsOf_keywords_append {keywords : List Token}
    (hkeywords : ∀ token ∈ keywords, token.term? = none) (right : List Token) :
    if .or ∈ keywords then ∃ groups, groupsOf (keywords ++ right) = [] :: groups
    else groupsOf (keywords ++ right) = groupsOf right := by
  induction keywords with
  | nil => rfl
  | cons keyword keywords ih =>
    obtain ⟨hkeyword, hrest⟩ := List.forall_mem_cons.mp hkeywords
    cases keyword with
    | and => simpa [groupsOf] using ih hrest
    | or => simp [groupsOf]
    | term t => cases hkeyword

/-! ## The query of a text -/

/-- The groups that hold terms. -/
def filledGroups (tokens : List Token) : List (List Term) :=
  (groupsOf tokens).filter (!·.isEmpty)

/-- The query of tokens is that of their groups that are not empty. -/
theorem ofTokens_eq (tokens : List Token) : ofTokens tokens = ofGroups (filledGroups tokens) := rfl

/-- The groups that are kept have a term each. -/
theorem ne_nil_of_mem_filledGroups {tokens : List Token} :
    ∀ ts ∈ filledGroups tokens, ts ≠ [] := by
  intro ts hts
  simpa using (List.mem_filter.mp hts).2

/-- The conjunctions of the query of tokens are the groups that are kept. -/
theorem conjunctions_ofTokens (tokens : List Token) :
    (ofTokens tokens).conjunctions = filledGroups tokens :=
  conjunctions_ofGroups ne_nil_of_mem_filledGroups

/-- The query of tokens has the terms among the tokens, in order. -/
theorem terms_ofTokens (tokens : List Token) :
    (ofTokens tokens).terms = tokens.filterMap Token.term? := by
  rw [ofTokens_eq, terms_ofGroups, filledGroups, List.flatten_filter_not_isEmpty, flatten_groupsOf]

/-- The terms `t` and `u` stand side by side in one conjunction of the query, behind the terms
`passed` of the query. -/
def Joined (query : Query) (passed : List Term) (t u : Term) : Prop :=
  ∃ before left right after,
    query.conjunctions = before ++ (left ++ t :: u :: right) :: after ∧
      before.flatten ++ left = passed

/-- How much stands before a place in groups tells the group of the place. -/
private theorem eq_of_same_place {before after before' after' : List (List Term)}
    {left right left' right' : List Term} (hright : right ≠ []) (hright' : right' ≠ [])
    (h : before ++ (left ++ right) :: after = before' ++ (left' ++ right') :: after')
    (hplace : before.flatten ++ left = before'.flatten ++ left') : right = right' := by
  induction before generalizing before' with
  | nil =>
    cases before' with
    | nil =>
      obtain rfl : left = left' := by simpa using hplace
      exact List.append_cancel_left (List.cons.inj h).1
    | cons group before' =>
      -- the first group would end before what follows in it
      obtain rfl := (List.cons.inj h).1
      simp [hright] at hplace
  | cons group before ih =>
    cases before' with
    | nil =>
      obtain rfl := (List.cons.inj h).1
      simp [hright'] at hplace
    | cons group' before' =>
      obtain ⟨rfl, htail⟩ := List.cons.inj h
      refine ih htail ?_
      simpa using hplace

/-- A term is joined to the one behind it in its conjunction. -/
theorem joined_iff {query : Query} {before after : List (List Term)} {left right : List Term}
    {t u : Term} (h : query.conjunctions = before ++ (left ++ t :: right) :: after) :
    query.Joined (before.flatten ++ left) t u ↔ right.head? = some u := by
  constructor
  · rintro ⟨before', left', right', after', h', hplace⟩
    have heq := eq_of_same_place (by simp) (by simp) (h.symm.trans h') hplace.symm
    rw [(List.cons.inj heq).2]
    rfl
  · intro hhead
    obtain ⟨rest, rfl⟩ := List.head?_eq_some_iff.mp hhead
    exact ⟨before, left, rest, after, h, rfl⟩

/-- Two terms with keywords between them are joined exactly if no `OR` is among these. -/
theorem joined_ofTokens_iff {before between after : List Token} {t u : Term}
    (hbetween : ∀ token ∈ between, token.term? = none) :
    (ofTokens (before ++ .term t :: (between ++ .term u :: after))).Joined
      (before.filterMap Token.term?) t u ↔ .or ∉ between := by
  -- the first group behind `t` begins with `u` or is empty
  obtain ⟨first, rest, hrest⟩ :=
    List.exists_cons_of_ne_nil (groupsOf_ne_nil (between ++ .term u :: after))
  have hfirst : first.head? = some u ↔ .or ∉ between := by
    have hkeywords := groupsOf_keywords_append hbetween (.term u :: after)
    split at hkeywords
    · next hor =>
      obtain ⟨groups, hgroups⟩ := hkeywords
      obtain ⟨rfl, -⟩ := List.cons.inj (hrest.symm.trans hgroups)
      simp [hor]
    · next hor =>
      obtain ⟨group, groups, hafter⟩ := List.exists_cons_of_ne_nil (groupsOf_ne_nil after)
      rw [groupsOf_term_cons hafter, hrest] at hkeywords
      obtain ⟨rfl, -⟩ := List.cons.inj hkeywords
      simp [hor]
  -- `t` stands behind the last group of the tokens before it
  obtain ⟨groups, last, _, _, hbefore, hterm, happend⟩ :=
    groupsOf_append before (.term t :: (between ++ .term u :: after))
  rw [groupsOf_term_cons hrest] at hterm
  obtain ⟨rfl, rfl⟩ := List.cons.inj hterm
  have hpassed : before.filterMap Token.term? =
      (groups.filter (!·.isEmpty)).flatten ++ last := by
    rw [← flatten_groupsOf, hbefore, List.flatten_filter_not_isEmpty]
    simp
  rw [hpassed, ← hfirst]
  apply joined_iff
  rw [conjunctions_ofTokens, filledGroups, happend, List.filter_append,
    List.filter_cons_of_pos (by simp)]

/-- The query of tokens is canonical. -/
theorem isCanonical_ofTokens (tokens : List Token) : (ofTokens tokens).IsCanonical :=
  isCanonical_ofGroups ne_nil_of_mem_filledGroups

/-- The alternatives of the query of tokens are the queries of the groups that are kept. -/
theorem alternatives_ofTokens (tokens : List Token) :
    (ofTokens tokens).alternatives = (filledGroups tokens).map ofGroup :=
  alternatives_ofGroups ne_nil_of_mem_filledGroups

/-- The query of any text is canonical. Its terms are those of the tokens of the text, each of which
is written with a character at least, and two terms side by side are in one conjunction exactly if
no `OR` stands between them. -/
theorem parse_canonical (text : String) :
    (∀ lexeme ∈ lexemes text.toList, lexeme.text ≠ []) ∧
      (parse text).IsCanonical ∧
      (parse text).terms = (tokensOf text.toList).filterMap Token.term? ∧
      ∀ before t between u after,
        tokensOf text.toList = before ++ .term t :: (between ++ .term u :: after) →
        (∀ token ∈ between, token.term? = none) →
        ((parse text).Joined (before.filterMap Token.term?) t u ↔ .or ∉ between) := by
  refine ⟨fun lexeme => text_ne_nil_of_mem_lexemes, ?_, ?_, ?_⟩
  · rw [parse_eq, ofTokens_eq]
    exact isCanonical_ofGroups ne_nil_of_mem_filledGroups
  · rw [parse_eq, terms_ofTokens]
  · intro before t between u after htokens hbetween
    rw [parse_eq, htokens]
    exact joined_ofTokens_iff hbetween

/-- Stray keywords part two terms only where an `OR` is among them. -/
theorem parse_canonical_strayKeywords :
    let text := "OR a AND \"b  c\" OR AND OR -d"
    let first : Term := { text := "a" }
    let second : Term := { text := "b c", isPhrase := true }
    let third : Term := { text := "d", negated := true }
    tokensOf text.toList =
        [.or, .term first, .and, .term second, .or, .and, .or, .term third] ∧
      (parse text).Joined [] first second ∧ ¬ (parse text).Joined [first] second third := by
  intro text first second third
  have htokens : tokensOf text.toList =
      [.or, .term first, .and, .term second, .or, .and, .or, .term third] := by decide
  obtain ⟨-, -, -, hjoined⟩ := parse_canonical text
  refine ⟨htokens, ?_, ?_⟩
  · exact (hjoined [.or] first [.and] second [.or, .and, .or, .term third] htokens
      (by decide)).mpr (by decide)
  · intro hor
    exact (hjoined [.or, .term first, .and] second [.or, .and, .or] third [] htokens
      (by decide)).mp hor (by decide)

/-! ## Texts put together -/

variable {s : String}

/-- The tokens of two texts with a keyword and spaces between them. -/
private theorem tokensOf_keyword_between (hs : '"' ∉ s.toList) {keyword : String} {token : Token}
    (hkeyword : '"' ∉ keyword.toList) (htoken : tokensOf keyword.toList = [token]) (t : String) :
    tokensOf (s ++ (" " ++ keyword ++ " ") ++ t).toList =
      tokensOf s.toList ++ token :: tokensOf t.toList := by
  have hspace : Text.isBlank ' ' = true := by decide
  have hsplit : (s ++ (" " ++ keyword ++ " ") ++ t).toList =
      s.toList ++ ' ' :: (keyword.toList ++ ' ' :: t.toList) := by simp
  rw [hsplit, tokensOf_append_cons hs hspace, tokensOf_append_cons hkeyword hspace, htoken]
  rfl

/-- The tokens of two texts with blank characters between them. -/
private theorem tokensOf_blanks_between (hs : '"' ∉ s.toList) {w : String} (hne : w ≠ "")
    (hw : ∀ c ∈ w.toList, Text.isBlank c = true) (t : String) :
    tokensOf (s ++ w ++ t).toList = tokensOf s.toList ++ tokensOf t.toList := by
  rw [String.toList_append, String.toList_append, List.append_assoc]
  cases hlist : w.toList with
  | nil => exact absurd (String.toList_inj.mp hlist) hne
  | cons c rest =>
    rw [hlist, List.forall_mem_cons] at hw
    rw [List.cons_append, tokensOf_append_cons hs hw.1, tokensOf_blanks_append hw.2]

/-- Alternatives are put together by the keyword `OR` between their texts, and what has to match
together by the keyword `AND` as well as by blank characters, whatever keywords stand astray at the
ends of the texts. -/
theorem parse_append (hs : '"' ∉ s.toList) (t : String) :
    (parse (s ++ " OR " ++ t)).alternatives = (parse s).alternatives ++ (parse t).alternatives ∧
      ∀ w : String, w ≠ "" → (∀ c ∈ w.toList, Text.isBlank c = true) →
        parse (s ++ " AND " ++ t) = parse (s ++ w ++ t) := by
  constructor
  · have htokens := @tokensOf_keyword_between s hs "OR" .or (by decide) rfl t
    have hor : " " ++ "OR" ++ " " = " OR " := by decide
    rw [hor] at htokens
    simp only [parse_eq, alternatives_ofTokens, filledGroups, htokens, groupsOf_append_or,
      List.filter_append, List.map_append]
  · intro w hne hw
    have htokens := @tokensOf_keyword_between s hs "AND" .and (by decide) rfl t
    have hand : " " ++ "AND" ++ " " = " AND " := by decide
    rw [hand] at htokens
    simp only [parse_eq, ofTokens, htokens, tokensOf_blanks_between hs hne hw, groupsOf_append_and]

/-- A text that ends in keywords, and one that begins with them and opens a phrase that it does not
close. -/
theorem parse_append_strayKeywords :
    let s := "title:a -b AND OR"
    let t := "OR AND \"c d"
    let titled : Term := { field := some .title, text := "a" }
    let negated : Term := { text := "b", negated := true }
    '"' ∉ s.toList ∧
      (parse (s ++ " OR " ++ t)).alternatives =
        [.all [.term titled, .term negated],
          .all [.term { text := "\"c" }, .term { text := "d" }]] ∧
      parse (s ++ " AND " ++ t) = parse (s ++ "\t\n" ++ t) := by
  intro s t titled negated
  have hs : '"' ∉ s.toList := by decide
  have hleft : tokensOf s.toList = [.term titled, .term negated, .and, .or] := by decide
  have hright : tokensOf t.toList =
      [.or, .and, .term { text := "\"c" }, .term { text := "d" }] := by decide
  obtain ⟨hor, hand⟩ := parse_append hs t
  refine ⟨hs, ?_, hand "\t\n" (by decide) (by simp [Text.isBlank])⟩
  rw [hor, parse_eq, parse_eq, hleft, hright]
  rfl

end Query

end Curation
