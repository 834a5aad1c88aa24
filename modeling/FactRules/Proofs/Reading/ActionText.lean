import FactRules.Proofs.Binary.Order
import FactRules.Proofs.Reading.Success
import FactRules.Proofs.Text.Spacing
import FactRules.Reading.Action

/-!
# What actions are written as

`Action.Written` says how an action may be written: which words stand where, with which blanks
between them, and how the choices of a text are separated. `Action.ofText_iff_written` says that a
text is read as an action exactly if it is written from the action, so reading undoes writing, and
what is read was written in one of these ways.

The choices are cut twice, first off the name of the action and then at the commas. Blanks before
the first choice belong to either cut; that it does not matter to which is `Lists.blanks_append`.
-/

namespace FactRules.Action

open Text (IsBlanks IsGap IsWord IsBreak IsTrimmed)

/-! ## How actions are written -/

/-- A choice is not empty, neither begins nor ends with a blank, and has no comma. -/
structure IsChoice (text : List Char) : Prop where
  trimmed : IsTrimmed text
  plain : ',' ∉ text

/-- What is offered between two commas: a choice with blanks around it, or nothing but blanks. -/
inductive Offers : List Char → List (List Char) → Prop
  | blank {text} (hblanks : IsBlanks text) : Offers text []
  | choice {before choice after} (hbefore : IsBlanks before) (hchoice : IsChoice choice)
      (hafter : IsBlanks after) : Offers (before ++ choice ++ after) [choice]

/-- A text lists choices, separated by commas; in between there may be nothing but blanks. -/
inductive Lists : List Char → List (List Char) → Prop
  | last {piece choices} (hpiece : Offers piece choices) : Lists piece choices
  | cons {piece choices rest others} (hpiece : Offers piece choices) (hrest : Lists rest others) :
      Lists (piece ++ ',' :: rest) (choices ++ others)

/-- A text is written from an action: the name of a text and its choices, or the name of a scope, a
key and, if the fact expires, a numeral for the seconds. -/
inductive Written : List Char → Action → Prop
  | randomText {before gap body choices} (hbefore : IsBlanks before) (hgap : IsGap gap)
      (hlists : Lists body choices) (hsome : choices ≠ []) :
      Written (before ++ randomTextName ++ gap ++ body) (.randomText (choices.map String.ofList))
  | lasting {before gap key after} (scope : Scope) (hbefore : IsBlanks before) (hgap : IsGap gap)
      (hkey : IsWord key) (hafter : IsBlanks after) :
      Written (before ++ scopeName scope ++ gap ++ key ++ after)
        (.addFact scope (String.ofList key) (.ofInt 1) none)
  | expiring {before gap key space ttl after seconds} (scope : Scope) (hbefore : IsBlanks before)
      (hgap : IsGap gap) (hkey : IsWord key) (hspace : IsGap space) (httl : IsWord ttl)
      (hafter : IsBlanks after) (hread : Numeral.read? ttl = some seconds)
      (hnumber : seconds.isNan = false) (hnegative : seconds.lt .zero = false) :
      Written (before ++ scopeName scope ++ gap ++ key ++ space ++ ttl ++ after)
        (.addFact scope (String.ofList key) (.ofInt 1) (some seconds))

/-- What an action that is written is like: there are choices, and each is one; a fact has a word as
its key and the value one, and its time to live is a number that is not negative. -/
def IsProper : Action → Prop
  | .randomText choices => choices ≠ [] ∧ ∀ choice ∈ choices, IsChoice choice.toList
  | .addFact _ key value ttl => IsWord key.toList ∧ value = .ofInt 1 ∧
      ∀ seconds ∈ ttl, seconds.isNan = false ∧ seconds.lt .zero = false

/-! ## Choices -/

variable {front piece body text : List Char} {choices : List (List Char)}

/-- A comma is not blank. -/
theorem comma_not_mem_blanks (h : IsBlanks text) : ',' ∉ text := by
  intro hmem
  have hcomma : Text.isBlank ',' = false := by decide
  rw [h ',' hmem] at hcomma
  cases hcomma

/-- What is offered between two commas has no comma itself. -/
theorem Offers.comma_not_mem (h : Offers piece choices) : ',' ∉ piece := by
  cases h with
  | blank hblanks => exact comma_not_mem_blanks hblanks
  | choice hbefore hchoice hafter =>
    rw [List.mem_append, List.mem_append, not_or, not_or]
    exact ⟨⟨comma_not_mem_blanks hbefore, hchoice.plain⟩, comma_not_mem_blanks hafter⟩

/-- A text without commas is one piece. -/
theorem choicesOf_of_not_mem (h : ',' ∉ piece) :
    choicesOf piece = [Text.trim piece].filter (!·.isEmpty) := by
  rw [choicesOf, Text.pieces_of_not_mem h]
  rfl

/-- The choices of a text are those before and those after its first comma. -/
theorem choicesOf_append_cons (h : ',' ∉ piece) (rest : List Char) :
    choicesOf (piece ++ ',' :: rest) = choicesOf piece ++ choicesOf rest := by
  rw [choicesOf_of_not_mem h, choicesOf, Text.pieces_append_cons h, List.map_cons,
    ← List.singleton_append, List.filter_append, choicesOf]

/-- The reader finds the choice that is offered, and none among blanks. -/
theorem Offers.choicesOf_eq (h : Offers piece choices) : choicesOf piece = choices := by
  rw [choicesOf_of_not_mem h.comma_not_mem]
  cases h with
  | blank hblanks => rw [Text.trim_blanks hblanks]; rfl
  | choice hbefore hchoice hafter =>
    rw [Text.trim_around hbefore hchoice.trimmed hafter]
    exact List.filter_eq_self.2 (by simp [hchoice.trimmed.ne_nil])

/-- A text without commas offers what it is read as. -/
theorem offers_choicesOf (h : ',' ∉ piece) : Offers piece (choicesOf piece) := by
  obtain ⟨before, after, hbefore, hafter, hpiece⟩ := Text.exists_around_trim piece
  rw [choicesOf_of_not_mem h]
  by_cases hnil : Text.trim piece = []
  · rw [hnil]
    rw [hnil, List.append_nil] at hpiece
    rw [hpiece]
    exact .blank (hbefore.append hafter)
  · have hplain : ',' ∉ Text.trim piece := by
      intro hmem
      refine h ?_
      rw [hpiece]
      exact List.mem_append_left _ (List.mem_append_right _ hmem)
    have hfilter : [Text.trim piece].filter (!·.isEmpty) = [Text.trim piece] :=
      List.filter_eq_self.2 (by simp [hnil])
    rw [hfilter]
    have hchoice := Offers.choice hbefore ⟨Text.isTrimmed_trim hnil, hplain⟩ hafter
    rwa [← hpiece] at hchoice

/-- A text lists what it is read as. -/
theorem lists_choicesOf (body : List Char) : Lists body (choicesOf body) := by
  by_cases hcomma : ',' ∈ body
  · obtain ⟨piece, rest, hbody, hpiece⟩ := List.eq_append_cons_of_mem hcomma
    have hshorter : rest.length < body.length := by
      rw [hbody, List.length_append, List.length_cons]
      omega
    rw [hbody, choicesOf_append_cons hpiece]
    exact .cons (offers_choicesOf hpiece) (lists_choicesOf rest)
  · exact .last (offers_choicesOf hcomma)
termination_by body.length

/-- A text lists exactly what it is read as. -/
theorem lists_iff : Lists body choices ↔ choicesOf body = choices := by
  constructor
  · intro hlists
    induction hlists with
    | last hpiece => exact hpiece.choicesOf_eq
    | cons hpiece _ ih => rw [choicesOf_append_cons hpiece.comma_not_mem, hpiece.choicesOf_eq, ih]
  · rintro rfl
    exact lists_choicesOf body

/-- More blanks in front offer the same. -/
theorem Offers.blanks_append (h : Offers piece choices) (hfront : IsBlanks front) :
    Offers (front ++ piece) choices := by
  cases h with
  | blank hblanks => exact .blank (hfront.append hblanks)
  | choice hbefore hchoice hafter =>
    rw [← List.append_assoc, ← List.append_assoc]
    exact .choice (hfront.append hbefore) hchoice hafter

/-- Blanks before the first choice make no difference. -/
theorem Lists.blanks_append (h : Lists body choices) (hfront : IsBlanks front) :
    Lists (front ++ body) choices := by
  cases h with
  | last hpiece => exact .last (hpiece.blanks_append hfront)
  | cons hpiece hrest =>
    rw [← List.append_assoc]
    exact .cons (hpiece.blanks_append hfront) hrest

/-- So the choices are read as if the text began with the first of them. -/
theorem choicesOf_dropWhile (text : List Char) :
    choicesOf (text.dropWhile Text.isBlank) = choicesOf text := by
  have hlists := (lists_choicesOf (text.dropWhile Text.isBlank)).blanks_append
    (Text.isBlanks_takeWhile text)
  rw [List.takeWhile_append_dropWhile] at hlists
  exact (lists_iff.1 hlists).symm

/-- What is listed are choices. -/
theorem Lists.isChoice (h : Lists body choices) : ∀ choice ∈ choices, IsChoice choice := by
  have hoffers : ∀ {piece choices}, Offers piece choices → ∀ choice ∈ choices, IsChoice choice := by
    intro piece choices hpiece
    cases hpiece with
    | blank hblanks => exact List.forall_mem_nil _
    | choice hbefore hchoice hafter => exact List.forall_mem_singleton.2 hchoice
  induction h with
  | last hpiece => exact hoffers hpiece
  | cons hpiece _ ih => exact List.forall_mem_append.2 ⟨hoffers hpiece, ih⟩

/-! ## Facts -/

/-- The name of a random text is a word. -/
theorem isWord_randomTextName : IsWord randomTextName :=
  ⟨by decide, Text.no_blank_of_any (by decide)⟩

/-- So is the name of either scope. -/
theorem isWord_scopeName (scope : Scope) : IsWord (scopeName scope) := by
  cases scope with
  | everyone => exact ⟨by decide, Text.no_blank_of_any (by decide)⟩
  | agent => exact ⟨by decide, Text.no_blank_of_any (by decide)⟩

/-- A fact is read from its key alone, or from its key and a numeral for the seconds. -/
theorem factOf_eq_ok_iff {scope : Scope} {terms : List (List Char)} {action : Action} :
    factOf scope text terms = .ok action ↔
      (∃ key, terms = [key] ∧ .addFact scope (String.ofList key) (.ofInt 1) none = action) ∨
      ∃ key ttl seconds, terms = [key, ttl] ∧ Numeral.read? ttl = some seconds ∧
        seconds.isNan = false ∧ seconds.lt .zero = false ∧
        .addFact scope (String.ofList key) (.ofInt 1) (some seconds) = action := by
  have hzero : (Binary.zero : Double).isNan = false := rfl
  constructor
  · intro hread
    rw [factOf.eq_def] at hread
    split at hread
    · next key =>
      cases hread
      exact .inl ⟨key, rfl, rfl⟩
    · next key ttl =>
      split at hread
      · next seconds hseconds =>
        split at hread
        · next hle =>
          cases hread
          obtain ⟨hnumber, hnegative⟩ := (Binary.le_iff_lt_eq_false hzero).1 hle
          exact .inr ⟨key, ttl, seconds, rfl, hseconds, hnumber, hnegative, rfl⟩
        · cases hread
      · cases hread
    · cases hread
  · rintro (⟨key, rfl, rfl⟩ | ⟨key, ttl, seconds, rfl, hseconds, hnumber, hnegative, rfl⟩)
    · rfl
    · have hle := (Binary.le_iff_lt_eq_false hzero).2 ⟨hnumber, hnegative⟩
      rw [factOf, hseconds]
      exact if_pos hle

/-- What begins with the name of a scope is read as a fact. -/
theorem ofText_of_scopeName {scope : Scope} {terms : List (List Char)}
    (h : Text.words text = scopeName scope :: terms) : ofText text = factOf scope text terms := by
  rw [ofText, h]
  cases scope with
  | everyone =>
    have hname : scopeName .everyone ≠ randomTextName := by decide
    simp only [if_neg hname, if_pos]
  | agent =>
    have hname : scopeName .agent ≠ randomTextName := by decide
    have hother : scopeName .agent ≠ scopeName .everyone := by decide
    simp only [if_neg hname, if_neg hother, if_pos]

/-- What begins with the name of a text is read as the choices that come after it. -/
theorem ofText_of_randomTextName {terms : List (List Char)} {action : Action}
    (h : Text.words text = randomTextName :: terms) :
    ofText text = .ok action ↔ choicesOf (Text.afterFirstWord text) ≠ [] ∧
      .randomText ((choicesOf (Text.afterFirstWord text)).map String.ofList) = action := by
  rw [ofText, h]
  simp only [if_pos]
  cases choicesOf (Text.afterFirstWord text) with
  | nil => simp
  | cons choice others => simp

/-- What is read begins with one of the names of actions. -/
theorem exists_name_of_ofText {action : Action} (h : ofText text = .ok action) :
    ∃ name terms, Text.words text = name :: terms ∧
      (name = randomTextName ∨ ∃ scope, name = scopeName scope) := by
  rw [ofText] at h
  split at h
  · cases h
  · next name terms hwords =>
    refine ⟨name, terms, hwords, ?_⟩
    by_cases hrandom : name = randomTextName
    · exact .inl hrandom
    · rw [if_neg hrandom] at h
      by_cases heveryone : name = scopeName .everyone
      · exact .inr ⟨.everyone, heveryone⟩
      · rw [if_neg heveryone] at h
        by_cases hagent : name = scopeName .agent
        · exact .inr ⟨.agent, hagent⟩
        · rw [if_neg hagent] at h
          cases h

/-! ## Reading undoes writing -/

variable {action : Action}

/-- What is written from an action is read as it. -/
theorem Written.ofText_eq (h : Written text action) : ofText text = .ok action := by
  cases h with
  | @randomText before gap body choices hbefore hgap hlists hsome =>
    have hwords := Text.words_eq_cons_iff.2 ⟨before, gap ++ body, hbefore, isWord_randomTextName,
      hgap.isBreak_append body, rfl, rfl⟩
    have hchoices := lists_iff.1 (hlists.blanks_append hgap.blanks)
    rw [List.append_assoc, List.append_assoc]
    rw [ofText_of_randomTextName hwords, Text.afterFirstWord_eq hbefore isWord_randomTextName
      (hgap.isBreak_append body), choicesOf_dropWhile, hchoices]
    exact ⟨hsome, rfl⟩
  | @lasting before gap key after scope hbefore hgap hkey hafter =>
    have hbreak := hgap.isBreak_append (key ++ after)
    have hterms := hbreak.words_eq_cons_iff.2 ⟨gap, after, hgap, hkey, hafter.isBreak, rfl,
      Text.words_eq_nil_iff.2 hafter⟩
    have hwords := Text.words_eq_cons_iff.2 ⟨before, gap ++ (key ++ after), hbefore,
      isWord_scopeName scope, hbreak, rfl, hterms⟩
    simp only [List.append_assoc]
    rw [ofText_of_scopeName hwords, factOf_eq_ok_iff]
    exact .inl ⟨key, rfl, rfl⟩
  | @expiring before gap key space ttl after seconds scope hbefore hgap hkey hspace httl hafter
      hread hnumber hnegative =>
    have hlast := hspace.isBreak_append (ttl ++ after)
    have hterm := hlast.words_eq_cons_iff.2 ⟨space, after, hspace, httl, hafter.isBreak, rfl,
      Text.words_eq_nil_iff.2 hafter⟩
    have hbreak := hgap.isBreak_append (key ++ (space ++ (ttl ++ after)))
    have hterms := hbreak.words_eq_cons_iff.2 ⟨gap, space ++ (ttl ++ after), hgap, hkey, hlast, rfl,
      hterm⟩
    have hwords := Text.words_eq_cons_iff.2 ⟨before, gap ++ (key ++ (space ++ (ttl ++ after))),
      hbefore, isWord_scopeName scope, hbreak, rfl, hterms⟩
    simp only [List.append_assoc]
    rw [ofText_of_scopeName hwords, factOf_eq_ok_iff]
    exact .inr ⟨key, ttl, seconds, rfl, hread, hnumber, hnegative, rfl⟩

/-- What is read as an action is written from it. -/
theorem written_of_ofText (h : ofText text = .ok action) : Written text action := by
  obtain ⟨name, terms, hwords, hname⟩ := exists_name_of_ofText h
  obtain ⟨before, rest, hbefore, hword, hrest, htext, hterms⟩ := Text.words_eq_cons_iff.1 hwords
  rcases hname with rfl | ⟨scope, rfl⟩
  · obtain ⟨hsome, rfl⟩ := (ofText_of_randomTextName hwords).1 h
    rw [htext, Text.afterFirstWord_eq hbefore hword hrest] at hsome ⊢
    have hne : rest ≠ [] := by
      rintro rfl
      exact hsome rfl
    -- The blanks that are dropped before the choices are the gap.
    have hwritten := Written.randomText hbefore (hrest.isGap_takeWhile hne)
      (lists_choicesOf (rest.dropWhile Text.isBlank)) hsome
    rwa [List.append_assoc, List.append_assoc, List.takeWhile_append_dropWhile] at hwritten
  · rw [ofText_of_scopeName hwords, factOf_eq_ok_iff] at h
    rcases h with ⟨key, rfl, rfl⟩ | ⟨key, ttl, seconds, rfl, hread, hnumber, hnegative, rfl⟩
    · obtain ⟨gap, after, hgap, hkey, _, rfl, hafter⟩ := hrest.words_eq_cons_iff.1 hterms
      rw [htext]
      have hwritten := Written.lasting scope hbefore hgap hkey (Text.words_eq_nil_iff.1 hafter)
      simpa only [List.append_assoc] using hwritten
    · obtain ⟨gap, others, hgap, hkey, hothers, rfl, hterm⟩ := hrest.words_eq_cons_iff.1 hterms
      obtain ⟨space, after, hspace, httl, _, rfl, hafter⟩ := hothers.words_eq_cons_iff.1 hterm
      rw [htext]
      have hwritten := Written.expiring scope hbefore hgap hkey hspace httl
        (Text.words_eq_nil_iff.1 hafter) hread hnumber hnegative
      simpa only [List.append_assoc] using hwritten

/-- What is written is proper. -/
theorem Written.isProper (h : Written text action) : action.IsProper := by
  cases h with
  | randomText hbefore hgap hlists hsome =>
    refine ⟨fun hnil => hsome (List.map_eq_nil_iff.1 hnil), fun choice hmem => ?_⟩
    obtain ⟨letters, hletters, rfl⟩ := List.mem_map.1 hmem
    rw [String.toList_ofList]
    exact hlists.isChoice letters hletters
  | lasting scope hbefore hgap hkey hafter =>
    rw [IsProper, String.toList_ofList]
    exact ⟨hkey, rfl, nofun⟩
  | expiring scope hbefore hgap hkey hspace httl hafter hread hnumber hnegative =>
    rw [IsProper, String.toList_ofList]
    refine ⟨hkey, rfl, fun other hother => ?_⟩
    cases hother
    exact ⟨hnumber, hnegative⟩

/-- A text is read as an action exactly if it is written from it. So whatever is read is proper:
there are choices, none of which is blank, begins or ends with a blank or has a comma, or there is a
key without blanks, and the seconds, if there are any, are a number that is not negative. -/
theorem ofText_iff_written (text : List Char) :
    (∀ action, ofText text = .ok action ↔ Written text action) ∧
      ∀ action ∈ (ofText text).toOption, action.IsProper := by
  refine ⟨fun action => ⟨written_of_ofText, Written.ofText_eq⟩, fun action hread => ?_⟩
  exact (written_of_ofText (toOption_eq_some_iff.1 hread)).isProper

/-- Blanks and blank choices are left out, but not blanks within a choice. -/
example : (ofText " RandomText ,a b ,, c, ".toList).toOption = some (.randomText ["a b", "c"]) := by
  decide +kernel

/-- A negative zero and infinity are seconds. -/
example :
    (ofText "AddGlobalFact night -0.0".toList).toOption =
        some (.addFact .everyone "night" (.ofInt 1) (some (.ofRank true 0))) ∧
      (ofText "AddEntityFact\tawake  inf ".toList).toOption =
        some (.addFact .agent "awake" (.ofInt 1) (some (.infinity false))) := by
  decide +kernel

end FactRules.Action
