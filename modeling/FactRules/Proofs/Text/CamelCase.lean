import FactRules.Proofs.Text.SnakeCase
import FactRules.Proofs.Text.Spacing

/-!
# Camel case

A camel-case name is made of capitalised words, and its snake-case form joins these words by single
underscores (`snakeCase_camelCase`). The first pass goes on after the small letters of a title that
it marks, so of two titles side by side it may miss one, and it does not see a capital before a
digit; the second pass marks what is left. `PartlyJoined` is what holds between the passes.
-/

namespace FactRules.Text

variable {c : Char} {text word : List Char} {words : List (List Char)}

/-! ## Words -/

/-- A word with an initial of some class, and one small letter or digit or more after it. -/
inductive IsNameWord (isInitial : Char → Bool) : List Char → Prop where
  | mk {initial next : Char} {rest : List Char} (hinitial : isInitial initial = true)
      (hrest : ∀ c ∈ next :: rest, (c.isLower || c.isDigit) = true) :
      IsNameWord isInitial (initial :: next :: rest)

instance (isInitial : Char → Bool) : (word : List Char) → Decidable (IsNameWord isInitial word)
  | [] | [_] => .isFalse nofun
  | initial :: next :: rest =>
    decidable_of_iff (isInitial initial = true ∧
        ((next :: rest).all fun c => c.isLower || c.isDigit) = true)
      ⟨fun h => ⟨h.1, List.all_eq_true.1 h.2⟩, fun ⟨hinitial, hrest⟩ =>
        ⟨hinitial, List.all_eq_true.2 hrest⟩⟩

/-- A word with a capital at its start and small letters after it. -/
def titled : List Char → List Char
  | [] => []
  | c :: rest => c.toUpper :: rest.map Char.toLower

/-- The camel-case form of a name of these words. -/
def camelCase (words : List (List Char)) : List Char := words.flatMap titled

namespace IsNameWord

variable {isInitial : Char → Bool}

/-- A word has ASCII characters only, if its initial is one. -/
theorem ascii (h : IsNameWord isInitial word)
    (hinitial : ∀ c, isInitial c = true → c.toNat < 0x80) : ∀ c ∈ word, c.toNat < 0x80 := by
  obtain ⟨hfirst, hrest⟩ := h
  refine List.forall_mem_cons.2 ⟨hinitial _ hfirst, fun c hc => ?_⟩
  exact (Bool.or_eq_true_iff.1 (hrest c hc)).elim ascii_of_isLower ascii_of_isDigit

/-- No capital comes after the initial. -/
theorem not_isUpper_of_mem_tail (h : IsNameWord isInitial word) :
    ∀ c ∈ word.tail, c.isUpper = false := by
  obtain ⟨-, hrest⟩ := h
  exact fun c hc => not_isUpper_of_small (hrest c hc)

/-- A word in lower case has no capital at all. -/
theorem not_isUpper (h : IsNameWord Char.isLower word) : ∀ c ∈ word, c.isUpper = false := by
  obtain ⟨hinitial, hrest⟩ := h
  refine List.forall_mem_cons.2 ⟨?_, fun c hc => not_isUpper_of_small (hrest c hc)⟩
  exact not_isUpper_of_small (by rw [hinitial, Bool.true_or])

/-- A word in lower case gets a capital initial, and keeps the rest as it is. -/
theorem titled (h : IsNameWord Char.isLower word) : IsNameWord Char.isUpper (titled word) := by
  obtain @⟨initial, next, rest, hinitial, hrest⟩ := h
  rw [Text.titled, map_toLower_of_no_capital fun c hc => not_isUpper_of_small (hrest c hc)]
  exact .mk (isUpper_toUpper hinitial) hrest

/-- A word in lower case has no underscore, so one can stand between words. -/
theorem underscore_not_mem (h : IsNameWord Char.isLower word) : '_' ∉ word := by
  obtain ⟨hinitial, hrest⟩ := h
  intro hmem
  rcases List.mem_cons.1 hmem with rfl | hmem
  · exact absurd hinitial (by decide)
  · exact absurd (hrest _ hmem) (by decide)

end IsNameWord

/-! ## Between the passes -/

/-- The words of a name one after another, with an underscore between some of them. -/
inductive PartlyJoined : List (List Char) → List Char → Prop where
  | single (word : List Char) : PartlyJoined [word] word
  | joined (word : List Char) {words : List (List Char)} {text : List Char}
      (h : PartlyJoined words text) : PartlyJoined (word :: words) (word ++ '_' :: text)
  | abutting (word : List Char) {words : List (List Char)} {text : List Char}
      (h : PartlyJoined words text) : PartlyJoined (word :: words) (word ++ text)

namespace PartlyJoined

/-- What is put in front of a name belongs to its first word. -/
theorem prepend (front : List Char) (h : PartlyJoined (word :: words) text) :
    PartlyJoined ((front ++ word) :: words) (front ++ text) := by
  cases h with
  | single => exact .single _
  | joined _ h =>
    rw [← List.append_assoc]
    exact .joined _ h
  | abutting _ h =>
    rw [← List.append_assoc]
    exact .abutting _ h

/-- There is at least one word. -/
theorem ne_nil (h : PartlyJoined words text) : words ≠ [] := by
  cases h <;> exact List.cons_ne_nil _ _

/-- A name of capitalised words starts with a capital. -/
theorem exists_capital (h : PartlyJoined words text)
    (hwords : ∀ word ∈ words, IsNameWord Char.isUpper word) :
    ∃ capital rest, text = capital :: rest ∧ capital.isUpper = true := by
  cases h with
  | single | joined | abutting =>
    obtain ⟨hcapital, _⟩ := hwords _ List.mem_cons_self
    exact ⟨_, _, rfl, hcapital⟩

end PartlyJoined

/-- The first pass puts underscores between some words of a name and changes nothing else, wherever
it starts. `left` is what is left of a word before these words. -/
theorem partlyJoined_markTitles (hwords : ∀ word ∈ words, IsNameWord Char.isUpper word)
    {left : List Char} (hleft : ∀ c ∈ left.tail, c.isUpper = false) (inTitle : Bool) :
    PartlyJoined (left :: words) (markTitles inTitle (left ++ words.flatten)) := by
  induction words generalizing left inTitle with
  | nil =>
    rw [List.flatten_nil, List.append_nil, markTitles_eq_self inTitle hleft]
    exact .single left
  | cons word words ih =>
    obtain ⟨hword, hothers⟩ := List.forall_mem_cons.1 hwords
    induction left generalizing inTitle with
    | nil => exact .abutting [] (ih hothers hword.not_isUpper_of_mem_tail inTitle)
    | cons c left ihLeft =>
      rw [List.cons_append]
      rcases markTitles_cons inTitle c (left ++ (word :: words).flatten) with
        ⟨still, hpassed⟩ | ⟨capital, small, after, htext, hcapital, hmarked⟩
      · rw [hpassed]
        exact (ihLeft (fun d hd => hleft d (List.mem_of_mem_tail hd)) still).prepend [c]
      · -- A capital comes next, so nothing is left of the word before.
        cases left with
        | cons next left =>
          obtain ⟨rfl, -⟩ := List.cons.inj htext
          exact absurd hcapital (Bool.eq_false_iff.1 (hleft next List.mem_cons_self))
        | nil =>
          obtain @⟨initial, next, rest, -, hrest⟩ := hword
          simp only [List.flatten_cons, List.nil_append, List.cons_append, List.cons.injEq] at htext
          obtain ⟨rfl, rfl, rfl⟩ := htext
          have htail : ∀ c ∈ rest.tail, c.isUpper = false := fun c hc =>
            not_isUpper_of_small (hrest c (List.mem_cons_of_mem _ (List.mem_of_mem_tail hc)))
          rw [hmarked]
          exact .joined [c] ((ih hothers htail true).prepend [initial, next])

/-- The second pass leaves a word as it is if it leaves what comes after a small letter or digit
so. -/
theorem markCapitals_word {back out : List Char} (hword : IsNameWord Char.isUpper word)
    (hlast : ∀ c, (c.isLower || c.isDigit) = true → markCapitals (c :: back) = c :: out) :
    markCapitals (word ++ back) = word ++ out := by
  obtain @⟨initial, next, rest, hinitial, hrest⟩ := hword
  simp only [List.cons_append]
  rw [markCapitals_of_not_small (not_small_of_isUpper hinitial), List.cons_inj_right]
  induction rest generalizing next with
  | nil => exact hlast next (hrest next List.mem_cons_self)
  | cons c rest ih =>
    obtain ⟨-, hothers⟩ := List.forall_mem_cons.1 hrest
    have hcase := not_isUpper_of_small (hothers c List.mem_cons_self)
    rw [List.cons_append, markCapitals_of_no_boundary (by rw [hcase, Bool.and_false]), ih hothers,
      List.cons_append]

/-- The second pass puts the missing underscores between words. -/
theorem markCapitals_of_partlyJoined (h : PartlyJoined words text)
    (hwords : ∀ word ∈ words, IsNameWord Char.isUpper word) :
    markCapitals text = ['_'].intercalate words := by
  induction h with
  | single word =>
    have hword := hwords word List.mem_cons_self
    rw [List.intercalate_singleton, markCapitals_eq_self hword.not_isUpper_of_mem_tail]
  | @joined word words text h ih =>
    obtain ⟨hword, hothers⟩ := List.forall_mem_cons.1 hwords
    have hlast (c : Char) (_ : (c.isLower || c.isDigit) = true) :
        markCapitals (c :: '_' :: text) = c :: '_' :: markCapitals text := by
      rw [markCapitals_of_no_boundary (by simp), markCapitals_of_not_small (by decide)]
    rw [markCapitals_word hword hlast, ih hothers, List.intercalate_cons_of_ne_nil h.ne_nil,
      List.append_assoc]
    rfl
  | @abutting word words text h ih =>
    obtain ⟨hword, hothers⟩ := List.forall_mem_cons.1 hwords
    obtain ⟨capital, rest, rfl, hcapital⟩ := h.exists_capital hothers
    have hlast (c : Char) (hc : (c.isLower || c.isDigit) = true) :
        markCapitals (c :: capital :: rest) = c :: '_' :: markCapitals (capital :: rest) := by
      rw [markCapitals_of_boundary (by rw [hc, hcapital]; rfl),
        markCapitals_of_not_small (not_small_of_isUpper hcapital)]
    rw [markCapitals_word hword hlast, ih hothers, List.intercalate_cons_of_ne_nil h.ne_nil,
      List.append_assoc]
    rfl

/-- Both passes together mark all boundaries of a name of capitalised words. -/
theorem marks_flatten (hwords : ∀ word ∈ words, IsNameWord Char.isUpper word) :
    markCapitals (markTitles false words.flatten) = ['_'].intercalate words := by
  cases words with
  | nil => rfl
  | cons word words =>
    obtain ⟨hword, hothers⟩ := List.forall_mem_cons.1 hwords
    have hjoined := partlyJoined_markTitles hothers hword.not_isUpper_of_mem_tail false
    exact markCapitals_of_partlyJoined hjoined hwords

/-! ## Snake-case forms of camel-case names -/

/-- In lower case, a capital at the start makes no difference. -/
theorem map_toLower_titled (word : List Char) :
    (titled word).map Char.toLower = word.map Char.toLower := by
  cases word with
  | nil => rfl
  | cons c rest =>
    rw [titled, List.map_cons, toLower_toUpper, List.map_map, List.map_cons]
    exact congrArg _ (List.map_congr_left fun letter _ =>
      toLower_of_not_isUpper (not_isUpper_toLower letter))

/-- Texts that are joined by underscores are lowered one by one. -/
theorem map_toLower_intercalate : ∀ words : List (List Char),
    (['_'].intercalate words).map Char.toLower = ['_'].intercalate (words.map (·.map Char.toLower))
  | [] => rfl
  | [word] => by rw [List.map_singleton, List.intercalate_singleton, List.intercalate_singleton]
  | word :: next :: words => by
    have ih := map_toLower_intercalate (next :: words)
    rw [List.intercalate_cons_cons, List.map_append, List.map_append, ih]
    exact List.intercalate_cons_cons.symm

/-- The snake-case form of a camel-case name has its words in lower case, joined by underscores. -/
theorem snakeCase_camelCase (hwords : ∀ word ∈ words, IsNameWord Char.isUpper (titled word)) :
    snakeCase (camelCase words) = (['_'].intercalate words).map Char.toLower := by
  have htitled : ∀ word ∈ words.map titled, IsNameWord Char.isUpper word :=
    List.forall_mem_map.2 hwords
  have hascii : ∀ c ∈ camelCase words, c.toNat < 0x80 := by
    intro c hc
    obtain ⟨word, hword, hmem⟩ := List.mem_flatMap.1 hc
    exact (hwords word hword).ascii (fun _ => ascii_of_isUpper) c hmem
  rw [snakeCase_of_ascii hascii, camelCase, List.flatMap_def, marks_flatten htitled,
    map_toLower_intercalate, map_toLower_intercalate, List.map_map]
  exact congrArg _ (List.map_congr_left fun word _ => map_toLower_titled word)

/-- The words of a camel-case name are told from its snake-case form: it has them in lower case,
joined by single underscores. The snake-case form of an ASCII name, whatever it is made of, is its
own snake-case form. -/
theorem snakeCase_inverts_camelCase :
    (∀ words : List (List Char), words ≠ [] → (∀ word ∈ words, IsNameWord Char.isLower word) →
      snakeCase (camelCase words) = ['_'].intercalate words ∧
        pieces '_' (snakeCase (camelCase words)) = words) ∧
      ∀ name : List Char, (∀ c ∈ name, c.toNat < 0x80) →
        snakeCase (snakeCase name) = snakeCase name := by
  refine ⟨fun words hne hwords => ?_, fun name hascii => snakeCase_snakeCase hascii⟩
  have hlower : words.map (·.map Char.toLower) = words := by
    refine (List.map_congr_left fun word hword => ?_).trans (List.map_id words)
    exact map_toLower_of_no_capital (hwords word hword).not_isUpper
  have hsnake : snakeCase (camelCase words) = ['_'].intercalate words := by
    rw [snakeCase_camelCase fun word hword => (hwords word hword).titled, map_toLower_intercalate,
      hlower]
  refine ⟨hsnake, ?_⟩
  rw [hsnake]
  exact pieces_intercalate hne fun word hword => (hwords word hword).underscore_not_mem

/-- Of the boundaries of this name the first pass marks the first one. It misses the next one, which
comes right after the title that it has marked, and the last one, which is before a digit. Of a name
in another style the marked form is marked no more. -/
theorem goHomeNowX2y_read_back :
    (∀ word ∈ ["go", "home", "now", "x2y"].map String.toList, IsNameWord Char.isLower word) ∧
      (∀ c ∈ "Think_Idle".toList, c.toNat < 0x80) ∧
      markTitles false "GoHomeNowX2y".toList = "Go_HomeNowX2y".toList ∧
      snakeCase "GoHomeNowX2y".toList = "go_home_now_x2y".toList ∧
      pieces '_' (snakeCase "GoHomeNowX2y".toList) =
        ["go", "home", "now", "x2y"].map String.toList ∧
      snakeCase (snakeCase "Think_Idle".toList) = "think__idle".toList := by
  have hwords : ∀ word ∈ ["go", "home", "now", "x2y"].map String.toList,
      IsNameWord Char.isLower word := by decide
  have hascii : ∀ c ∈ "Think_Idle".toList, c.toNat < 0x80 := by
    have hall : ("Think_Idle".toList.all fun c => decide (c.toNat < 0x80)) = true := by decide
    exact fun c hc => of_decide_eq_true (List.all_eq_true.1 hall c hc)
  have hcamel : camelCase (["go", "home", "now", "x2y"].map String.toList) =
      "GoHomeNowX2y".toList := by decide
  obtain ⟨hsnake, hpieces⟩ := snakeCase_inverts_camelCase.1 _ (by decide) hwords
  rw [hcamel] at hsnake hpieces
  refine ⟨hwords, hascii, by decide, hsnake.trans (by decide), hpieces, ?_⟩
  exact (snakeCase_inverts_camelCase.2 _ hascii).trans (by decide)

/-- Two words of one letter are not told apart. -/
example : snakeCase (camelCase [['o', 'n'], ['a'], ['b']]) = ['o', 'n', '_', 'a', 'b'] := by decide

end FactRules.Text
