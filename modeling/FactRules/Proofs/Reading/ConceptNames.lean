import FactRules.Proofs.Text.CamelCase
import FactRules.Reading.Concept

/-!
# Which names are read as concepts

A name is brought to capitals and snake case, and then it has to be the name of a concept. Word
boundaries are marked before the case is dropped, so a mixture of capitals and small letters is read
exactly if it shows no boundaries within words (`Concept.names_read`); the camel-case name shows the
boundaries that the underscores show otherwise.
-/

namespace FactRules.Concept

variable {concept : Concept}

/-- The name of a concept in camel case. -/
def camelName (concept : Concept) : String :=
  String.ofList (Text.camelCase (Text.pieces '_' concept.name.toList))

/-- The names of concepts are ASCII. -/
theorem name_ascii (concept : Concept) : ∀ c ∈ concept.name.toList, c.toNat < 0x80 := by
  have hall : (concept.name.toList.all fun c => decide (c.toNat < 0x80)) = true := by
    cases concept <;> decide
  exact fun c hc => of_decide_eq_true (List.all_eq_true.1 hall c hc)

/-- They are in capitals. -/
theorem name_capitals (concept : Concept) :
    concept.name.toList.map Char.toUpper = concept.name.toList := by
  cases concept <;> decide

/-- A name consists of words of two letters or more. -/
theorem name_words (concept : Concept) : ∀ word ∈ Text.pieces '_' concept.name.toList,
    Text.IsNameWord Char.isUpper (Text.titled word) := by
  cases concept <;> decide

/-- A concept has one name, and no other text names it. -/
theorem ofName?_eq_some_iff {name : String} :
    ofName? name = some concept ↔ name = concept.name := by
  constructor
  · intro h
    have hname := List.find?_some h
    exact (of_decide_eq_true hname).symm
  · rintro rfl
    exact ofName?_name concept

/-- A text is read as a concept if its capital form is the name. -/
theorem ofValue_eq_ok_iff {name : String} :
    ofValue (.str name) = .ok concept ↔ capitalName? name.toList = some concept.name := by
  have hread : (capitalName? name.toList).bind ofName? = some concept ↔
      capitalName? name.toList = some concept.name := by
    simp only [Option.bind_eq_some_iff, ofName?_eq_some_iff, exists_eq_right]
  rw [ofValue, ← hread]
  cases (capitalName? name.toList).bind ofName? with
  | none => exact iff_of_false nofun nofun
  | some other => rw [Except.ok.injEq, Option.some.injEq]

variable {name : List Char}

/-- A snake-case form that is ASCII has a capital form. -/
theorem capitalName?_of_snakeCase_ascii (h : ∀ c ∈ Text.snakeCase name, c.toNat < 0x80) :
    capitalName? name = some (String.ofList ((Text.snakeCase name).map Char.toUpper)) := by
  rw [capitalName?, Text.mapM_upperAscii? h, Option.map_some, ← List.flatMap_def,
    ← List.map_eq_flatMap]

/-- Changing to upper case undoes a change to lower case, for the letters of names. -/
theorem map_toUpper_map_toLower (name : List Char) :
    (name.map Char.toLower).map Char.toUpper = name.map Char.toUpper := by
  rw [List.map_map]
  exact List.map_congr_left fun c _ => Text.toUpper_toLower c

/-- The capital form of an ASCII name is the marked name in capitals. -/
theorem capitalName?_of_ascii (h : ∀ c ∈ name, c.toNat < 0x80) :
    capitalName? name = some (String.ofList
      ((Text.markCapitals (Text.markTitles false name)).map Char.toUpper)) := by
  have hsnake := Text.snakeCase_of_ascii h
  have hmarked := (Text.underscored_marks name).ascii h
  rw [capitalName?_of_snakeCase_ascii (hsnake ▸ Text.ascii_map_toLower hmarked), hsnake,
    map_toUpper_map_toLower]

/-- An ASCII name is read as a concept if it is the name when marked and in capitals. -/
theorem ofValue_eq_ok_iff_of_ascii {name : String} (h : ∀ c ∈ name.toList, c.toNat < 0x80) :
    ofValue (.str name) = .ok concept ↔
      (Text.markCapitals (Text.markTitles false name.toList)).map Char.toUpper =
        concept.name.toList := by
  rw [ofValue_eq_ok_iff, capitalName?_of_ascii h, Option.some.injEq, ← String.toList_inj,
    String.toList_ofList]

/-- What differs from an ASCII text in case only is an ASCII text. -/
theorem ascii_of_map_toLower_eq {other : List Char}
    (h : name.map Char.toLower = other.map Char.toLower) (hother : ∀ c ∈ other, c.toNat < 0x80) :
    ∀ c ∈ name, c.toNat < 0x80 := by
  intro c hc
  by_contra hnot
  have hmem : c.toLower ∈ other.map Char.toLower := h ▸ List.mem_map_of_mem hc
  obtain ⟨letter, hletter, hlower⟩ := List.mem_map.1 hmem
  rw [Text.toLower_of_not_ascii hnot] at hlower
  exact hnot (hlower ▸ (Text.isCased_of_ascii (hother letter hletter)).lower_ascii)

/-- A mixture of cases of the name is read as the concept if it is evenly cased. -/
theorem ofValue_eq_ok_iff_evenlyCased {name : String}
    (h : name.toList.map Char.toLower = concept.name.toList.map Char.toLower) :
    ofValue (.str name) = .ok concept ↔ Text.EvenlyCased name.toList := by
  have hascii := ascii_of_map_toLower_eq h concept.name_ascii
  have hline : '\n' ∉ name.toList := by
    intro hmem
    have hlower : '\n' ∈ concept.name.toList.map Char.toLower := h ▸ List.mem_map_of_mem hmem
    revert hlower
    cases concept <;> decide
  rw [ofValue_eq_ok_iff_of_ascii hascii, ← Text.marks_eq_self_iff hline]
  constructor
  · intro hmarks
    -- The marked name is as long as the name of the concept, so nothing was marked.
    refine (Text.underscored_marks name.toList).eq_of_length_le (Nat.le_of_eq ?_)
    calc (Text.markCapitals (Text.markTitles false name.toList)).length
      _ = concept.name.toList.length := by rw [← hmarks, List.length_map]
      _ = (name.toList.map Char.toLower).length := by rw [h, List.length_map]
      _ = name.toList.length := List.length_map _
  · intro hmarks
    calc (Text.markCapitals (Text.markTitles false name.toList)).map Char.toUpper
      _ = (name.toList.map Char.toLower).map Char.toUpper := by
        rw [hmarks, map_toUpper_map_toLower]
      _ = concept.name.toList := by
        rw [h, map_toUpper_map_toLower, concept.name_capitals]

/-- The camel-case name is read as the concept. -/
theorem ofValue_camelName (concept : Concept) :
    ofValue (.str concept.camelName) = .ok concept := by
  have hsnake : Text.snakeCase concept.camelName.toList =
      concept.name.toList.map Char.toLower := by
    rw [camelName, String.toList_ofList, Text.snakeCase_camelCase concept.name_words,
      Text.intercalate_pieces]
  rw [ofValue_eq_ok_iff, capitalName?_of_snakeCase_ascii, hsnake, map_toUpper_map_toLower,
    concept.name_capitals, String.ofList_toList]
  rw [hsnake]
  exact Text.ascii_map_toLower concept.name_ascii

/-- What is read as a concept has its letters. -/
theorem withoutUnderscores_of_ofValue {name : String} (hascii : ∀ c ∈ name.toList, c.toNat < 0x80)
    (h : ofValue (.str name) = .ok concept) :
    (Text.withoutUnderscores name.toList).map Char.toLower =
      (Text.withoutUnderscores concept.name.toList).map Char.toLower := by
  have hmarks := Text.underscored_marks name.toList
  rw [ofValue_eq_ok_iff_of_ascii hascii] at h
  rw [← h, Text.withoutUnderscores_map_toUpper, hmarks.withoutUnderscores_eq, List.map_map]
  exact List.map_congr_left fun c _ => (Text.toLower_toUpper c).symm

/-- Names that are read as a concept. A name that is the concept's but for the case of its letters
is read as the concept exactly if letters side by side have the same case, the first letter apart.
So is the camel-case name. Whatever ASCII text is read as the concept has the letters of its name,
in this order. -/
theorem names_read (concept : Concept) :
    (∀ name : String,
      name.toList.map Char.toLower = concept.name.toList.map Char.toLower →
        (ofValue (.str name) = .ok concept ↔ Text.EvenlyCased name.toList)) ∧
      ofValue (.str concept.camelName) = .ok concept ∧
      ∀ name : String, (∀ c ∈ name.toList, c.toNat < 0x80) →
        ofValue (.str name) = .ok concept →
          (Text.withoutUnderscores name.toList).map Char.toLower =
            (Text.withoutUnderscores concept.name.toList).map Char.toLower := by
  refine ⟨fun name hcase => ?_, ofValue_camelName concept, fun name hascii hread => ?_⟩
  · exact ofValue_eq_ok_iff_evenlyCased hcase
  · exact withoutUnderscores_of_ofValue hascii hread

/-- A word in capitals beside one in small letters is evenly cased. -/
theorem think_IDLE_read :
    "think_IDLE".toList.map Char.toLower = thinkIdle.name.toList.map Char.toLower ∧
      ofValue (.str "think_IDLE") = .ok thinkIdle := by
  have hcase : "think_IDLE".toList.map Char.toLower = thinkIdle.name.toList.map Char.toLower := by
    decide
  exact ⟨hcase, ((names_read thinkIdle).1 "think_IDLE" hcase).2 (by decide)⟩

/-- Before a capital with small letters a boundary is marked, and the underscore that is there
already is one too many. -/
theorem think_Idle_refused :
    "Think_Idle".toList.map Char.toLower = thinkIdle.name.toList.map Char.toLower ∧
      ofValue (.str "Think_Idle") = .error (.unknown "Think_Idle") := by
  have hunknown : (capitalName? "Think_Idle".toList).bind ofName? = none := by decide +kernel
  refine ⟨by decide, ?_⟩
  rw [ofValue, hunknown]

end FactRules.Concept
