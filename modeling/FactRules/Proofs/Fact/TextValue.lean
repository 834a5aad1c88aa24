import FactRules.Proofs.Rule.Criteria
import FactRules.Proofs.Text.LowerCase
import FactRules.Reading.Criterion

/-!
# Texts that differ in blanks

A text is hashed in lower case and without blanks. The letters are lowered first, so a blank still
counts where it ends a word after a capital sigma: `sigma_beside_blank` has two texts that differ in
a blank only and stand for different values. `textValue_of_finals` says that this is the only way:
texts that differ in blanks are hashed as the same text exactly if their capital sigmas are final in
the same places, and then a fact written from one of them meets a criterion written with the other.
-/

namespace FactRules

/-- What is hashed of a text: the text without its blanks in lower case, with the sigmas told by the
text as it is. -/
theorem foldedText_eq (text : List Char) :
    foldedText text = Text.lowerAs (Text.finals text) (Text.withoutBlanks text) := by
  rw [foldedText, Text.flatten_words, Text.withoutBlanks_lower]

namespace Criterion

/-- A key, an equals sign and a text that is no number ask for the value of the text. -/
theorem ofText_equals {key literal : List Char} (hkey : key ≠ [])
    (hkeyToken : ∀ c ∈ key, Text.isBlank c = false) (hliteral : literal ≠ [])
    (hliteralToken : ∀ c ∈ literal, Text.isBlank c = false)
    (hnumber : Numeral.read? literal = none) :
    ofText (key ++ [' ', '=', ' '] ++ literal) =
      .ok ⟨String.ofList key, (textValue literal).toDouble, (textValue literal).toDouble⟩ := by
  have hwords : Text.words (key ++ [' ', '=', ' '] ++ literal) = [key, ['='], literal] := by
    rw [Text.words_around (by decide), Text.words_of_no_blank hkey hkeyToken,
      Text.words_of_no_blank hliteral hliteralToken]
    rfl
  rw [ofText, hwords]
  simp only [hnumber]
  rfl

/-- A criterion that asks for a value holds where the value is found first. -/
theorem holds_of_lookup? {store : FactStore} {key : String} {value : Single}
    (hvalue : value.isNan = false) (hfound : store.lookup? key = some value) (chain : Chain) :
    (Criterion.mk key value.toDouble value.toDouble).holds (store :: chain) = true := by
  rw [holds_front hfound, accepts_equal, Binary.same_self hvalue]

end Criterion

/-- Texts that differ in blanks only are hashed as the same text exactly if their capital sigmas are
final in the same places. They stand for the same value then, and a fact that is written from one of
them is accepted by the criterion that asks for the other, if this one has no blanks and is no
number, and the value is one. -/
theorem textValue_of_finals (text other : List Char)
    (h : Text.withoutBlanks text = Text.withoutBlanks other) :
    (foldedText text = foldedText other ↔ Text.finals text = Text.finals other) ∧
      (Text.finals text = Text.finals other →
        textValue text = textValue other ∧
        ∀ key : List Char, key ≠ [] → (∀ c ∈ key, Text.isBlank c = false) →
          other ≠ [] → (∀ c ∈ other, Text.isBlank c = false) → Numeral.read? other = none →
          (textValue other).isNan = false →
          ∃ criterion, Criterion.ofText (key ++ [' ', '=', ' '] ++ other) = .ok criterion ∧
            ∀ (store : FactStore) (chain : Chain),
              criterion.holds (store.addText (String.ofList key) text :: chain) = true) := by
  have hfolded : foldedText text = foldedText other ↔ Text.finals text = Text.finals other := by
    rw [foldedText_eq, foldedText_eq, ← h]
    refine ⟨Text.lowerAs_inj (Text.length_finals_eq text) ?_, fun heq => by rw [heq]⟩
    rw [Text.length_finals_eq, h]
  refine ⟨hfolded, fun hfinals => ?_⟩
  have hvalue : textValue text = textValue other := by
    rw [textValue, hfolded.2 hfinals, textValue]
  refine ⟨hvalue, fun key hkey hkeyToken hother hotherToken hnumber hnan => ?_⟩
  refine ⟨_, Criterion.ofText_equals hkey hkeyToken hother hotherToken hnumber, ?_⟩
  intro store chain
  refine Criterion.holds_of_lookup? hnan ?_ chain
  rw [FactStore.lookup?_addText, if_pos rfl, hvalue]

/-- The sigma at the end of both texts is final with and without the blank. -/
theorem finalSigma_matches :
    Text.withoutBlanks "ΤΟ ΦΩΣ".toList = Text.withoutBlanks "ΤΟΦΩΣ".toList ∧
      ∃ criterion, Criterion.ofText "word = ΤΟΦΩΣ".toList = .ok criterion ∧
        criterion.holds [FactStore.addText ∅ "word" "ΤΟ ΦΩΣ".toList] = true := by
  have hsame : Text.withoutBlanks "ΤΟ ΦΩΣ".toList = Text.withoutBlanks "ΤΟΦΩΣ".toList := by
    decide +kernel
  have hfinals : Text.finals "ΤΟ ΦΩΣ".toList = Text.finals "ΤΟΦΩΣ".toList := by decide +kernel
  have htoken {text : List Char} (h : (text.all fun c => !Text.isBlank c) = true) :
      ∀ c ∈ text, Text.isBlank c = false := by
    simpa using h
  obtain ⟨_, hmatches⟩ := (textValue_of_finals _ _ hsame).2 hfinals
  obtain ⟨criterion, hcriterion, hholds⟩ := hmatches "word".toList (by decide +kernel)
    (htoken (by decide +kernel)) (by decide +kernel) (htoken (by decide +kernel))
    (by decide +kernel) (by decide +kernel)
  exact ⟨hsame, criterion, hcriterion, hholds ∅ []⟩

/-- A blank after a capital sigma ends a word, so the sigma is final before a blank and not before a
letter. The two texts stand for different values. -/
theorem sigma_beside_blank :
    Text.withoutBlanks "ΑΣ Α".toList = Text.withoutBlanks "ΑΣΑ".toList ∧
      textValue "ΑΣ Α".toList ≠ textValue "ΑΣΑ".toList := by
  decide +kernel

end FactRules
