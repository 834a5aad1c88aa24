import FactRules.Fact.Hash
import Mathlib.Algebra.Group.Nat.Defs

/-!
# What the hash keeps apart

A step of the hash loses nothing: for one word it is injective in the state, and for one state in
the word (`mix_left_inj`, `mix_right_inj`). A string of bytes is taken as words (`words`), and the
hash folds the step over them. So strings that are taken as the same words but for one have
different hashes, and what two strings have in common at their ends does not matter to whether their
hashes are the same (`Hash.no_collision_within_step`).
-/

namespace FactRules.Hash

variable {state other : UInt32}

/-! ## One step -/

/-- The state with its bits rotated by five places. -/
def rotate (state : UInt32) : UInt32 := state <<< 5 ||| state >>> 27

/-- The bits above the lower 27 are five. -/
theorem upper_lt (state : UInt32) : state.toNat / 2 ^ 27 < 2 ^ 5 := by
  have hlt := state.toNat_lt
  omega

/-- The upper five bits become the lower ones. -/
theorem toNat_rotate (state : UInt32) :
    (rotate state).toNat = 2 ^ 5 * (state.toNat % 2 ^ 27) + state.toNat / 2 ^ 27 := by
  have hlower : state.toNat <<< 5 % 2 ^ 32 = 2 ^ 5 * (state.toNat % 2 ^ 27) := by
    rw [Nat.shiftLeft_eq, Nat.mul_comm]
    exact Nat.mul_mod_mul_left (2 ^ 5) state.toNat (2 ^ 27)
  calc (rotate state).toNat
    _ = state.toNat <<< 5 % 2 ^ 32 ||| state.toNat >>> 27 := rfl
    _ = 2 ^ 5 * (state.toNat % 2 ^ 27) + state.toNat / 2 ^ 27 := by
      rw [hlower, Nat.shiftRight_eq_div_pow, Nat.two_pow_add_eq_or_of_lt (upper_lt state)]

/-- No bit is lost by a rotation: the state is put together again from what was moved up and what
was moved down. -/
theorem rotate_injective : Function.Injective rotate := by
  intro state other h
  have hnat := congrArg UInt32.toNat h
  rw [toNat_rotate, toNat_rotate] at hnat
  have hupper : state.toNat / 2 ^ 27 = other.toNat / 2 ^ 27 := by
    have hmod := congrArg (· % 2 ^ 5) hnat
    simp only [Nat.mul_add_mod] at hmod
    rwa [Nat.mod_eq_of_lt (upper_lt state), Nat.mod_eq_of_lt (upper_lt other)] at hmod
  have hlower : state.toNat % 2 ^ 27 = other.toNat % 2 ^ 27 := by
    rw [hupper] at hnat
    exact Nat.eq_of_mul_eq_mul_left (Nat.two_pow_pos 5) (Nat.add_right_cancel hnat)
  rw [← UInt32.toNat_inj, ← Nat.div_add_mod state.toNat (2 ^ 27), hupper, hlower,
    Nat.div_add_mod]

/-- The multiplier is odd, so it has an inverse. -/
theorem multiply_inj {word otherWord : UInt32} :
    word * 0x9e3779b9 = otherWord * 0x9e3779b9 ↔ word = otherWord := by
  refine ⟨fun h => ?_, congrArg (· * 0x9e3779b9)⟩
  have hinverse : (0x9e3779b9 : UInt32) * 0x144cbc89 = 1 := by decide
  calc word
    _ = word * 0x9e3779b9 * 0x144cbc89 := by rw [UInt32.mul_assoc, hinverse, UInt32.mul_one]
    _ = otherWord * 0x9e3779b9 * 0x144cbc89 := by rw [h]
    _ = otherWord := by rw [UInt32.mul_assoc, hinverse, UInt32.mul_one]

theorem mix_eq (state word : UInt32) : mix state word = (rotate state ^^^ word) * 0x9e3779b9 := rfl

/-- Once mixed with one word, two states are told apart as before. -/
theorem mix_left_inj (word : UInt32) : mix state word = mix other word ↔ state = other := by
  rw [mix_eq, mix_eq, multiply_inj, UInt32.xor_left_inj, rotate_injective.eq_iff]

/-- One state mixed with two words tells the words apart. -/
theorem mix_right_inj (state : UInt32) {word otherWord : UInt32} :
    mix state word = mix state otherWord ↔ word = otherWord := by
  rw [mix_eq, mix_eq, multiply_inj, UInt32.xor_right_inj]

/-- All steps together are injective in the state as well. -/
theorem foldl_mix_inj (words : List UInt32) :
    words.foldl mix state = words.foldl mix other ↔ state = other := by
  induction words generalizing state other with
  | nil => rfl
  | cons word rest ih => rw [List.foldl_cons, List.foldl_cons, ih, mix_left_inj]

/-! ## Words -/

/-- A byte above the bits of a number. -/
theorem toNat_or_shiftLeft {lower shift : UInt32} (upper : UInt8) (hshift : shift.toNat ≤ 24)
    (hlower : lower.toNat < 2 ^ shift.toNat) :
    (lower ||| upper.toUInt32 <<< shift).toNat = 2 ^ shift.toNat * upper.toNat + lower.toNat := by
  have hfits : upper.toNat <<< shift.toNat < 2 ^ 32 := by
    calc upper.toNat <<< shift.toNat
      _ = upper.toNat * 2 ^ shift.toNat := Nat.shiftLeft_eq _ _
      _ < 2 ^ 8 * 2 ^ shift.toNat := Nat.mul_lt_mul_of_pos_right upper.toNat_lt (Nat.two_pow_pos _)
      _ = 2 ^ (8 + shift.toNat) := (Nat.pow_add _ _ _).symm
      _ ≤ 2 ^ 32 := Nat.pow_le_pow_right (by decide) (by omega)
  rw [UInt32.toNat_or, UInt32.toNat_shiftLeft, UInt8.toNat_toUInt32,
    Nat.mod_eq_of_lt (by omega : shift.toNat < 32), Nat.mod_eq_of_lt hfits, Nat.or_comm,
    Nat.shiftLeft_eq, Nat.mul_comm, Nat.two_pow_add_eq_or_of_lt hlower]

/-- A word is a sum of four bytes, each on bits of its own. -/
theorem toNat_word (a b c d : UInt8) :
    (word a b c d).toNat = a.toNat + 2 ^ 8 * b.toNat + 2 ^ 16 * c.toNat + 2 ^ 24 * d.toNat := by
  have ha := a.toNat_lt
  have hb := b.toNat_lt
  have hc := c.toNat_lt
  have htwo : (a.toUInt32 ||| b.toUInt32 <<< 8).toNat = 2 ^ 8 * b.toNat + a.toNat :=
    toNat_or_shiftLeft b (by decide) ha
  have hthree : (a.toUInt32 ||| b.toUInt32 <<< 8 ||| c.toUInt32 <<< 16).toNat =
      2 ^ 16 * c.toNat + (2 ^ 8 * b.toNat + a.toNat) := by
    have hfits : (a.toUInt32 ||| b.toUInt32 <<< 8).toNat < 2 ^ 16 := by omega
    rw [toNat_or_shiftLeft c (by decide) hfits, htwo]
    rfl
  have hfits : (a.toUInt32 ||| b.toUInt32 <<< 8 ||| c.toUInt32 <<< 16).toNat < 2 ^ 24 := by omega
  have hfour : (word a b c d).toNat =
      2 ^ 24 * d.toNat + (a.toUInt32 ||| b.toUInt32 <<< 8 ||| c.toUInt32 <<< 16).toNat :=
    toNat_or_shiftLeft d (by decide) hfits
  omega

/-- A word tells its bytes. -/
theorem eq_of_word_eq {a b c d a' b' c' d' : UInt8} (h : word a b c d = word a' b' c' d') :
    [a, b, c, d] = [a', b', c', d'] := by
  have hnat := congrArg UInt32.toNat h
  rw [toNat_word, toNat_word] at hnat
  have ha := a.toNat_lt
  have hb := b.toNat_lt
  have hc := c.toNat_lt
  have ha' := a'.toNat_lt
  have hb' := b'.toNat_lt
  have hc' := c'.toNat_lt
  obtain rfl : a = a' := UInt8.toNat_inj.1 (by omega)
  obtain rfl : b = b' := UInt8.toNat_inj.1 (by omega)
  obtain rfl : c = c' := UInt8.toNat_inj.1 (by omega)
  obtain rfl : d = d' := UInt8.toNat_inj.1 (by omega)
  rfl

/-- The words that a string of bytes is taken as: the full words, then each byte left over. -/
def words : List UInt8 → List UInt32
  | a :: b :: c :: d :: rest => word a b c d :: words rest
  | tail => tail.map UInt8.toUInt32

/-- The words of the bytes are mixed into the state one after the other, the rest byte by byte. -/
theorem absorb_eq_foldl (state : UInt32) (bytes : List UInt8) :
    absorb state bytes = (words bytes).foldl mix state := by
  fun_induction absorb state bytes with
  | case1 state a b c d rest ih => rw [words, List.foldl_cons, ih]
  | case2 state tail htail => rw [words.eq_2 tail htail, List.foldl_map]

theorem ofBytes_eq (bytes : List UInt8) : ofBytes bytes = mix ((words bytes).foldl mix 0) 0xff := by
  rw [ofBytes, absorb_eq_foldl]

/-- After full words the words of the rest are counted anew. -/
theorem words_append : ∀ {front : List UInt8} (back : List UInt8), 4 ∣ front.length →
    words (front ++ back) = words front ++ words back
  | [], _, _ => rfl
  | [_], _, h | [_, _], _, h | [_, _, _], _, h => absurd h (by simp)
  | a :: b :: c :: d :: front, back, h => by
    have hfront : 4 ∣ front.length := (Nat.dvd_add_left (Nat.dvd_refl 4)).1 h
    simp only [List.cons_append]
    rw [words, words, words_append back hfront, List.cons_append]

/-- Fewer than four bytes are words of their own. -/
theorem words_of_length_lt {tail : List UInt8} (h : tail.length < 4) :
    words tail = tail.map UInt8.toUInt32 := by
  match tail with
  | [] | [_] | [_, _] | [_, _, _] => rfl

/-- A byte after the full words is a word by itself, and so is each byte after it. -/
theorem exists_words_byte {front back : List UInt8} (h : front.length % 4 + 1 + back.length < 4) :
    ∃ before, ∀ byte, words (front ++ ([byte] ++ back)) =
      before ++ byte.toUInt32 :: back.map UInt8.toUInt32 := by
  have hsplit := List.take_append_drop (4 * (front.length / 4)) front
  generalize hfull : front.take (4 * (front.length / 4)) = full at hsplit
  generalize hleft : front.drop (4 * (front.length / 4)) = left at hsplit
  have hdvd : 4 ∣ full.length := by
    rw [← hfull, List.length_take]
    omega
  refine ⟨words full ++ left.map UInt8.toUInt32, fun byte => ?_⟩
  have htail : (left ++ ([byte] ++ back)).length < 4 := by
    rw [← hleft, List.length_append, List.length_drop, List.length_append, List.length_singleton]
    omega
  rw [← hsplit, List.append_assoc, words_append _ hdvd, words_of_length_lt htail, List.map_append,
    List.append_assoc]
  rfl

/-! ## Strings that differ within one step -/

/-- Two strings of one length that have the same bytes before `start` and from `count` bytes after
it on. -/
def AgreeOutside (start count : Nat) (bytes other : List UInt8) : Prop :=
  bytes.length = other.length ∧ bytes.take start = other.take start ∧
    bytes.drop (start + count) = other.drop (start + count)

instance (start count : Nat) (bytes other : List UInt8) :
    Decidable (AgreeOutside start count bytes other) :=
  inferInstanceAs (Decidable (_ ∧ _ ∧ _))

/-- Two strings of one length that differ in the bytes of one step at most: in one full word,
counted from the start, or in one of the bytes after the full words. -/
inductive OneStepApart (bytes other : List UInt8) : Prop where
  | inWord (number : Nat) (hword : 4 * number + 4 ≤ bytes.length)
      (hagree : AgreeOutside (4 * number) 4 bytes other) : OneStepApart bytes other
  | inByte (position : Nat) (hposition : bytes.length - bytes.length % 4 ≤ position)
      (hagree : AgreeOutside position 1 bytes other) : OneStepApart bytes other

namespace AgreeOutside

variable {start count : Nat} {bytes other : List UInt8}

/-- The strings are the same but for as many bytes in the middle. -/
theorem exists_split (h : AgreeOutside start count bytes other)
    (hend : start + count ≤ bytes.length) :
    ∃ front middle otherMiddle back, bytes = front ++ (middle ++ back) ∧
      other = front ++ (otherMiddle ++ back) ∧ front.length = start ∧ middle.length = count ∧
      otherMiddle.length = count := by
  obtain ⟨hlength, hfront, hback⟩ := h
  have hsplit (list : List UInt8) :
      list = list.take start ++ ((list.drop start).take count ++ list.drop (start + count)) := by
    rw [← List.drop_drop, List.take_append_drop, List.take_append_drop]
  refine ⟨bytes.take start, (bytes.drop start).take count, (other.drop start).take count,
    bytes.drop (start + count), hsplit bytes, ?_, ?_, ?_, ?_⟩
  · rw [hfront, hback]
    exact hsplit other
  · rw [List.length_take]
    omega
  · rw [List.length_take, List.length_drop]
    omega
  · rw [List.length_take, List.length_drop]
    omega

/-- If nothing is left where they may differ, they are the same. -/
theorem eq_of_length_le (h : AgreeOutside start count bytes other) (hend : bytes.length ≤ start) :
    bytes = other := by
  obtain ⟨hlength, hfront, -⟩ := h
  rwa [List.take_of_length_le hend, List.take_of_length_le (hlength ▸ hend)] at hfront

end AgreeOutside

/-- Strings that differ within one step are taken as the same words but for one. -/
theorem OneStepApart.words_eq {bytes other : List UInt8} (h : OneStepApart bytes other)
    (hne : bytes ≠ other) :
    ∃ before word otherWord after, word ≠ otherWord ∧
      words bytes = before ++ word :: after ∧ words other = before ++ otherWord :: after := by
  cases h with
  | inWord number hword hagree =>
    obtain ⟨front, middle, otherMiddle, back, rfl, rfl, hfront, hmiddle, hother⟩ :=
      hagree.exists_split hword
    have hfull : 4 ∣ front.length := ⟨number, hfront⟩
    match middle, otherMiddle, hmiddle, hother with
    | [a, b, c, d], [a', b', c', d'], _, _ =>
      refine ⟨words front, word a b c d, word a' b' c' d', words back, fun h => hne ?_,
        words_append _ hfull, words_append _ hfull⟩
      rw [eq_of_word_eq h]
  | inByte position hposition hagree =>
    have hin : position + 1 ≤ bytes.length :=
      Nat.lt_of_not_le fun hle => hne (hagree.eq_of_length_le hle)
    obtain ⟨front, middle, otherMiddle, back, rfl, rfl, hfront, hmiddle, hother⟩ :=
      hagree.exists_split hin
    match middle, otherMiddle, hmiddle, hother with
    | [byte], [otherByte], _, _ =>
      have hleft : front.length % 4 + 1 + back.length < 4 := by
        simp only [List.length_append, List.length_singleton] at hposition
        omega
      obtain ⟨before, hbefore⟩ := exists_words_byte hleft
      refine ⟨before, byte.toUInt32, otherByte.toUInt32, _, fun h => hne ?_, hbefore byte,
        hbefore otherByte⟩
      rw [UInt8.toUInt32_inj.1 h]

/-! ## Collisions -/

/-- Strings that are taken as the same words but for one have different hashes. -/
theorem ofBytes_ne_of_words {bytes other : List UInt8} {before after : List UInt32}
    {word otherWord : UInt32} (hne : word ≠ otherWord)
    (hbytes : words bytes = before ++ word :: after)
    (hother : words other = before ++ otherWord :: after) : ofBytes bytes ≠ ofBytes other := by
  rw [ofBytes_eq, ofBytes_eq, hbytes, hother, List.foldl_append, List.foldl_append, List.foldl_cons,
    List.foldl_cons, Ne, mix_left_inj, foldl_mix_inj, mix_right_inj]
  exact hne

/-- After full words a common end does not matter. -/
theorem ofBytes_append_inj {front other : List UInt8} (hfront : 4 ∣ front.length)
    (hother : 4 ∣ other.length) (back : List UInt8) :
    ofBytes (front ++ back) = ofBytes (other ++ back) ↔ absorb 0 front = absorb 0 other := by
  rw [ofBytes_eq, ofBytes_eq, words_append back hfront, words_append back hother,
    List.foldl_append, List.foldl_append, mix_left_inj, foldl_mix_inj, absorb_eq_foldl,
    absorb_eq_foldl]

/-- Different strings that differ within one step of the hash have different hashes, which are
numbers of 32 bits. And strings that start with full words and have the rest in common have the same
hash exactly if the states after the full words are the same. -/
theorem no_collision_within_step :
    (∀ bytes other : List UInt8, bytes ≠ other → OneStepApart bytes other →
      (ofBytes bytes).toNat < 2 ^ 32 ∧ (ofBytes other).toNat < 2 ^ 32 ∧
        (ofBytes bytes).toNat ≠ (ofBytes other).toNat) ∧
      ∀ front other : List UInt8, 4 ∣ front.length → 4 ∣ other.length → ∀ back : List UInt8,
        ofBytes (front ++ back) = ofBytes (other ++ back) ↔ absorb 0 front = absorb 0 other := by
  refine ⟨fun bytes other hne hstep => ⟨UInt32.toNat_lt _, UInt32.toNat_lt _, ?_⟩,
    fun front other hfront hother back => ofBytes_append_inj hfront hother back⟩
  obtain ⟨before, word, otherWord, after, hword, hbytes, hother⟩ := hstep.words_eq hne
  rw [Ne, UInt32.toNat_inj]
  exact ofBytes_ne_of_words hword hbytes hother

/-- The second name differs from the first one in the second word, and the third one in the byte
after the words. Zeros in front leave the state as it is, so with them the hash is the same. -/
theorem happymoth_hashes :
    (utf8 "happymoth".toList ≠ utf8 "happyfish".toList ∧
      OneStepApart (utf8 "happymoth".toList) (utf8 "happyfish".toList) ∧
      (ofBytes (utf8 "happymoth".toList)).toNat ≠ (ofBytes (utf8 "happyfish".toList)).toNat) ∧
    (utf8 "happymoth".toList ≠ utf8 "happymots".toList ∧
      OneStepApart (utf8 "happymoth".toList) (utf8 "happymots".toList) ∧
      (ofBytes (utf8 "happymoth".toList)).toNat ≠ (ofBytes (utf8 "happymots".toList)).toNat) ∧
    4 ∣ [(0 : UInt8), 0, 0, 0].length ∧ 4 ∣ ([] : List UInt8).length ∧
      ofBytes ([0, 0, 0, 0] ++ utf8 "happymoth".toList) =
        ofBytes ([] ++ utf8 "happymoth".toList) := by
  have hword : OneStepApart (utf8 "happymoth".toList) (utf8 "happyfish".toList) :=
    .inWord 1 (by decide) (by decide)
  have hbyte : OneStepApart (utf8 "happymoth".toList) (utf8 "happymots".toList) :=
    .inByte 8 (by decide) (by decide)
  have hfull : 4 ∣ [(0 : UInt8), 0, 0, 0].length := by decide
  have hempty : 4 ∣ ([] : List UInt8).length := by decide
  refine ⟨⟨by decide, hword, ?_⟩, ⟨by decide, hbyte, ?_⟩, hfull, hempty, ?_⟩
  · exact (no_collision_within_step.1 _ _ (by decide) hword).2.2
  · exact (no_collision_within_step.1 _ _ (by decide) hbyte).2.2
  · exact (no_collision_within_step.2 _ _ hfull hempty _).2 (by decide)

end FactRules.Hash
