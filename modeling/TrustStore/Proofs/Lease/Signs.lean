import TrustStore.Proofs.Lease.Grammar

/-!
# Signs of durations

A sign takes two ways: in an integer it is read with the digits, before segments it is taken off and
applied to what they come to.  Either way a text that begins like a number is read as the number of
seconds that it counts to, with the sign, if there is such a number in 64 bits
(`parseDuration_signed`).  So a plus changes nothing and a minus changes the sign, but for the one
number that 64 bits have as a negative only; and since segments never count to that, nothing that is
negated overflows (`signs_are_symmetric`).
-/

namespace TrustStore.Lease

/-! ### Negation in 64 bits -/

/-- Of all numbers of 64 bits just the least has no negative. -/
theorem toInt_neg_of_ne {n : Int64} (h : n ≠ Int64.minValue) : (-n).toInt = -n.toInt := by
  have hmin : Int64.minValue.toInt = -2 ^ 63 := by decide
  have hlow := Int64.le_toInt n
  have hhigh := Int64.toInt_lt n
  have hne : n.toInt ≠ -2 ^ 63 := fun heq => h (Int64.toInt_inj.mp (heq.trans hmin.symm))
  rw [Int64.toInt_neg]
  exact Int.bmod_eq_of_le (by omega) (by omega)

theorem toInt_neg_of_nonneg {n : Int64} (h : 0 ≤ n.toInt) : (-n).toInt = -n.toInt := by
  refine toInt_neg_of_ne ?_
  rintro rfl
  exact absurd h (by decide)

theorem toInt_neg_eq_iff {n : Int64} {m : ℕ} (hm : m ≠ 2 ^ 63) :
    (-n).toInt = -(m : ℤ) ↔ n.toInt = m := by
  constructor
  · intro h
    have hne : n ≠ Int64.minValue := by
      rintro rfl
      have hpower : (m : ℤ) = 2 ^ 63 := by
        rw [← Int.neg_inj, ← h]
        decide
      exact hm (by exact_mod_cast hpower)
    rw [toInt_neg_of_ne hne] at h
    exact Int.neg_inj.mp h
  · intro h
    rw [toInt_neg_of_nonneg (h ▸ Int.natCast_nonneg m), h]

theorem toInt_neg_ofNat {m : ℕ} (h : m < 2 ^ 63) : (-Int64.ofNat m).toInt = -(m : ℤ) := by
  have htoInt : (Int64.ofNat m).toInt = m := Int64.toInt_ofNat_of_lt h
  rw [toInt_neg_of_nonneg (htoInt ▸ Int.natCast_nonneg m), htoInt]

/-! ### Segments -/

/-- The seconds that a text of segments counts to, before its sign is applied. -/
def unsigned? (s : List Char) : Option ℕ :=
  match segments? (splitSign s).2 with
  | none | some [] => none
  | some l => wholeSeconds? l

theorem unsigned?_lt {s : List Char} {m : ℕ} (h : unsigned? s = some m) : m < 2 ^ 63 := by
  unfold unsigned? at h
  split at h
  · cases h
  · cases h
  · exact wholeSeconds?_lt h

/-- What is read of segments is what they count to, negated after a minus. -/
theorem parseSegments_eq_ok_iff {s : List Char} {n : Int64} :
    parseSegments s = .ok n ↔ ∃ m, unsigned? s = some m ∧
      n = if (splitSign s).1 then -Int64.ofNat m else Int64.ofNat m := by
  -- negating before or after the conversion is the same
  have hsigned (m : ℕ) : Int64.ofInt (if (splitSign s).1 then -(m : ℤ) else m)
      = if (splitSign s).1 then -Int64.ofNat m else Int64.ofNat m := by
    split
    · rw [Int64.ofInt_neg, Int64.ofInt_eq_ofNat]
    · exact Int64.ofInt_eq_ofNat
  rw [parseSegments, unsigned?]
  dsimp only
  rcases segments? (splitSign s).2 with - | ⟨- | ⟨g, l⟩⟩
  · simp
  · simp
  · dsimp only
    rcases wholeSeconds? (g :: l) with - | m
    · simp
    · dsimp only
      rw [hsigned]
      constructor
      · intro h
        exact ⟨m, rfl, (Except.ok.inj h).symm⟩
      · rintro ⟨m', hm, rfl⟩
        rw [Option.some.inj hm]

/-- What the sign of a text of segments is applied to, and what comes of it. -/
structure NegatesSafely (s : List Char) : Prop where
  run (n : Int64) : parseSegments s = .ok n ↔ ∃ m, unsigned? s = some m ∧
    n = if (splitSign s).1 then -Int64.ofNat m else Int64.ofNat m
  inRange {m : ℕ} (h : unsigned? s = some m) :
    (Int64.ofNat m).toInt = m ∧ 0 ≤ (Int64.ofNat m).toInt ∧ (m : ℤ) ≤ Int64.maxValue.toInt
  negated {m : ℕ} (h : unsigned? s = some m) : (-Int64.ofNat m).toInt = -(m : ℤ)

theorem negatesSafely (s : List Char) : NegatesSafely s where
  run _ := parseSegments_eq_ok_iff
  inRange h := by
    have hlt := unsigned?_lt h
    have hmax : Int64.maxValue.toInt = 2 ^ 63 - 1 := by decide
    rw [Int64.toInt_ofNat_of_lt hlt, hmax]
    omega
  negated h := toInt_neg_ofNat (unsigned?_lt h)

/-! ### Counts -/

/-- The seconds that a text without a sign counts to. -/
def counted? (s : List Char) : Option ℕ :=
  if s.all Char.isDigit then some (Nat.ofDigitChars 10 s 0) else unsigned? s

/-- An integer of more than 64 bits is not read as segments either, for it has no symbol. -/
theorem WrittenInteger.SpelledBy.not_isDuration {w : WrittenInteger} {text : String}
    (hw : w.SpelledBy text) (hfits : ¬ w.Fits) : ¬ IsDuration text := by
  intro h
  have htext : Text.trim text.toList = w.text := hw
  cases h with
  | blank h =>
    have hnil : Text.trim text.toList = [] := String.ofList_eq_empty_iff.mp h
    rw [htext] at hnil
    exact List.append_ne_nil_of_right_ne_nil _ w.digits_ne_nil hnil
  | integer w' h hfits' =>
    -- the text spells one integer
    have hread := w'.integer?_text
    rw [← show Text.trim text.toList = w'.text from h, htext, w.integer?_text] at hread
    rw [WrittenInteger.Fits, ← Option.some.inj hread] at hfits'
    exact hfits hfits'
  | segments d h =>
    obtain ⟨c, hmem, hother⟩ := d.exists_mem_body
    have hsplit := d.splitSign_text
    rw [← show Text.trim text.toList = d.text from h, htext, w.splitSign_text] at hsplit
    rw [← (Prod.mk.inj hsplit).2] at hmem
    have hdigit := List.all_eq_true.mp w.digits_digits c hmem
    rw [hother] at hdigit
    cases hdigit

section

variable {sign : Sign} {c : Char} {rest : List Char} {text : String}
  (hc : isNumberChar c = true) (htext : Text.trim text.toList = sign.text ++ c :: rest)

include htext

/-- A signed text of digits is the integer that it spells, or no duration if it is too large. -/
theorem parseDuration_digits (hdigits : (c :: rest).all Char.isDigit = true) (n : Int64) :
    parseDuration text = .ok n ↔
      n.toInt = sign.apply (Nat.ofDigitChars 10 (c :: rest) 0 : ℤ) := by
  let w : WrittenInteger := ⟨sign, c :: rest, hdigits, List.cons_ne_nil c rest⟩
  have hw : w.SpelledBy text := htext
  show _ ↔ n.toInt = w.value
  -- digits beyond the range are no integer, and no segments either
  by_cases hfits : w.Fits
  · rw [w.parseDuration_of_spelledBy hw hfits]
    have hvalue : (Int64.ofInt w.value).toInt = w.value :=
      Int64.toInt_ofInt_of_le hfits.1 (Int.lt_of_le_of_lt hfits.2 (by decide))
    constructor
    · intro h
      rw [← Except.ok.inj h, hvalue]
    · intro h
      rw [← h, Int64.ofInt_toInt]
  · rw [parseDuration_eq_invalid (hw.not_isDuration hfits)]
    constructor
    · intro h
      cases h
    · intro h
      exact absurd ⟨h ▸ Int64.le_toInt n, h ▸ Int64.toInt_le n⟩ hfits

include hc

/-- Any other text that begins like a number is read as segments. -/
theorem parseDuration_not_digits (hother : (c :: rest).all Char.isDigit = false) :
    parseDuration text = parseSegments (sign.text ++ c :: rest) := by
  have hne : ¬ (sign.text ++ c :: rest).isEmpty = true := by
    rw [List.isEmpty_iff]
    exact List.append_ne_nil_of_right_ne_nil _ (List.cons_ne_nil c rest)
  have hliteral : literal? (sign.text ++ c :: rest) = none := by
    rw [literal?, integer?_eq, sign.splitSign_append rest hc, hother]
    rfl
  rw [parseDuration, htext, if_neg hne, hliteral]

/-- A text that begins like a number is read as what it counts to, with its sign, if 64 bits have
that number. -/
theorem parseDuration_signed (n : Int64) :
    parseDuration text = .ok n ↔
      ∃ m, counted? (c :: rest) = some m ∧ n.toInt = sign.apply (m : ℤ) := by
  rcases hdigits : (c :: rest).all Char.isDigit with - | -
  · have hunsigned : unsigned? (sign.text ++ c :: rest) = unsigned? (c :: rest) := by
      rw [unsigned?, unsigned?, sign.splitSign_append rest hc, splitSign_cons hc]
    rw [counted?, hdigits, if_neg Bool.false_ne_true, parseDuration_not_digits hc htext hdigits,
      parseSegments_eq_ok_iff, hunsigned, sign.splitSign_append rest hc]
    refine exists_congr fun m => and_congr_right fun hm => ?_
    -- segments count to 63 bits at most, which have either sign
    have hlt := unsigned?_lt hm
    rw [← Int64.toInt_inj]
    cases sign
    case minus => exact Eq.congr rfl (toInt_neg_ofNat hlt)
    all_goals exact Eq.congr rfl (Int64.toInt_ofNat_of_lt hlt)
  · rw [parseDuration_digits htext hdigits, counted?, if_pos hdigits]
    simp

end

/-- Only digits count to `2 ^ 63`. -/
theorem counted?_eq_power_iff {s : List Char} :
    counted? s = some (2 ^ 63) ↔ s.all Char.isDigit = true ∧ Nat.ofDigitChars 10 s 0 = 2 ^ 63 := by
  rw [counted?]
  split
  · rename_i hdigits
    rw [Option.some_inj]
    exact (and_iff_right hdigits).symm
  · rename_i hother
    constructor
    · intro h
      exact absurd (unsigned?_lt h) (Nat.lt_irrefl _)
    · rintro ⟨hdigits, -⟩
      exact absurd hdigits hother

/-! ### Signs -/

/-- The text is the number that follows the greatest of 64 bits, in digits, with any blanks after
them. -/
def IsOneTooMany (text : String) : Prop :=
  ∃ digits blanks : List Char, text.toList = digits ++ blanks ∧
    (∀ c ∈ digits, c.isDigit = true) ∧ (∀ c ∈ blanks, Text.isBlank c = true) ∧
    Nat.ofDigitChars 10 digits 0 = 2 ^ 63

/-- The text begins with a digit or a point. -/
def BeginsLikeNumber (text : String) : Prop :=
  ∃ c rest, text.toList = c :: rest ∧ isNumberChar c = true

/-- How a text is read after a plus and after a minus. -/
structure SignsAgree (text : String) : Prop where
  plus (n : Int64) : parseDuration ("+" ++ text) = .ok n ↔ parseDuration text = .ok n
  minus (h : ¬ IsOneTooMany text) (n : Int64) :
    parseDuration ("-" ++ text) = .ok (-n) ↔ parseDuration text = .ok n
  least (h : IsOneTooMany text) :
    parseDuration ("-" ++ text) = .ok Int64.minValue ∧ ∀ n, parseDuration text ≠ .ok n
  nonneg {n : Int64} (h : parseDuration text = .ok n) : 0 ≤ n.toInt ∧ (-n).toInt = -n.toInt

section

variable {text : String} {c : Char} {rest : List Char} (hc : isNumberChar c = true)
  (htext : text.toList = c :: rest)

include hc htext

/-- A sign before the text takes no part in trimming it. -/
theorem trim_signed (sign : Sign) :
    Text.trim (sign.text ++ text.toList) = sign.text ++ c :: Text.trimEnd rest := by
  have hblank := not_isBlank_of_isNumberChar hc
  rw [htext]
  cases sign
  case implicit => exact Text.trim_cons hblank rest
  case plus => exact (Text.trim_cons rfl _).trans (congrArg _ (Text.trimEnd_cons hblank rest))
  case minus => exact (Text.trim_cons rfl _).trans (congrArg _ (Text.trimEnd_cons hblank rest))

/-- A text is one too many exactly if it counts to `2 ^ 63` once its blanks are cut off. -/
theorem isOneTooMany_iff :
    IsOneTooMany text ↔ counted? (c :: Text.trimEnd rest) = some (2 ^ 63) := by
  have hblank := not_isBlank_of_isNumberChar hc
  have htrim : Text.trimEnd text.toList = c :: Text.trimEnd rest := by
    rw [htext, Text.trimEnd_cons hblank]
  have hlast {digits : List Char} (h : ∀ c ∈ digits, c.isDigit = true) :
      ∀ c ∈ digits.getLast?, Text.isBlank c = false :=
    fun c hc => not_isBlank_of_isDigit (h c (List.mem_of_mem_getLast? hc))
  rw [counted?_eq_power_iff]
  constructor
  · rintro ⟨digits, blanks, hparts, hdigits, hblanks, hvalue⟩
    have hcut := (Text.trimEnd_eq_iff (hlast hdigits)).mpr ⟨blanks, hparts, hblanks⟩
    rw [← htrim, hcut]
    exact ⟨List.all_eq_true.mpr hdigits, hvalue⟩
  · rintro ⟨hdigits, hvalue⟩
    rw [← htrim] at hdigits hvalue
    have hdigits' := List.all_eq_true.mp hdigits
    obtain ⟨blanks, hparts, hblanks⟩ := (Text.trimEnd_eq_iff (hlast hdigits')).mp rfl
    exact ⟨_, blanks, hparts, hdigits', hblanks, hvalue⟩

/-- With any sign before it, the text counts to the same. -/
theorem parseDuration_with (sign : Sign) {s : String} (hs : s.toList = sign.text ++ text.toList)
    (n : Int64) :
    parseDuration s = .ok n ↔
      ∃ m, counted? (c :: Text.trimEnd rest) = some m ∧ n.toInt = sign.apply (m : ℤ) :=
  parseDuration_signed hc (hs ▸ trim_signed hc htext sign) n

/-- A sign before a text acts on what the text is read as. -/
theorem signsAgree : SignsAgree text := by
  have himplicit := parseDuration_with hc htext .implicit (s := text) rfl
  have hplus := parseDuration_with hc htext .plus (s := "+" ++ text) String.toList_append
  have hminus := parseDuration_with hc htext .minus (s := "-" ++ text) String.toList_append
  have hmany := isOneTooMany_iff hc htext
  constructor
  case plus =>
    intro n
    exact (hplus n).trans (himplicit n).symm
  case minus =>
    intro hnot n
    rw [hminus, himplicit]
    refine exists_congr fun m => and_congr_right fun hm => toInt_neg_eq_iff ?_
    rintro rfl
    exact hnot (hmany.mpr hm)
  -- the magnitude of the least duration has no positive form
  case least =>
    intro h
    refine ⟨(hminus _).mpr ⟨_, hmany.mp h, by decide⟩, fun n hn => ?_⟩
    obtain ⟨m, hm, htoInt⟩ := (himplicit n).mp hn
    obtain rfl := Option.some.inj ((hmany.mp h).symm.trans hm)
    have hle := Int64.toInt_le n
    rw [htoInt] at hle
    exact absurd hle (by decide)
  case nonneg =>
    intro n hn
    obtain ⟨m, -, htoInt⟩ := (himplicit n).mp hn
    have hnonneg : 0 ≤ n.toInt := htoInt ▸ Int.natCast_nonneg m
    exact ⟨hnonneg, toInt_neg_of_nonneg hnonneg⟩

end

/-- A plus changes nothing and a minus changes the sign, wherever a text begins like a number, but
for the number whose negative alone has 64 bits; and what is negated never overflows. -/
theorem signs_are_symmetric (text : String) :
    (BeginsLikeNumber text → SignsAgree text) ∧ NegatesSafely (Text.trim text.toList) := by
  refine ⟨?_, negatesSafely _⟩
  rintro ⟨c, rest, htext, hc⟩
  exact signsAgree hc htext

theorem least_duration_has_a_sign :
    BeginsLikeNumber "9223372036854775808 " ∧ IsOneTooMany "9223372036854775808 " ∧
      parseDuration "-9223372036854775808 " = .ok Int64.minValue ∧
      ∀ n, parseDuration "9223372036854775808 " ≠ .ok n := by
  have hbegins : BeginsLikeNumber "9223372036854775808 " := ⟨'9', _, rfl, rfl⟩
  have hmany : IsOneTooMany "9223372036854775808 " :=
    ⟨"9223372036854775808".toList, [' '], rfl, List.all_eq_true.mp rfl, List.all_eq_true.mp rfl,
      by decide⟩
  have hsigns := (signs_are_symmetric "9223372036854775808 ").1 hbegins
  exact ⟨hbegins, hmany, hsigns.least hmany⟩

end TrustStore.Lease
