import Mathlib.Data.List.TakeWhile
import TrustStore.Entry.Draft
import TrustStore.Proofs.Lease.Spelling

/-!
# Which texts are durations

Without the blanks around it, the text of a duration is empty, an integer of 64 bits, or a sequence
of segments.  The last two are given as data, with the texts that they are written as; here it is
shown that nothing else is read, by going back from what the reader found to the data that it was
written from (`integer?_eq_some_iff`, `Amount.exists_writtenNumber`, `exists_writtenSegments`).  So
a text is refused as invalid exactly if it has none of the three forms (`duration_grammar`).
-/

namespace TrustStore.Lease

/-! ### Integers -/

/-- What is taken off a text is a sign, if it is anything. -/
theorem exists_sign (s : List Char) : ∃ sign : Sign, sign.text ++ (splitSign s).2 = s := by
  unfold splitSign
  split
  · exact ⟨.minus, rfl⟩
  · exact ⟨.plus, rfl⟩
  · exact ⟨.implicit, rfl⟩

/-- An integer as it is written: maybe a sign, and decimal digits. -/
structure WrittenInteger where
  sign : Sign
  digits : List Char
  digits_digits : digits.all Char.isDigit = true
  digits_ne_nil : digits ≠ []

namespace WrittenInteger

variable (n : WrittenInteger)

def text : List Char := n.sign.text ++ n.digits

/-- The integer that is meant. -/
def value : ℤ := n.sign.apply (Nat.ofDigitChars 10 n.digits 0 : ℤ)

/-- The integer is one of 64 bits. -/
def Fits : Prop := Int64.minValue.toInt ≤ n.value ∧ n.value ≤ Int64.maxValue.toInt

/-- A text spells an integer, with any blanks around it. -/
def SpelledBy (text : String) : Prop := Text.trim text.toList = n.text

theorem splitSign_text : splitSign n.text = (decide (n.sign = .minus), n.digits) := by
  obtain ⟨c, rest, hdigits⟩ := List.exists_cons_of_ne_nil n.digits_ne_nil
  have hc : c.isDigit = true :=
    List.all_eq_true.mp n.digits_digits c (hdigits ▸ List.mem_cons_self)
  rw [text, hdigits, n.sign.splitSign_append rest (isNumberChar_of_isDigit hc)]

theorem integer?_text : integer? n.text = some n.value := by
  have hdigits : (n.digits.isEmpty || !n.digits.all Char.isDigit) = false := by
    rw [List.isEmpty_eq_false_iff.mpr n.digits_ne_nil, n.digits_digits]
    rfl
  rw [integer?_eq, n.splitSign_text]
  dsimp only
  rw [hdigits, digitsValue, Text.foldl_eq_ofDigitChars, value]
  rcases n.sign <;> rfl

end WrittenInteger

/-- A text is an integer if it is what some integer is written as. -/
theorem integer?_eq_some_iff {s : List Char} {k : ℤ} :
    integer? s = some k ↔ ∃ n : WrittenInteger, n.text = s ∧ n.value = k := by
  constructor
  · intro h
    obtain ⟨sign, htext⟩ := exists_sign s
    have hdigits : ¬ ((splitSign s).2.isEmpty || !(splitSign s).2.all Char.isDigit) = true := by
      intro hother
      rw [integer?_eq, if_pos hother] at h
      cases h
    rw [Bool.or_eq_true, not_or, List.isEmpty_iff, Bool.not_eq_true, Bool.not_eq_false'] at hdigits
    -- the text is taken apart as the reader does
    let n : WrittenInteger := ⟨sign, (splitSign s).2, hdigits.2, hdigits.1⟩
    have hn : n.text = s := htext
    have hread := n.integer?_text
    rw [hn, h] at hread
    exact ⟨n, hn, (Option.some.inj hread).symm⟩
  · rintro ⟨n, rfl, rfl⟩
    exact n.integer?_text

theorem WrittenInteger.literal?_text (n : WrittenInteger) (h : n.Fits) :
    literal? n.text = some (.ofInt n.value) := by
  rw [literal?, n.integer?_text]
  exact if_pos h

/-- What is read as an integer is written as one. -/
theorem exists_writtenInteger {s : List Char} {k : Int64} (h : literal? s = some k) :
    ∃ n : WrittenInteger, n.text = s ∧ n.Fits := by
  unfold literal? at h
  split at h
  · rename_i i hi
    split at h
    · rename_i hfits
      obtain ⟨n, hn, rfl⟩ := integer?_eq_some_iff.mp hi
      exact ⟨n, hn, hfits⟩
    · cases h
  · cases h

/-! ### Segments -/

theorem TimeUnit.hasSymbol_of_ofSymbol? {symbol : List Char} {unit : TimeUnit}
    (h : TimeUnit.ofSymbol? symbol = some unit) : unit.HasSymbol symbol := by
  unfold TimeUnit.ofSymbol? at h
  split at h <;> cases h <;> constructor

theorem isDigit_of_isNumberChar {c : Char} (h : isNumberChar c = true) (hc : c ≠ '.') :
    c.isDigit = true := by
  rw [isNumberChar, Bool.or_eq_true, beq_iff_eq] at h
  exact h.resolve_right hc

/-- What is read as a number is written as one, if it has characters of numbers only. -/
theorem Amount.exists_writtenNumber {s : List Char} {a : Amount}
    (hs : ∀ c ∈ s, isNumberChar c = true) (h : Amount.ofText? s = some a) :
    ∃ n : WrittenNumber, n.text = s ∧ n.amount = a := by
  have hparts : s.takeWhile (· != '.') ++ s.dropWhile (· != '.') = s :=
    List.takeWhile_append_dropWhile
  have hwhole : (s.takeWhile (· != '.')).all Char.isDigit = true := by
    refine List.all_eq_true.mpr fun c hc => ?_
    have hne := List.mem_takeWhile_imp (p := (· != '.')) hc
    exact isDigit_of_isNumberChar (hs c (List.takeWhile_subset _ hc)) (bne_iff_ne.mp hne)
  have hpoint := List.head?_dropWhile_not (· != '.') s
  have hrest := (List.dropWhile_sublist (l := s) (· != '.')).subset
  rw [Amount.ofText?] at h
  generalize s.takeWhile (· != '.') = whole at hparts hwhole h
  generalize s.dropWhile (· != '.') = rest at hparts hpoint hrest h
  split at h
  · cases h
  · rename_i hdigits
    rw [Bool.or_eq_true, not_or, List.contains_iff_mem, List.isEmpty_iff] at hdigits
    obtain ⟨hfraction, hne⟩ := hdigits
    obtain rfl := Option.some.inj h
    -- without a point there is no fraction; with one, all after it are digits
    rcases rest with - | ⟨c, fraction⟩
    · exact ⟨⟨whole, none, hwhole, rfl, hne⟩, hparts, rfl⟩
    · obtain rfl : c = '.' := by simpa using hpoint
      have hdigits : fraction.all Char.isDigit = true := by
        refine List.all_eq_true.mpr fun c hc => ?_
        refine isDigit_of_isNumberChar (hs c (hrest (List.mem_cons_of_mem _ hc))) ?_
        rintro rfl
        exact hfraction hc
      exact ⟨⟨whole, some fraction, hwhole, hdigits, hne⟩, hparts, rfl⟩

/-- What is read as segments is written as them. -/
theorem exists_writtenSegments {s : List Char} {l : List Segment} (h : segments? s = some l) :
    ∃ gs : List WrittenSegment, gs.flatMap WrittenSegment.text = s ∧
      gs.map WrittenSegment.segment = l := by
  fun_induction segments? s generalizing l with
  | case1 s hempty =>
    obtain rfl := Option.some.inj h
    obtain rfl := List.isEmpty_iff.mp hempty
    exact ⟨[], rfl, rfl⟩
  | case2 => cases h
  | case3 => cases h
  | case4 s hne amount hamount unit hunit ih =>
    obtain ⟨l', hl', rfl⟩ := Option.map_eq_some_iff.mp h
    obtain ⟨gs, htext, rfl⟩ := ih hl'
    obtain ⟨number, hnumber, rfl⟩ :=
      Amount.exists_writtenNumber (fun c hc => List.mem_takeWhile_imp hc) hamount
    -- the first number and symbol are a segment, and the rest is by induction
    refine ⟨⟨number, unit, _, TimeUnit.hasSymbol_of_ofSymbol? hunit⟩ :: gs, ?_, rfl⟩
    rw [List.flatMap_cons, htext, WrittenSegment.text, hnumber, List.append_assoc,
      List.takeWhile_append_dropWhile, List.takeWhile_append_dropWhile]

/-- A text that is not a duration in the form of segments is refused as such. -/
theorem parseSegments_eq_invalid {s : List Char} (h : ¬ ∃ d : WrittenDuration, d.text = s) :
    parseSegments s = .error (.invalid (String.ofList s)) := by
  obtain ⟨sign, hsign⟩ := exists_sign s
  rw [parseSegments]
  dsimp only
  rcases hread : segments? (splitSign s).2 with - | ⟨- | ⟨g, l⟩⟩
  · rfl
  · rfl
  -- segments that are read have been written, so the text would be a duration
  · obtain ⟨gs, hbody, hgs⟩ := exists_writtenSegments hread
    have hne : gs ≠ [] := by
      rintro rfl
      cases hgs
    refine absurd ⟨⟨sign, gs, hne⟩, ?_⟩ h
    rw [WrittenDuration.text, WrittenDuration.body, hbody]
    exact hsign

/-! ### The grammar -/

/-- The text without the blanks around it. -/
def trimmed (text : String) : String := String.ofList (Text.trim text.toList)

/-- The forms that the text of a duration may have, with any blanks around it. -/
inductive IsDuration (text : String) : Prop where
  | blank (h : trimmed text = "")
  | integer (n : WrittenInteger) (h : n.SpelledBy text) (hfits : n.Fits)
  | segments (d : WrittenDuration) (h : d.SpelledBy text)

theorem parseDuration_of_blank {text : String} (h : trimmed text = "") :
    parseDuration text = .ok 0 := by
  have hnil : Text.trim text.toList = [] := String.ofList_eq_empty_iff.mp h
  rw [parseDuration, hnil]
  rfl

theorem WrittenInteger.parseDuration_of_spelledBy {text : String} {n : WrittenInteger}
    (h : n.SpelledBy text) (hfits : n.Fits) : parseDuration text = .ok (.ofInt n.value) := by
  have hne : ¬ n.text.isEmpty = true := by
    rw [WrittenInteger.text, List.isEmpty_iff]
    exact List.append_ne_nil_of_right_ne_nil _ n.digits_ne_nil
  rw [parseDuration, h, if_neg hne, n.literal?_text hfits]

/-- A duration is read, or too long. -/
theorem IsDuration.parseDuration {text : String} (h : IsDuration text) :
    parseDuration text = .error (.outOfRange (trimmed text)) ∨
      ∃ n, parseDuration text = .ok n := by
  cases h with
  | blank h => exact .inr ⟨0, parseDuration_of_blank h⟩
  | integer n h hfits => exact .inr ⟨_, n.parseDuration_of_spelledBy h hfits⟩
  | segments d h =>
    rw [d.parseDuration_of_spelledBy h, trimmed, h]
    split
    · exact .inl rfl
    · exact .inr ⟨_, rfl⟩

/-- Every other text is invalid. -/
theorem parseDuration_eq_invalid {text : String} (h : ¬ IsDuration text) :
    parseDuration text = .error (.invalid (trimmed text)) := by
  have hne : ¬ (Text.trim text.toList).isEmpty = true := by
    intro hempty
    exact h (.blank (String.ofList_eq_empty_iff.mpr (List.isEmpty_iff.mp hempty)))
  have hliteral : literal? (Text.trim text.toList) = none := by
    rcases hread : literal? (Text.trim text.toList) with - | k
    · rfl
    · obtain ⟨n, hn, hfits⟩ := exists_writtenInteger hread
      exact absurd (.integer n hn.symm hfits) h
  rw [Lease.parseDuration, if_neg hne, hliteral]
  refine parseSegments_eq_invalid ?_
  rintro ⟨d, hd⟩
  exact h (.segments d hd.symm)

/-! ### Requests -/

/-- The answer to a request that states a text which is no duration. -/
def refused (cause : DurationError) : Except Fault Int64 := .error (.request (.duration cause))

theorem seconds_text_of_error {text : String} {cause : DurationError}
    (h : parseDuration text = .error cause) : Entry.seconds (.text text) = refused cause := by
  rw [Entry.seconds, Term.resolve, h]
  rfl

theorem seconds_text_of_ok {text : String} {n : Int64} (h : parseDuration text = .ok n) :
    Entry.seconds (.text text) = .ok n := by
  rw [Entry.seconds, Term.resolve, h]
  rfl

/-- A text is invalid exactly if it has none of the forms of durations, and else it is read or too
long.  The empty text is zero, and an integer is itself. -/
theorem duration_grammar (text : String) :
    (Entry.seconds (.text text) = refused (.invalid (trimmed text)) ↔ ¬ IsDuration text) ∧
    (IsDuration text → Entry.seconds (.text text) = refused (.outOfRange (trimmed text)) ∨
      ∃ n, Entry.seconds (.text text) = .ok n) ∧
    (trimmed text = "" → Entry.seconds (.text text) = .ok 0) ∧
    ∀ n : WrittenInteger, n.SpelledBy text → n.Fits →
      ∃ k : Int64, Entry.seconds (.text text) = .ok k ∧ k.toInt = n.value := by
  have hread (h : IsDuration text) :
      Entry.seconds (.text text) = refused (.outOfRange (trimmed text)) ∨
        ∃ n, Entry.seconds (.text text) = .ok n :=
    h.parseDuration.imp seconds_text_of_error fun ⟨n, hn⟩ => ⟨n, seconds_text_of_ok hn⟩
  refine ⟨⟨?_, ?_⟩, hread, ?_, ?_⟩
  -- a duration is out of range or has a value, and is never invalid
  · intro hinvalid h
    rcases hread h with hlong | ⟨n, hok⟩
    · rw [hinvalid] at hlong
      cases hlong
    · rw [hinvalid] at hok
      cases hok
  · intro h
    exact seconds_text_of_error (parseDuration_eq_invalid h)
  · intro h
    exact seconds_text_of_ok (parseDuration_of_blank h)
  · intro n h hfits
    refine ⟨_, seconds_text_of_ok (n.parseDuration_of_spelledBy h hfits), ?_⟩
    exact Int64.toInt_ofInt_of_le hfits.1 (Int.lt_of_le_of_lt hfits.2 (by decide))

-- a digit on one side of the point will do, but segments stand close together
example : parseDuration " 5.h.5h " = .ok 19800 := by decide +kernel
example : parseDuration "1h 30m" = .error (.invalid "1h 30m") := by decide +kernel

end TrustStore.Lease
