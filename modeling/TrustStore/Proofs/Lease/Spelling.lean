import Mathlib.Algebra.BigOperators.Group.List.Basic
import Mathlib.Algebra.Order.Field.Rat
import Mathlib.Tactic.FieldSimp
import Mathlib.Tactic.Positivity
import Mathlib.Tactic.Ring
import TrustStore.Proofs.Lease.Duration
import TrustStore.Proofs.Text.Split

/-!
# How durations are written

The segment form is given as data: a sign, and segments each of a number and the symbol of a unit.
It has a text, and an exact length of time in nanoseconds, which is a rational number.  The text is
read as the segments that it was made of (`segments?_flatMap`) and never taken for an integer
(`literal?_text`), so those segments settle what it is read as (`parseDuration_of_spelledBy`).
-/

namespace TrustStore.Lease

/-! ### Symbols -/

/-- The symbols of the units. -/
inductive TimeUnit.HasSymbol : TimeUnit → List Char → Prop where
  | nanosecond : HasSymbol nanosecond ['n', 's']
  | microsecond : HasSymbol microsecond ['u', 's']
  | microSign : HasSymbol microsecond ['\u00b5', 's']
  | greekMu : HasSymbol microsecond ['\u03bc', 's']
  | millisecond : HasSymbol millisecond ['m', 's']
  | second : HasSymbol second ['s']
  | minute : HasSymbol minute ['m']
  | hour : HasSymbol hour ['h']
  | day : HasSymbol day ['d']

namespace TimeUnit.HasSymbol

variable {unit : TimeUnit} {symbol : List Char} (h : unit.HasSymbol symbol)

include h

theorem ofSymbol? : TimeUnit.ofSymbol? symbol = some unit := by
  cases h <;> rfl

theorem ne_nil : symbol ≠ [] := by
  rintro rfl
  cases h

theorem not_isNumberChar : ∀ c ∈ symbol, isNumberChar c = false := by
  have hall : symbol.all (!isNumberChar ·) = true := by cases h <;> rfl
  simpa using hall

end TimeUnit.HasSymbol

/-! ### Numbers -/

theorem ne_point_of_isDigit {c : Char} (h : c.isDigit = true) : (c != '.') = true := by
  rw [bne_iff_ne]
  rintro rfl
  cases h

/-- The point and what stands after it. -/
def pointed : Option (List Char) → List Char
  | none => []
  | some digits => '.' :: digits

/-- A number as it is written: digits, and maybe a point with further digits.  There is a digit on
one side of the point at least. -/
structure WrittenNumber where
  whole : List Char
  fraction : Option (List Char)
  whole_digits : whole.all Char.isDigit = true
  fraction_digits : (fraction.getD []).all Char.isDigit = true
  digits_ne_nil : whole ++ fraction.getD [] ≠ []

namespace WrittenNumber

variable (n : WrittenNumber)

theorem isDigit_of_mem_whole {c : Char} (h : c ∈ n.whole) : c.isDigit = true :=
  List.all_eq_true.mp n.whole_digits c h

theorem isDigit_of_mem_fraction {c : Char} (h : c ∈ n.fraction.getD []) : c.isDigit = true :=
  List.all_eq_true.mp n.fraction_digits c h

def text : List Char := n.whole ++ pointed n.fraction

/-- The number that is meant. -/
def value : ℚ :=
  Nat.ofDigitChars 10 n.whole 0
    + Nat.ofDigitChars 10 (n.fraction.getD []) 0 / 10 ^ (n.fraction.getD []).length

/-- What the text is read as. -/
def amount : Amount :=
  ⟨digitsValue (n.whole ++ n.fraction.getD []), (n.fraction.getD []).length⟩

/-- The digits of a number, scaled by the places after its point. -/
theorem value_eq : n.value = n.amount.digits / 10 ^ n.amount.places := by
  have hdigits : n.amount.digits
      = 10 ^ (n.fraction.getD []).length * Nat.ofDigitChars 10 n.whole 0
        + Nat.ofDigitChars 10 (n.fraction.getD []) 0 := by
    rw [amount, digitsValue, Text.foldl_eq_ofDigitChars, Nat.ofDigitChars_append,
      Nat.ofDigitChars_eq_ofDigitChars_zero]
  have hpow : (10 : ℚ) ^ (n.fraction.getD []).length ≠ 0 := by positivity
  rw [hdigits, value]
  push_cast [amount]
  field_simp

theorem value_nonneg : 0 ≤ n.value := by
  rw [value_eq]
  positivity

theorem isNumberChar_of_mem {c : Char} (h : c ∈ n.text) : isNumberChar c = true := by
  have hdigits (hmem : c ∈ n.fraction.getD []) := n.isDigit_of_mem_fraction hmem
  rw [text] at h
  rcases List.mem_append.mp h with hwhole | hpointed
  · exact isNumberChar_of_isDigit (n.isDigit_of_mem_whole hwhole)
  · rcases hn : n.fraction with - | digits
    · rw [hn] at hpointed
      cases hpointed
    · rw [hn] at hpointed hdigits
      rcases List.mem_cons.mp hpointed with rfl | hmem
      · rfl
      · exact isNumberChar_of_isDigit (hdigits hmem)

theorem exists_text_eq_cons : ∃ c rest, n.text = c :: rest ∧ isNumberChar c = true := by
  have hne : n.text ≠ [] := by
    have hdigits := n.digits_ne_nil
    rw [text]
    rcases hn : n.fraction with - | digits
    · rw [hn] at hdigits
      exact hdigits
    · exact List.append_ne_nil_of_right_ne_nil _ (List.cons_ne_nil _ _)
  obtain ⟨c, rest, htext⟩ := List.exists_cons_of_ne_nil hne
  exact ⟨c, rest, htext, n.isNumberChar_of_mem (htext ▸ List.mem_cons_self)⟩

/-- The number is read as it is written. -/
theorem ofText?_text : Amount.ofText? n.text = some n.amount := by
  have hwhole : ∀ c ∈ n.whole, (c != '.') = true :=
    fun _ hc => ne_point_of_isDigit (n.isDigit_of_mem_whole hc)
  have hpointed : ∀ c ∈ (pointed n.fraction).head?, (c != '.') = false := by
    rcases n.fraction with - | digits
    · rintro c ⟨⟩
    · rintro c ⟨⟩
      rfl
  -- the point is the only character that is dropped
  have hdrop : (pointed n.fraction).drop 1 = n.fraction.getD [] := by
    rcases n.fraction with - | digits <;> rfl
  have hpoint : (n.fraction.getD []).contains '.' = false := by
    rw [List.contains_eq_mem, decide_eq_false_iff_not]
    intro hmem
    cases n.isDigit_of_mem_fraction hmem
  have hempty : (n.whole ++ n.fraction.getD []).isEmpty = false :=
    List.isEmpty_eq_false_iff.mpr n.digits_ne_nil
  rw [Amount.ofText?, text, Text.takeWhile_append_eq hwhole hpointed,
    Text.dropWhile_append_eq hwhole hpointed, hdrop, hpoint, hempty]
  rfl

end WrittenNumber

/-! ### Segments -/

/-- A number and the symbol of a unit. -/
structure WrittenSegment where
  number : WrittenNumber
  unit : TimeUnit
  symbol : List Char
  hasSymbol : unit.HasSymbol symbol

namespace WrittenSegment

variable (g : WrittenSegment)

def text : List Char := g.number.text ++ g.symbol

/-- The nanoseconds that are meant. -/
def nanoseconds : ℚ := g.number.value * g.unit.nanoseconds

/-- What the text is read as. -/
def segment : Segment := ⟨g.number.amount, g.unit⟩

theorem nanoseconds_nonneg : 0 ≤ g.nanoseconds :=
  mul_nonneg g.number.value_nonneg (Nat.cast_nonneg _)

theorem exists_text_eq_cons : ∃ c rest, g.text = c :: rest ∧ isNumberChar c = true := by
  obtain ⟨c, rest, htext, hchar⟩ := g.number.exists_text_eq_cons
  exact ⟨c, rest ++ g.symbol, by rw [text, htext, List.cons_append], hchar⟩

/-- The segment is read off, if what follows does not carry its symbol on. -/
theorem segments?_append {s : List Char} (hs : ∀ c ∈ s.head?, isNumberChar c = true) :
    segments? (g.text ++ s) = (segments? s).map (g.segment :: ·) := by
  have hsymbol : ∀ c ∈ (g.symbol ++ s).head?, isNumberChar c = false := by
    intro c hc
    rw [List.head?_append_of_ne_nil _ g.hasSymbol.ne_nil] at hc
    exact g.hasSymbol.not_isNumberChar c (List.mem_of_mem_head? hc)
  have hnumber : ∀ c ∈ g.number.text, isNumberChar c = true :=
    fun c hc => g.number.isNumberChar_of_mem hc
  have hunit : ∀ c ∈ g.symbol, (!isNumberChar c) = true := by
    intro c hc
    rw [g.hasSymbol.not_isNumberChar c hc]
    rfl
  have hrest : ∀ c ∈ s.head?, (!isNumberChar c) = false := by
    intro c hc
    rw [hs c hc]
    rfl
  -- the number ends at the symbol, and the symbol at the next number
  have htake : (g.text ++ s).takeWhile isNumberChar = g.number.text := by
    rw [text, List.append_assoc, Text.takeWhile_append_eq hnumber hsymbol]
  have hdrop : (g.text ++ s).dropWhile isNumberChar = g.symbol ++ s := by
    rw [text, List.append_assoc, Text.dropWhile_append_eq hnumber hsymbol]
  have hempty : ¬ (g.text ++ s).isEmpty = true := by
    obtain ⟨c, rest, htext, -⟩ := g.exists_text_eq_cons
    rw [htext]
    exact Bool.false_ne_true
  rw [segments?, if_neg hempty]
  split
  · rename_i hread
    rw [htake, g.number.ofText?_text] at hread
    cases hread
  · rename_i amount hread
    rw [htake, g.number.ofText?_text] at hread
    cases hread
    rw [hdrop, Text.takeWhile_append_eq hunit hrest, Text.dropWhile_append_eq hunit hrest,
      g.hasSymbol.ofSymbol?]
    rfl

end WrittenSegment

/-- The nanoseconds that segments mean together. -/
def exactNanoseconds (l : List WrittenSegment) : ℚ := (l.map WrittenSegment.nanoseconds).sum

theorem exactNanoseconds_cons (g : WrittenSegment) (l : List WrittenSegment) :
    exactNanoseconds (g :: l) = g.nanoseconds + exactNanoseconds l := by
  rw [exactNanoseconds, List.map_cons, List.sum_cons, exactNanoseconds]

theorem exactNanoseconds_nonneg (l : List WrittenSegment) : 0 ≤ exactNanoseconds l := by
  refine List.sum_nonneg fun q hq => ?_
  obtain ⟨g, -, rfl⟩ := List.mem_map.mp hq
  exact g.nanoseconds_nonneg

/-- The whole seconds of a total have 63 bits. -/
theorem wholeSeconds?_lt {l : List Segment} {m : ℕ} (h : wholeSeconds? l = some m) :
    m < 2 ^ 63 := by
  unfold wholeSeconds? at h
  split at h
  · split at h
    · obtain rfl := Option.some.inj h
      exact lt_of_le_of_lt (Nat.min_le_right _ _) (by decide)
    · cases h
  · cases h

/-! ### Durations -/

inductive Sign where
  | implicit
  | plus
  | minus
deriving DecidableEq, Repr

namespace Sign

def text : Sign → List Char
  | implicit => []
  | plus => ['+']
  | minus => ['-']

/-- The sign is taken off what begins like a number. -/
theorem splitSign_append (s : Sign) {c : Char} (rest : List Char) (h : isNumberChar c = true) :
    splitSign (s.text ++ c :: rest) = (decide (s = .minus), c :: rest) := by
  cases s
  case implicit => exact splitSign_cons h
  case plus => rfl
  case minus => rfl

/-- What the sign makes of a magnitude. -/
def apply {α : Type*} [Neg α] : Sign → α → α
  | minus, a => -a
  | _, a => a

/-- Magnitudes of 63 bits have either sign in 64 bits. -/
theorem toInt_ofInt_apply (s : Sign) {n : ℕ} (h : n < 2 ^ 63) :
    (Int64.ofInt (s.apply (n : ℤ))).toInt = s.apply (n : ℤ) := by
  refine Int64.toInt_ofInt_of_le ?_ ?_
  · rcases s <;> (simp only [apply]; omega)
  · rcases s <;> (simp only [apply]; omega)

end Sign

/-- A duration in the form of segments, of which there is one at least. -/
structure WrittenDuration where
  sign : Sign
  segments : List WrittenSegment
  segments_ne_nil : segments ≠ []

namespace WrittenDuration

variable (d : WrittenDuration)

def body : List Char := d.segments.flatMap WrittenSegment.text

def text : List Char := d.sign.text ++ d.body

/-- The nanoseconds that are meant, without the sign. -/
def magnitude : ℚ := exactNanoseconds d.segments

/-- The nanoseconds that are meant. -/
def nanoseconds : ℚ := d.sign.apply d.magnitude

/-- A text spells a duration, with any blanks around it. -/
def SpelledBy (text : String) : Prop := Text.trim text.toList = d.text

theorem magnitude_nonneg : 0 ≤ d.magnitude := exactNanoseconds_nonneg d.segments

theorem exists_body_eq_cons : ∃ c rest, d.body = c :: rest ∧ isNumberChar c = true := by
  obtain ⟨g, l, hl⟩ := List.exists_cons_of_ne_nil d.segments_ne_nil
  obtain ⟨c, rest, htext, hchar⟩ := g.exists_text_eq_cons
  exact ⟨c, rest ++ l.flatMap WrittenSegment.text,
    by rw [body, hl, List.flatMap_cons, htext, List.cons_append], hchar⟩

/-- The segments are read as they are written. -/
theorem segments?_flatMap (l : List WrittenSegment) :
    segments? (l.flatMap WrittenSegment.text) = some (l.map WrittenSegment.segment) := by
  induction l with
  | nil =>
    rw [List.flatMap_nil, segments?]
    rfl
  | cons g l ih =>
    -- what follows a symbol is the number of the next segment
    have hnext : ∀ c ∈ (l.flatMap WrittenSegment.text).head?, isNumberChar c = true := by
      rcases l with - | ⟨g', l⟩
      · rintro c ⟨⟩
      · obtain ⟨c, rest, htext, hchar⟩ := g'.exists_text_eq_cons
        rw [List.flatMap_cons, htext]
        rintro _ ⟨⟩
        exact hchar
    rw [List.flatMap_cons, g.segments?_append hnext, ih]
    rfl

theorem splitSign_text : splitSign d.text = (decide (d.sign = .minus), d.body) := by
  obtain ⟨c, rest, hbody, hchar⟩ := d.exists_body_eq_cons
  rw [text, hbody, d.sign.splitSign_append rest hchar]

theorem exists_mem_body : ∃ c ∈ d.body, c.isDigit = false := by
  obtain ⟨g, hg⟩ := List.exists_mem_of_ne_nil d.segments d.segments_ne_nil
  obtain ⟨c, hc⟩ := List.exists_mem_of_ne_nil g.symbol g.hasSymbol.ne_nil
  refine ⟨c, List.mem_flatMap.mpr ⟨g, hg, List.mem_append_right _ hc⟩, ?_⟩
  have hnumber := g.hasSymbol.not_isNumberChar c hc
  rw [isNumberChar, Bool.or_eq_false_iff] at hnumber
  exact hnumber.1

/-- The text holds a symbol, so it is no integer. -/
theorem literal?_text : literal? d.text = none := by
  obtain ⟨c, hc, hdigit⟩ := d.exists_mem_body
  have hall : (d.body.isEmpty || !d.body.all Char.isDigit) = true := by
    rw [List.all_eq_false.mpr ⟨c, hc, by rw [hdigit]; exact Bool.false_ne_true⟩]
    exact Bool.or_true _
  rw [literal?, integer?_eq, d.splitSign_text, if_pos hall]

/-- What a text of the form stands for is settled by its segments. -/
theorem parseDuration_of_spelledBy {text : String} (h : d.SpelledBy text) :
    parseDuration text = match wholeSeconds? (d.segments.map WrittenSegment.segment) with
      | none => .error (.outOfRange (String.ofList d.text))
      | some n => .ok (Int64.ofInt (d.sign.apply (n : ℤ))) := by
  have hempty : ¬ d.text.isEmpty = true := by
    obtain ⟨c, rest, hbody, -⟩ := d.exists_body_eq_cons
    rw [WrittenDuration.text, hbody, List.isEmpty_iff]
    exact List.append_ne_nil_of_right_ne_nil _ (List.cons_ne_nil c rest)
  -- there is at least one segment, so the text is not an empty sum
  obtain ⟨g, l, hl⟩ := List.exists_cons_of_ne_nil d.segments_ne_nil
  have hread : segments? d.body = some (g.segment :: l.map WrittenSegment.segment) := by
    rw [body, segments?_flatMap, hl, List.map_cons]
  rw [parseDuration, h, if_neg hempty, d.literal?_text]
  dsimp only
  rw [parseSegments, d.splitSign_text, hl, List.map_cons]
  dsimp only
  rw [hread]
  dsimp only
  rcases wholeSeconds? (g.segment :: l.map WrittenSegment.segment) with - | n
  · rfl
  · rcases d.sign <;> rfl

end WrittenDuration

end TrustStore.Lease
