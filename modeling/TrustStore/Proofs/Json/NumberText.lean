import TrustStore.Proofs.Bytes
import TrustStore.Proofs.Json.Grammar
import TrustStore.Proofs.Text.Decimal
import TrustStore.Proofs.Text.Split

/-!
# Numerals read back

The text of a numeral is read as that numeral, provided that what follows does not carry it on
(`readNumber_of_spells`).  A written integer of 64 bits, signed or not, is a numeral of that value
(`spellsNumeral_int`).
-/

namespace TrustStore.Json

/-! ### Digits -/

theorem digitChar_lt {d : Nat} (h : d < 10) :
    (Nat.digitChar d).toNat < 0x80 ∧ Ascii.isDigit (Nat.digitChar d).toNat.toUInt8 = true ∧
      Ascii.digitValue (Nat.digitChar d).toNat.toUInt8 = d := by
  have hall : ∀ d < 10, (Nat.digitChar d).toNat < 0x80 ∧
      Ascii.isDigit (Nat.digitChar d).toNat.toUInt8 = true ∧
      Ascii.digitValue (Nat.digitChar d).toNat.toUInt8 = d := by
    decide
  exact hall d h

/-- The bytes of digits, one each. -/
def digitsBytes (digits : List Nat) : Bytes := digits.map fun d => (Nat.digitChar d).toNat.toUInt8

theorem ofChars_digitsText {digits : List Nat} (h : ∀ d ∈ digits, d < 10) :
    Bytes.ofChars (digitsText digits) = digitsBytes digits := by
  induction digits with
  | nil => rfl
  | cons d digits ih =>
    show Bytes.ofChars (Nat.digitChar d :: digitsText digits) = _
    rw [Bytes.ofChars_cons_of_lt (digitChar_lt (h d List.mem_cons_self)).1,
      ih fun e he => h e (List.mem_cons_of_mem d he)]
    rfl

/-- What follows digits does not carry them on. -/
def EndsDigits (rest : Bytes) : Prop := ∀ b ∈ rest.head?, Ascii.isDigit b = false

/-- Digits are read up to the first byte that is none. -/
theorem readDigits_digitsText {digits : List Nat} (h : ∀ d ∈ digits, d < 10) {rest : Bytes}
    (hrest : EndsDigits rest) :
    readDigits (Bytes.ofChars (digitsText digits) ++ rest) = (digits, rest) := by
  have hbytes : ∀ b ∈ digitsBytes digits, Ascii.isDigit b = true := by
    intro b hb
    obtain ⟨d, hd, rfl⟩ := List.mem_map.mp hb
    exact (digitChar_lt (h d hd)).2.1
  have hvalues : (digitsBytes digits).map Ascii.digitValue = digits := by
    rw [digitsBytes, List.map_map]
    exact (List.map_congr_left fun d hd => (digitChar_lt (h d hd)).2.2).trans (List.map_id _)
  rw [ofChars_digitsText h, readDigits, Text.takeWhile_append_eq hbytes hrest,
    Text.dropWhile_append_eq hbytes hrest, hvalues]

/-! ### The parts of a numeral -/

/-- What follows a numeral does not carry it on. -/
def EndsNumeral (rest : Bytes) : Prop :=
  ∀ b ∈ rest.head?, Ascii.isDigit b = false ∧ b ≠ Ascii.dot ∧ b ≠ Ascii.smallE ∧ b ≠ Ascii.capitalE

theorem endsNumeral_nil : EndsNumeral [] := by
  intro b hb
  cases hb

theorem endsNumeral_cons {b : UInt8} (h : Ascii.isDigit b = false ∧ b ≠ Ascii.dot ∧
    b ≠ Ascii.smallE ∧ b ≠ Ascii.capitalE) (rest : Bytes) : EndsNumeral (b :: rest) := by
  intro c hc
  obtain rfl := Option.some.inj hc
  exact h

theorem EndsNumeral.endsDigits {rest : Bytes} (h : EndsNumeral rest) : EndsDigits rest :=
  fun b hb => (h b hb).1

/-- Leading zeros are refused, so a zero stands alone. -/
theorem readWhole_digitsText {digits : List Nat} (h : AreWhole digits) {rest : Bytes}
    (hrest : EndsDigits rest) :
    readWhole (Bytes.ofChars (digitsText digits) ++ rest) = some (digits, rest) := by
  obtain ⟨⟨hne, hlt⟩, hzero⟩ := h
  rw [readWhole, readDigits_digitsText hlt hrest]
  rcases digits with - | ⟨- | d, digits⟩
  · exact absurd rfl hne
  · obtain rfl : digits = [] := (List.cons.inj (hzero rfl)).2
    rfl
  · rfl

theorem readFraction_dot_eq (s : Bytes) :
    readFraction (Ascii.dot :: s) = match readDigits s with
      | ([], _) => none
      | r => some r := rfl

theorem readFraction_dot {digits : List Nat} (h : AreDigits digits) {rest : Bytes}
    (hrest : EndsDigits rest) :
    readFraction (Ascii.dot :: (Bytes.ofChars (digitsText digits) ++ rest))
      = some (digits, rest) := by
  rw [readFraction_dot_eq, readDigits_digitsText h.2 hrest]
  rcases digits with - | ⟨d, digits⟩
  · exact absurd rfl h.1
  · rfl

theorem readFraction_of_spells {digits : List Nat} {t : List Char} (h : SpellsFraction digits t)
    {rest : Bytes} (hrest : EndsDigits rest) (hdot : rest.head? ≠ some Ascii.dot) :
    readFraction (Bytes.ofChars t ++ rest) = some (digits, rest) := by
  rcases h with - | h
  · unfold readFraction
    split
    · rename_i heq
      exact absurd (congrArg List.head? heq) hdot
    · rfl
  · rw [Bytes.ofChars_cons_of_lt (by decide)]
    exact readFraction_dot h hrest

/-- The sign that stands before the digits of an exponent, if there is one, and what follows. -/
def signOf (s : Bytes) : Bool × Bytes :=
  match s with
  | Ascii.plus :: r => (false, r)
  | Ascii.minus :: r => (true, r)
  | r => (false, r)

/-- A digit is no sign. -/
theorem signOf_of_isDigit {b : UInt8} (h : Ascii.isDigit b = true) (s : Bytes) :
    signOf (b :: s) = (false, b :: s) := by
  unfold signOf
  split
  · rename_i heq
    rw [(List.cons.inj heq).1] at h
    exact absurd h (by decide)
  · rename_i heq
    rw [(List.cons.inj heq).1] at h
    exact absurd h (by decide)
  · rfl

theorem readExponent_mark_eq {mark : Char} (hmark : mark ∈ ['e', 'E']) (s : Bytes) :
    readExponent (mark.toNat.toUInt8 :: s) = match readDigits (signOf s).2 with
      | ([], _) => none
      | (digits, r) => some (some ((signOf s).1, digits), r) := by
  simp only [List.mem_cons, List.not_mem_nil, or_false] at hmark
  rcases hmark with rfl | rfl <;> rfl

/-- A mark and a sign take the reading of an exponent to its digits. -/
theorem readExponent_mark {mark : Char} (hmark : mark ∈ ['e', 'E']) {s t rest : Bytes}
    {negative : Bool} {digits : List Nat} (hsign : signOf s = (negative, t))
    (hdigits : readDigits t = (digits, rest)) (hne : digits ≠ []) :
    readExponent (mark.toNat.toUInt8 :: s) = some (some (negative, digits), rest) := by
  rw [readExponent_mark_eq hmark, hsign, hdigits]
  rcases digits with - | ⟨d, digits⟩
  · exact absurd rfl hne
  · rfl

/-- Digits begin with none of the other bytes of a numeral. -/
theorem digitsBytes_cons {digits : List Nat} (h : AreDigits digits) :
    ∃ b bs, Bytes.ofChars (digitsText digits) = b :: bs ∧ Ascii.isDigit b = true := by
  rcases digits with - | ⟨d, digits⟩
  · exact absurd rfl h.1
  · exact ⟨_, _, ofChars_digitsText h.2, (digitChar_lt (h.2 d List.mem_cons_self)).2.1⟩

theorem mark_lt {mark : Char} (h : mark ∈ ['e', 'E']) : mark.toNat < 0x80 := by
  simp only [List.mem_cons, List.not_mem_nil, or_false] at h
  rcases h with rfl | rfl <;> decide

/-- An exponent is read back, with or without a sign. -/
theorem readExponent_of_spells {exponent : Option (Bool × List Nat)} {t : List Char}
    (h : SpellsExponent exponent t) {rest : Bytes} (hrest : EndsNumeral rest) :
    readExponent (Bytes.ofChars t ++ rest) = some (exponent, rest) := by
  rcases h with - | @⟨mark, digits, hmark, h⟩ | @⟨mark, digits, hmark, h⟩ |
    @⟨mark, digits, hmark, h⟩
  -- no exponent is written, and what follows starts none
  · rcases rest with - | ⟨b, rest⟩
    · rfl
    · obtain ⟨-, -, hsmall, hcapital⟩ := hrest b rfl
      show readExponent (b :: rest) = _
      unfold readExponent
      split
      · rename_i heq
        exact absurd (List.cons.inj heq).1 hsmall
      · rename_i heq
        exact absurd (List.cons.inj heq).1 hcapital
      · rfl
  · rw [Bytes.ofChars_cons_of_lt (mark_lt hmark), List.cons_append]
    refine readExponent_mark hmark ?_ (readDigits_digitsText h.2 hrest.endsDigits) h.1
    obtain ⟨b, bs, hbytes, hb⟩ := digitsBytes_cons h
    rw [hbytes, List.cons_append]
    exact signOf_of_isDigit hb _
  · rw [Bytes.ofChars_cons_of_lt (mark_lt hmark), List.cons_append,
      Bytes.ofChars_cons_of_lt (by decide)]
    exact readExponent_mark hmark rfl (readDigits_digitsText h.2 hrest.endsDigits) h.1
  · rw [Bytes.ofChars_cons_of_lt (mark_lt hmark), List.cons_append,
      Bytes.ofChars_cons_of_lt (by decide)]
    exact readExponent_mark hmark rfl (readDigits_digitsText h.2 hrest.endsDigits) h.1

/-! ### What follows a part -/

/-- An exponent, or what follows it, carries neither the digits nor the fraction on. -/
theorem endsDigits_exponent {exponent : Option (Bool × List Nat)} {t : List Char}
    (h : SpellsExponent exponent t) {rest : Bytes} (hrest : EndsNumeral rest) :
    EndsDigits (Bytes.ofChars t ++ rest) ∧ (Bytes.ofChars t ++ rest).head? ≠ some Ascii.dot := by
  -- both marks end the digits before them
  have hmarked : ∀ {mark : Char}, mark ∈ ['e', 'E'] → ∀ (u : List Char),
      EndsDigits (Bytes.ofChars (mark :: u) ++ rest) ∧
        (Bytes.ofChars (mark :: u) ++ rest).head? ≠ some Ascii.dot := by
    intro mark hmark u
    rw [Bytes.ofChars_cons_of_lt (mark_lt hmark), List.cons_append]
    simp only [List.mem_cons, List.not_mem_nil, or_false] at hmark
    rcases hmark with rfl | rfl
    all_goals
      refine ⟨fun b hb => ?_, fun hdot => absurd (Option.some.inj hdot) (by decide)⟩
      obtain rfl := Option.some.inj hb
      decide
  rcases h with - | ⟨hmark, -⟩ | ⟨hmark, -⟩ | ⟨hmark, -⟩
  · exact ⟨hrest.endsDigits, fun hdot => (hrest _ hdot).2.1 rfl⟩
  · exact hmarked hmark _
  · exact hmarked hmark _
  · exact hmarked hmark _

theorem endsDigits_fraction {digits : List Nat} {t : List Char} (h : SpellsFraction digits t)
    {rest : Bytes} (hrest : EndsDigits rest) : EndsDigits (Bytes.ofChars t ++ rest) := by
  rcases h with - | -
  · exact hrest
  · rw [Bytes.ofChars_cons_of_lt (by decide)]
    intro b hb
    obtain rfl := Option.some.inj hb
    decide

/-! ### Numerals -/

/-- The first byte of a numeral: a digit or the sign. -/
def BeginsNumeral (b : UInt8) : Prop := Ascii.isDigit b = true ∨ b = Ascii.minus

theorem ofChars_numeral {n : Numeral} {t : List Char} (h : SpellsNumeral n t) :
    ∃ b bs, Bytes.ofChars t = b :: bs ∧ BeginsNumeral b := by
  rcases h with @⟨negative, whole, fraction, exponent, t, u, hwhole, -, -⟩
  obtain ⟨b, bs, hbytes, hb⟩ := digitsBytes_cons hwhole.1
  rcases negative with - | -
  · refine ⟨b, bs ++ Bytes.ofChars t ++ Bytes.ofChars u, ?_, Or.inl hb⟩
    show Bytes.ofChars (digitsText whole ++ t ++ u) = _
    rw [Bytes.ofChars_append, Bytes.ofChars_append, hbytes]
    rfl
  · refine ⟨Ascii.minus, Bytes.ofChars (digitsText whole ++ t ++ u), ?_, Or.inr rfl⟩
    exact Bytes.ofChars_cons_of_lt (by decide) _

/-- The parts after the sign. -/
theorem readParts {whole fraction : List Nat} {exponent : Option (Bool × List Nat)}
    {t u : List Char} (hwhole : AreWhole whole) (hfraction : SpellsFraction fraction t)
    (hexponent : SpellsExponent exponent u) {rest : Bytes} (hrest : EndsNumeral rest)
    (negative : Bool) :
    (do
      let (whole, s) ← readWhole (Bytes.ofChars (digitsText whole ++ t ++ u) ++ rest)
      let (fraction, s) ← readFraction s
      let (exponent, s) ← readExponent s
      return (Numeral.mk negative whole fraction exponent, s))
      = some (⟨negative, whole, fraction, exponent⟩, rest) := by
  -- each part ends where the next begins
  obtain ⟨hends, hdot⟩ := endsDigits_exponent hexponent hrest
  rw [Bytes.ofChars_append, Bytes.ofChars_append, List.append_assoc, List.append_assoc,
    readWhole_digitsText hwhole (endsDigits_fraction hfraction hends)]
  simp [readFraction_of_spells hfraction hends hdot, readExponent_of_spells hexponent hrest]

/-- A numeral is read back, up to what follows it. -/
theorem readNumeral_of_spells {n : Numeral} {t : List Char} (h : SpellsNumeral n t) {rest : Bytes}
    (hrest : EndsNumeral rest) : readNumeral (Bytes.ofChars t ++ rest) = some (n, rest) := by
  rcases h with @⟨negative, whole, fraction, exponent, t, u, hwhole, hfraction, hexponent⟩
  have hparts := readParts hwhole hfraction hexponent hrest negative
  rcases negative with - | -
  · -- the first byte is a digit and no sign
    obtain ⟨b, bs, hbytes, hb⟩ := digitsBytes_cons hwhole.1
    show readNumeral (Bytes.ofChars (digitsText whole ++ t ++ u) ++ rest) = _
    rw [Bytes.ofChars_append, Bytes.ofChars_append, hbytes] at hparts ⊢
    unfold readNumeral
    split
    rename_i negative s hsign
    split at hsign
    · rename_i heq
      rw [(List.cons.inj heq).1] at hb
      exact absurd hb (by decide)
    · cases hsign
      exact hparts
  · show readNumeral (Bytes.ofChars ('-' :: (digitsText whole ++ t ++ u)) ++ rest) = _
    rw [Bytes.ofChars_cons_of_lt (by decide)]
    exact hparts

/-- A numeral is read as its value. -/
theorem readNumber_of_spells {n : Numeral} {t : List Char} (h : SpellsNumeral n t) {rest : Bytes}
    (hrest : EndsNumeral rest) :
    readNumber (Bytes.ofChars t ++ rest) = (.number n.value?, some rest) := by
  rw [readNumber, readNumeral_of_spells h hrest]

/-! ### Integers -/

/-- The values of the decimal digits of a number. -/
def digitsOf (n : Nat) : List Nat := (Nat.toDigits 10 n).map fun c => c.toNat - '0'.toNat

theorem digitsValue_digitsOf (n : Nat) : Numeral.digitsValue (digitsOf n) = n := by
  rw [Numeral.digitsValue, digitsOf, List.foldl_map]
  exact Text.foldl_toDigits n

/-- A positive number does not begin with a zero. -/
theorem digitsOf_of_pos {n : Nat} (h : 0 < n) : ∃ d ds, digitsOf n = (d + 1) :: ds := by
  induction n using Nat.strongRecOn with
  | ind n ih =>
    by_cases hlt : n < 10
    · refine ⟨n - 1, [], ?_⟩
      rw [digitsOf, Nat.toDigits_of_lt_base hlt, List.map_singleton,
        show '0'.toNat = 48 from rfl, Nat.toNat_digitChar_sub_48_of_lt_ten hlt]
      rw [Nat.sub_add_cancel h]
    -- the first digit of a longer number is that of its tenth
    · obtain ⟨d, ds, hds⟩ := ih (n / 10) (by omega) (by omega)
      refine ⟨d, ds ++ [(Nat.digitChar (n % 10)).toNat - '0'.toNat], ?_⟩
      rw [digitsOf, Nat.toDigits_of_base_le (by decide) (Nat.not_lt.mp hlt), List.map_append,
        ← digitsOf, hds]
      rfl

theorem digitsText_digitsOf (n : Nat) : digitsText (digitsOf n) = Nat.toDigits 10 n := by
  rw [digitsText, digitsOf, List.map_map]
  refine (List.map_congr_left fun c hc => ?_).trans (List.map_id _)
  obtain ⟨hlo, hhi⟩ := Text.isDigit_bounds (Text.isDigit_of_mem_toDigits hc)
  have hdigit : (Nat.digitChar (c.toNat - 48)).toNat = 48 + (c.toNat - 48) :=
    Nat.toNat_digitChar_of_lt_ten (by omega)
  have hcode : 48 + (c.toNat - 48) = c.toNat := by omega
  exact Char.toNat_inj.mp (hdigit.trans hcode)

/-- The digits of a number have no leading zero. -/
theorem areWhole_digitsOf (n : Nat) : AreWhole (digitsOf n) := by
  refine ⟨⟨?_, ?_⟩, ?_⟩
  · intro h
    exact Nat.toDigits_ne_nil (List.map_eq_nil_iff.mp h)
  · intro d hd
    obtain ⟨c, hc, rfl⟩ := List.mem_map.mp hd
    have hbounds := Text.isDigit_bounds (Text.isDigit_of_mem_toDigits hc)
    show c.toNat - 48 < 10
    omega
  · intro h
    rcases Nat.eq_zero_or_pos n with rfl | hpos
    · rfl
    · obtain ⟨d, ds, hds⟩ := digitsOf_of_pos hpos
      rw [hds] at h
      cases h

/-- A written integer is a numeral of its value. -/
theorem spellsNumeral_int {n : Int} (hn : FitsWord n) :
    ∃ m : Numeral, SpellsNumeral m (Number.text (.int n)) ∧ m.value? = some (.int n) := by
  obtain ⟨hlo, hhi⟩ := hn
  rw [Number.text, Text.toList_toString]
  split
  · rename_i hsign
    refine ⟨⟨false, digitsOf n.toNat, [], none⟩, ?_, ?_⟩
    · have h : SpellsNumeral ⟨false, digitsOf n.toNat, [], none⟩
          (signText false ++ digitsText (digitsOf n.toNat) ++ [] ++ []) :=
        .mk (areWhole_digitsOf n.toNat) .none .none
      rw [digitsText_digitsOf, List.append_nil, List.append_nil] at h
      exact h
    · have hcap : n.toNat ≤ Numeral.capacity := by
        show n.toNat ≤ UInt64.size - 1
        omega
      simp [Numeral.value?, digitsValue_digitsOf, hcap, Int.toNat_of_nonneg hsign]
  · rename_i hsign
    refine ⟨⟨true, digitsOf (-n).toNat, [], none⟩, ?_, ?_⟩
    · have h : SpellsNumeral ⟨true, digitsOf (-n).toNat, [], none⟩
          (signText true ++ digitsText (digitsOf (-n).toNat) ++ [] ++ []) :=
        .mk (areWhole_digitsOf (-n).toNat) .none .none
      rw [digitsText_digitsOf, List.append_nil, List.append_nil] at h
      exact h
    -- the least number has no positive counterpart, and half the word size is its magnitude
    · have hrange : 0 < (-n).toNat ∧ (-n).toNat ≤ UInt64.size / 2 := by
        rw [Int64.toInt_minValue] at hlo
        show _ ∧ _ ≤ 9223372036854775808
        omega
      have hnat : ((-n).toNat : Int) = -n := Int.toNat_of_nonneg (by omega)
      simp only [Numeral.value?, digitsValue_digitsOf, if_pos hrange, hnat, Int.neg_neg]
      rfl

end TrustStore.Json
