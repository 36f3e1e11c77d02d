import RecordWalk.Proofs.Decimal.Forms
import RecordWalk.Proofs.Double.RoundTrip

/-!
# The grammar of numerals

What a text may say as a number, written down as a grammar without a word on how it is read.

* `IsTrimmed` takes the blanks off at both ends, as many as there are. A blank is one of the code
  points listed in `blankPoints`.
* `Decimal.Literal` is a mantissa and perhaps a power of ten. It comes with the rational number that
  it denotes, computed part by part: whole digits, digits behind the point, power.
* `Radix.Literal` is a mark and digits of its radix.
* `Numeral.Accepted` is nothing at all, a radix literal, or a sign with `Infinity` or a decimal
  literal.

**Theorem (`Numeral.isSome_parseTrimmed?_iff`).** Reading accepts exactly the texts of the grammar.

**Theorem (`Numeral.DecimalText.exists_parse?`).** A signed literal is read as its sign and a
decimal with the value that the literal denotes.

Reading cuts a text at the first character that is no digit. So a literal, which is put together
from its parts, has to be cut just where they meet: a power never begins with a digit or a point,
and digits and literals never begin with a sign.
-/

namespace RecordWalk

/-! ## Blanks at both ends -/

/-- The code points of white space and line ends. -/
def blankPoints : List Nat :=
  [0x09, 0x0a, 0x0b, 0x0c, 0x0d, 0x20, 0xa0, 0x1680, 0x2000, 0x2001, 0x2002, 0x2003, 0x2004, 0x2005,
    0x2006, 0x2007, 0x2008, 0x2009, 0x200a, 0x2028, 0x2029, 0x202f, 0x205f, 0x3000, 0xfeff]

def Blank (c : Char) : Prop := c.toNat ∈ blankPoints

theorem isBlank_iff {c : Char} : isBlank c = true ↔ Blank c := by
  unfold isBlank Blank blankPoints
  simp only [Bool.or_eq_true, Bool.and_eq_true, decide_eq_true_eq, List.mem_cons, List.not_mem_nil,
    or_false]
  omega

theorem isBlank_eq_false_iff {c : Char} : isBlank c = false ↔ ¬ Blank c := by
  rw [← isBlank_iff, Bool.not_eq_true]

/-- `t` stands in `cs` between blanks, and neither begins nor ends with one. -/
def IsTrimmed (cs t : List Char) : Prop :=
  ∃ before after, cs = before ++ t ++ after ∧ (∀ c ∈ before, Blank c) ∧ (∀ c ∈ after, Blank c) ∧
    (∀ c, t.head? = some c → ¬ Blank c) ∧ ∀ c, t.getLast? = some c → ¬ Blank c

theorem dropWhile_isBlank {cs : List Char} (h : ∀ c, cs.head? = some c → ¬ Blank c) :
    cs.dropWhile isBlank = cs := by
  cases cs with
  | nil => rfl
  | cons c cs => exact List.dropWhile_cons_of_neg fun hc => h c rfl (isBlank_iff.1 hc)

theorem head?_dropWhile_isBlank (cs : List Char) {c : Char}
    (h : (cs.dropWhile isBlank).head? = some c) : ¬ Blank c := by
  have hnot := List.head?_dropWhile_not isBlank cs
  rw [h] at hnot
  exact isBlank_eq_false_iff.1 hnot

theorem blank_of_mem_takeWhile {cs : List Char} {c : Char} (h : c ∈ cs.takeWhile isBlank) :
    Blank c :=
  isBlank_iff.1 (List.mem_takeWhile_imp h)

theorem IsTrimmed.eq_trimBlank {cs t : List Char} (h : IsTrimmed cs t) : t = trimBlank cs := by
  obtain ⟨before, after, rfl, hbefore, hafter, hhead, hlast⟩ := h
  simp only [← isBlank_iff] at hbefore hafter
  have hfront : (before ++ t ++ after).dropWhile isBlank = (t ++ after).dropWhile isBlank := by
    rw [List.append_assoc, List.dropWhile_append_of_pos hbefore]
  rw [trimBlank, hfront]
  cases t with
  | nil =>
    have hempty : after.dropWhile isBlank = [] := List.dropWhile_eq_nil_iff.2 hafter
    rw [List.nil_append, hempty]
    rfl
  | cons c t =>
    have hkeep : (c :: t ++ after).dropWhile isBlank = c :: t ++ after := dropWhile_isBlank hhead
    have hreverse : ∀ c ∈ after.reverse, isBlank c = true :=
      fun c hc => hafter c (List.mem_reverse.1 hc)
    have hback : (c :: t).reverse.dropWhile isBlank = (c :: t).reverse :=
      dropWhile_isBlank (by rwa [List.head?_reverse])
    rw [hkeep, List.reverse_append, List.dropWhile_append_of_pos hreverse, hback,
      List.reverse_reverse]

theorem isTrimmed_trimBlank (cs : List Char) : IsTrimmed cs (trimBlank cs) := by
  have hfront := List.takeWhile_append_dropWhile (p := isBlank) (l := cs)
  have hback := List.takeWhile_append_dropWhile (p := isBlank)
    (l := (cs.dropWhile isBlank).reverse)
  have hcut : cs.dropWhile isBlank =
      trimBlank cs ++ ((cs.dropWhile isBlank).reverse.takeWhile isBlank).reverse := by
    rw [trimBlank, ← List.reverse_append, hback, List.reverse_reverse]
  refine ⟨cs.takeWhile isBlank, ((cs.dropWhile isBlank).reverse.takeWhile isBlank).reverse, ?_,
    fun c hc => blank_of_mem_takeWhile hc, fun c hc => ?_, fun c hc => ?_, fun c hc => ?_⟩
  · rw [List.append_assoc, ← hcut, hfront]
  · exact blank_of_mem_takeWhile (List.mem_reverse.1 hc)
  · apply head?_dropWhile_isBlank cs
    rw [hcut, List.head?_append, hc]
    rfl
  · apply head?_dropWhile_isBlank (cs.dropWhile isBlank).reverse
    rwa [← List.getLast?_reverse]

/-- A text has one trimmed form, the one that reading takes. -/
theorem isTrimmed_iff {cs t : List Char} : IsTrimmed cs t ↔ t = trimBlank cs :=
  ⟨IsTrimmed.eq_trimBlank, fun h => h ▸ isTrimmed_trimBlank cs⟩

/-! ## Signs -/

/-- The text of an optional sign, and whether it is a minus. -/
inductive Sign : List Char → Bool → Prop
  | absent : Sign [] false
  | plus : Sign ['+'] false
  | minus : Sign ['-'] true

/-- Does not begin with a sign. -/
def Unsigned (cs : List Char) : Prop := cs.head? ≠ some '+' ∧ cs.head? ≠ some '-'

theorem exists_sign_of_splitSign (cs : List Char) :
    ∃ sign, Sign sign (splitSign cs).1 ∧ cs = sign ++ (splitSign cs).2 := by
  unfold splitSign
  split
  · exact ⟨['+'], .plus, rfl⟩
  · exact ⟨['-'], .minus, rfl⟩
  · exact ⟨[], .absent, rfl⟩

theorem splitSign_of_unsigned {cs : List Char} (h : Unsigned cs) : splitSign cs = (false, cs) := by
  unfold splitSign
  split
  · exact absurd rfl h.1
  · exact absurd rfl h.2
  · rfl

theorem Sign.splitSign_append {sign cs : List Char} {negative : Bool} (h : Sign sign negative)
    (hcs : Unsigned cs) : splitSign (sign ++ cs) = (negative, cs) := by
  cases h with
  | absent => exact splitSign_of_unsigned hcs
  | plus => rfl
  | minus => rfl

theorem unsigned_cons {c : Char} (h : c ≠ '+' ∧ c ≠ '-') (cs : List Char) : Unsigned (c :: cs) := by
  unfold Unsigned
  simpa using h

theorem unsigned_of_isDigit {c : Char} (h : c.isDigit = true) (cs : List Char) :
    Unsigned (c :: cs) := by
  apply unsigned_cons
  constructor
  · rintro rfl
    cases h
  · rintro rfl
    cases h

/-! ## Decimal literals -/

namespace Decimal

/-- Any number of digits. -/
def AreDigits (cs : List Char) : Prop := ∀ c ∈ cs, c.isDigit = true

instance (cs : List Char) : Decidable (AreDigits cs) :=
  decidable_of_iff (cs.all Char.isDigit = true) List.all_eq_true

instance (cs : List Char) : Decidable (IsDigits cs) :=
  inferInstanceAs (Decidable (cs ≠ [] ∧ AreDigits cs))

/-- Digits with an optional point, and the number that they denote. -/
inductive Mantissa : List Char → ℚ → Prop
  | whole {ws : List Char} : IsDigits ws → Mantissa ws (digitsValue ws)
  | point {ws fs : List Char} : IsDigits ws → AreDigits fs →
      Mantissa (ws ++ '.' :: fs) (digitsValue ws + digitsValue fs / 10 ^ fs.length)
  | fraction {fs : List Char} : IsDigits fs →
      Mantissa ('.' :: fs) (digitsValue fs / 10 ^ fs.length)

/-- The mark of a power of ten with its signed digits, or nothing, and the exponent. -/
inductive Power : List Char → ℤ → Prop
  | absent : Power [] 0
  | mark {c : Char} {sign es : List Char} {negative : Bool} : c = 'e' ∨ c = 'E' →
      Sign sign negative → IsDigits es →
      Power (c :: (sign ++ es)) (if negative then -(digitsValue es : ℤ) else digitsValue es)

/-- A mantissa and a power of ten, and the number that they denote. -/
inductive Literal : List Char → ℚ → Prop
  | mk {ms ps : List Char} {q : ℚ} {k : ℤ} : Mantissa ms q → Power ps k →
      Literal (ms ++ ps) (q * 10 ^ k)

theorem IsDigits.unsigned {cs : List Char} (h : IsDigits cs) : Unsigned cs := by
  obtain ⟨c, cs, rfl⟩ := List.exists_cons_of_ne_nil h.1
  exact unsigned_of_isDigit (h.2 c List.mem_cons_self) cs

theorem isDigits_iff {cs : List Char} :
    IsDigits cs ↔ (cs.isEmpty || !cs.all Char.isDigit) = false := by
  simp [IsDigits]

/-! ### Powers -/

/-- **A power of ten is read as its exponent.** -/
theorem parsePower?_eq_some_iff {cs : List Char} {k : ℤ} :
    parsePower? cs = some k ↔ Power cs k := by
  constructor
  · intro h
    cases cs with
    | nil =>
      obtain rfl : 0 = k := Option.some.inj h
      exact .absent
    | cons c cs =>
      obtain ⟨sign, hsign, hcs⟩ := exists_sign_of_splitSign cs
      simp only [parsePower?] at h
      split at h
      next hc =>
        split at h
        next => cases h
        next hdigits =>
          rw [Bool.not_eq_true] at hdigits
          have hpower := Power.mark hc hsign (isDigits_iff.2 hdigits)
          rwa [← hcs, Option.some.inj h] at hpower
      next => cases h
  · intro h
    cases h with
    | absent => rfl
    | mark hc hsign hes =>
      rw [parsePower?, if_pos hc]
      simp only [hsign.splitSign_append hes.unsigned, isDigits_iff.1 hes]
      rfl

theorem Power.takeWhile_isDigit {cs : List Char} {k : ℤ} (h : Power cs k) :
    cs.takeWhile Char.isDigit = [] := by
  cases h with
  | absent => rfl
  | mark hc => rcases hc with rfl | rfl <;> rfl

theorem Power.head?_ne_point {cs : List Char} {k : ℤ} (h : Power cs k) : cs.head? ≠ some '.' := by
  cases h with
  | absent => simp
  | mark hc => rcases hc with rfl | rfl <;> simp

/-! ### The value of digits around a point -/

theorem digitsValue_append (ws fs : List Char) :
    digitsValue (ws ++ fs) = 10 ^ fs.length * digitsValue ws + digitsValue fs := by
  unfold digitsValue
  rw [Nat.ofDigitChars_append, Nat.ofDigitChars_eq_ofDigitChars_zero]

theorem toRat_point (ws fs : List Char) (k : ℤ) :
    toRat ⟨digitsValue (ws ++ fs), k - fs.length⟩ =
      (digitsValue ws + digitsValue fs / 10 ^ fs.length) * 10 ^ k := by
  have hten : (10 : ℚ) ^ fs.length ≠ 0 := by positivity
  rw [toRat, digitsValue_append, zpow_sub₀ (by norm_num), zpow_natCast, add_div' _ _ _ hten]
  push_cast
  ring

/-! ### Literals -/

theorem Literal.exists_parse? {cs : List Char} {q : ℚ} (h : Literal cs q) :
    ∃ d, parse? cs = some d ∧ d.toRat = q := by
  obtain @⟨ms, ps, q, k, hmantissa, hpower⟩ := h
  have hparse := parsePower?_eq_some_iff.2 hpower
  have hdigits := hpower.takeWhile_isDigit
  cases hmantissa with
  | whole hws =>
    refine ⟨⟨digitsValue ms, k⟩, ?_, rfl⟩
    rw [parse?_whole _ _ hws.2 hws.1 hdigits hpower.head?_ne_point, hparse]
    rfl
  | @point ws fs hws hfs =>
    refine ⟨_, ?_, toRat_point ws fs _⟩
    rw [List.append_assoc, List.cons_append,
      parse?_point ws fs _ hws.2 hfs (by simp [hws.1]) hdigits, hparse]
    rfl
  | @fraction fs hfs =>
    refine ⟨_, ?_, (toRat_point [] fs k).trans ?_⟩
    · have hcut := parse?_point [] fs _ (by simp) hfs.2 hfs.1 hdigits
      rw [hparse] at hcut
      exact hcut
    · simp [digitsValue]

/-- How the rest of a literal is cut: behind a point and its digits, or not at all. -/
theorem splitFraction_cases (cs : List Char) :
    (∃ fs rest, AreDigits fs ∧ cs = '.' :: (fs ++ rest) ∧ splitFraction cs = (fs, rest)) ∨
      splitFraction cs = ([], cs) := by
  unfold splitFraction
  split
  next cs =>
    refine Or.inl ⟨cs.takeWhile Char.isDigit, cs.dropWhile Char.isDigit, ?_, ?_, rfl⟩
    · exact fun c hc => List.mem_takeWhile_imp hc
    · rw [List.takeWhile_append_dropWhile]
  next => exact Or.inr rfl

theorem literal_of_parse? {cs : List Char} {d : Decimal} (h : parse? cs = some d) :
    Literal cs d.toRat := by
  have hcs := List.takeWhile_append_dropWhile (p := Char.isDigit) (l := cs)
  have hws : AreDigits (cs.takeWhile Char.isDigit) := fun c hc => List.mem_takeWhile_imp hc
  unfold parse? at h
  generalize cs.takeWhile Char.isDigit = ws at h hcs hws
  generalize cs.dropWhile Char.isDigit = tail at h hcs
  subst hcs
  rcases splitFraction_cases tail with ⟨fs, rest, hfs, rfl, hsplit⟩ | hsplit
  · simp only [hsplit] at h
    split_ifs at h with hempty
    obtain ⟨k, hk, rfl⟩ := Option.map_eq_some_iff.1 h
    rw [toRat_point, ← List.cons_append, ← List.append_assoc]
    refine .mk ?_ (parsePower?_eq_some_iff.1 hk)
    by_cases hne : ws = []
    · subst hne
      have hvalue : ((digitsValue [] : ℕ) : ℚ) = 0 := by simp [digitsValue]
      rw [hvalue, zero_add]
      exact .fraction ⟨by simpa using hempty, hfs⟩
    · exact .point ⟨hne, hws⟩ hfs
  · simp only [hsplit] at h
    split_ifs at h with hempty
    obtain ⟨k, hk, rfl⟩ := Option.map_eq_some_iff.1 h
    rw [List.append_nil, List.length_nil, Nat.cast_zero, sub_zero]
    exact .mk (.whole ⟨by simpa using hempty, hws⟩) (parsePower?_eq_some_iff.1 hk)

end Decimal

/-! ## Radix literals -/

namespace Radix

/-- The letters that announce a radix. -/
def marks : Radix → List Char
  | binary => ['b', 'B']
  | octal => ['o', 'O']
  | hexadecimal => ['x', 'X']

/-- The digits of a radix. -/
def isDigit : Radix → Char → Bool
  | binary, c => '0' ≤ c && c ≤ '1'
  | octal, c => '0' ≤ c && c ≤ '7'
  | hexadecimal, c => ('0' ≤ c && c ≤ '9') || ('a' ≤ c && c ≤ 'f') || ('A' ≤ c && c ≤ 'F')

/-- A zero, a mark, and one or more digits of the radix. -/
inductive Literal (r : Radix) : List Char → Prop
  | mk {mark : Char} {ds : List Char} : mark ∈ r.marks → ds ≠ [] →
      (∀ c ∈ ds, r.isDigit c = true) → Literal r ('0' :: mark :: ds)

theorem ofMark?_eq_some_iff {c : Char} {r : Radix} : ofMark? c = some r ↔ c ∈ r.marks := by
  unfold ofMark?
  constructor
  · intro h
    split_ifs at h with hx ho hb
    · obtain rfl := Option.some.inj h
      simpa [marks] using hx
    · obtain rfl := Option.some.inj h
      simpa [marks] using ho
    · obtain rfl := Option.some.inj h
      simpa [marks] using hb
  · intro h
    cases r with
    | binary | octal | hexadecimal =>
      simp only [marks, List.mem_cons, List.not_mem_nil, or_false] at h
      rcases h with rfl | rfl <;> rfl

theorem isSome_digit?_iff (r : Radix) (c : Char) :
    (r.digit? c).isSome = true ↔ r.isDigit c = true := by
  have hle (a b : Char) : a ≤ b ↔ a.toNat ≤ b.toNat := UInt32.le_iff_toNat_le
  have hvalue : (r.digit? c).isSome = true ↔ ∃ v, digitValue? c = some v ∧ v < r.base := by
    simp [digit?, Option.isSome_filter, Option.any_eq_true]
  rw [hvalue, digitValue?]
  simp only [Char.isDigit_iff_toNat, hle, Char.reduceToNat]
  cases r with
  | binary | octal | hexadecimal =>
    simp only [isDigit, base, hle, Char.reduceToNat, Bool.or_eq_true, Bool.and_eq_true,
      decide_eq_true_eq]
    split_ifs with hdigit hlower hupper
    all_goals
      simp
      omega

theorem isSome_mapM_digit?_iff (r : Radix) (cs : List Char) :
    (cs.mapM r.digit?).isSome = true ↔ ∀ c ∈ cs, r.isDigit c = true := by
  induction cs with
  | nil => simp
  | cons c cs ih =>
    rw [List.mapM_cons, List.forall_mem_cons, ← ih, ← isSome_digit?_iff]
    cases r.digit? c with
    | none => simp
    | some d => cases cs.mapM r.digit? <;> simp

theorem isSome_digits?_iff (r : Radix) (cs : List Char) :
    (r.digits? cs).isSome = true ↔ cs ≠ [] ∧ ∀ c ∈ cs, r.isDigit c = true := by
  rw [digits?, ← isSome_mapM_digit?_iff]
  cases cs with
  | nil => simp
  | cons c cs => simp

theorem ofMark?_of_isDigit {c : Char} (h : c.isDigit = true) : ofMark? c = none :=
  ofMark?_of_isLiteralChar (isLiteralChar_of_isDigit h)

end Radix

theorem Sign.ofMark?_eq_none {sign : List Char} {negative : Bool} (h : Sign sign negative)
    {c : Char} (hc : c ∈ sign) : Radix.ofMark? c = none := by
  cases h with
  | absent => cases hc
  | plus | minus =>
    obtain rfl := List.mem_singleton.1 hc
    rfl

namespace Decimal

theorem IsDigits.ofMark?_eq_none {cs : List Char} (h : IsDigits cs) {c : Char} (hc : c ∈ cs) :
    Radix.ofMark? c = none :=
  Radix.ofMark?_of_isDigit (h.2 c hc)

theorem Mantissa.ofMark?_eq_none {cs : List Char} {q : ℚ} (h : Mantissa cs q) {c : Char}
    (hc : c ∈ cs) : Radix.ofMark? c = none := by
  cases h with
  | whole hws => exact hws.ofMark?_eq_none hc
  | point hws hfs =>
    rcases List.mem_append.1 hc with hc | hc
    · exact hws.ofMark?_eq_none hc
    · rcases List.mem_cons.1 hc with rfl | hc
      · rfl
      · exact Radix.ofMark?_of_isDigit (hfs c hc)
  | fraction hfs =>
    rcases List.mem_cons.1 hc with rfl | hc
    · rfl
    · exact hfs.ofMark?_eq_none hc

theorem Power.ofMark?_eq_none {cs : List Char} {k : ℤ} (h : Power cs k) {c : Char} (hc : c ∈ cs) :
    Radix.ofMark? c = none := by
  cases h with
  | absent => cases hc
  | mark he hsign hes =>
    rcases List.mem_cons.1 hc with rfl | hc
    · rcases he with rfl | rfl <;> rfl
    · rcases List.mem_append.1 hc with hc | hc
      · exact hsign.ofMark?_eq_none hc
      · exact hes.ofMark?_eq_none hc

theorem Literal.ofMark?_eq_none {cs : List Char} {q : ℚ} (h : Literal cs q) {c : Char}
    (hc : c ∈ cs) : Radix.ofMark? c = none := by
  obtain ⟨hmantissa, hpower⟩ := h
  rcases List.mem_append.1 hc with hc | hc
  · exact hmantissa.ofMark?_eq_none hc
  · exact hpower.ofMark?_eq_none hc

/-- A literal begins with a digit or a point. -/
theorem Literal.eq_cons {cs : List Char} {q : ℚ} (h : Literal cs q) :
    ∃ c rest, cs = c :: rest ∧ (c.isDigit = true ∨ c = '.') := by
  obtain ⟨hmantissa, -⟩ := h
  cases hmantissa with
  | whole hws | point hws =>
    obtain ⟨c, ws, rfl⟩ := List.exists_cons_of_ne_nil hws.1
    exact ⟨c, _, rfl, Or.inl (hws.2 c List.mem_cons_self)⟩
  | fraction => exact ⟨'.', _, rfl, Or.inr rfl⟩

end Decimal

/-! ## Numerals -/

namespace Numeral

/-- What may follow a sign. -/
def Body (cs : List Char) : Prop := cs = "Infinity".toList ∨ ∃ q, Decimal.Literal cs q

/-- The texts that are numerals, without blanks at their ends. -/
inductive Accepted : List Char → Prop
  | blank : Accepted []
  | radix {r : Radix} {cs : List Char} : r.Literal cs → Accepted cs
  | signed {sign cs : List Char} {negative : Bool} :
      Sign sign negative → Body cs → Accepted (sign ++ cs)

theorem Body.eq_cons {cs : List Char} (h : Body cs) :
    ∃ c rest, cs = c :: rest ∧ (c.isDigit = true ∨ c = '.' ∨ c = 'I') := by
  rcases h with rfl | ⟨q, h⟩
  · exact ⟨'I', "nfinity".toList, rfl, Or.inr (Or.inr rfl)⟩
  · obtain ⟨c, rest, rfl, hc⟩ := h.eq_cons
    exact ⟨c, rest, rfl, hc.imp_right Or.inl⟩

theorem Body.unsigned {cs : List Char} (h : Body cs) : Unsigned cs := by
  obtain ⟨c, rest, rfl, hc | rfl | rfl⟩ := h.eq_cons
  · exact unsigned_of_isDigit hc rest
  · exact unsigned_cons (by decide) rest
  · exact unsigned_cons (by decide) rest

theorem Body.ofMark?_eq_none {cs : List Char} (h : Body cs) {c : Char} (hc : c ∈ cs) :
    Radix.ofMark? c = none := by
  rcases h with rfl | ⟨q, h⟩
  · have hall : ("Infinity".toList.all fun c => (Radix.ofMark? c).isNone) = true := by decide
    exact Option.isNone_iff_eq_none.1 (List.all_eq_true.1 hall c hc)
  · exact h.ofMark?_eq_none hc

section

variable {sign cs : List Char} {negative : Bool}

/-- No sign and no literal is mistaken for a radix literal. -/
theorem parseTrimmed?_append (hsign : Sign sign negative) (hcs : Body cs) :
    parseTrimmed? (sign ++ cs) =
      if cs = "Infinity".toList then some (infinity negative)
      else (Decimal.parse? cs).map (decimal negative) := by
  have hne : sign ++ cs ≠ [] := by
    obtain ⟨c, rest, rfl, -⟩ := hcs.eq_cons
    simp
  have hmark (c : Char) (hc : c ∈ sign ++ cs) : Radix.ofMark? c = none :=
    (List.mem_append.1 hc).elim hsign.ofMark?_eq_none hcs.ofMark?_eq_none
  rw [parseTrimmed?_of_forall hne hmark, parseSigned?, hsign.splitSign_append hcs.unsigned]

theorem parseTrimmed?_infinity (hsign : Sign sign negative) :
    parseTrimmed? (sign ++ "Infinity".toList) = some (infinity negative) := by
  rw [parseTrimmed?_append hsign (Or.inl rfl), if_pos rfl]

theorem parseTrimmed?_of_parse? (hsign : Sign sign negative) {d : Decimal}
    (hd : Decimal.parse? cs = some d) : parseTrimmed? (sign ++ cs) = some (decimal negative d) := by
  have hinfinity : cs ≠ "Infinity".toList := by
    rintro rfl
    cases hd
  rw [parseTrimmed?_append hsign (Or.inr ⟨_, Decimal.literal_of_parse? hd⟩), if_neg hinfinity, hd]
  rfl

theorem parseTrimmed?_literal (hsign : Sign sign negative) {q : ℚ} (hcs : Decimal.Literal cs q) :
    ∃ d, parseTrimmed? (sign ++ cs) = some (decimal negative d) ∧ d.toRat = q := by
  obtain ⟨d, hd, hvalue⟩ := hcs.exists_parse?
  exact ⟨d, parseTrimmed?_of_parse? hsign hd, hvalue⟩

end

theorem parseTrimmed?_radix {r : Radix} {cs : List Char} (h : r.Literal cs) :
    ∃ ds, parseTrimmed? cs = some (radix r ds) := by
  obtain ⟨hmark, hne, hdigits⟩ := h
  obtain ⟨ds, hds⟩ := Option.isSome_iff_exists.1 ((r.isSome_digits?_iff _).2 ⟨hne, hdigits⟩)
  refine ⟨ds, ?_⟩
  simp only [parseTrimmed?, Radix.ofMark?_eq_some_iff.2 hmark, hds]
  rfl

theorem accepted_of_parseSigned? {cs : List Char} {n : Numeral} (h : parseSigned? cs = some n) :
    Accepted cs := by
  obtain ⟨sign, hsign, hcs⟩ := exists_sign_of_splitSign cs
  simp only [parseSigned?] at h
  rw [hcs]
  refine .signed hsign ?_
  split_ifs at h with hinfinity
  · exact Or.inl hinfinity
  · obtain ⟨d, hd, -⟩ := Option.map_eq_some_iff.1 h
    exact Or.inr ⟨_, Decimal.literal_of_parse? hd⟩

theorem accepted_of_parseTrimmed? {cs : List Char} {n : Numeral} (h : parseTrimmed? cs = some n) :
    Accepted cs := by
  unfold parseTrimmed? at h
  split at h
  next => exact .blank
  next c cs =>
    cases hmark : Radix.ofMark? c with
    | none =>
      rw [hmark] at h
      exact accepted_of_parseSigned? h
    | some r =>
      rw [hmark] at h
      obtain ⟨ds, hds, -⟩ := Option.map_eq_some_iff.1 h
      have hdigits := (r.isSome_digits?_iff cs).1 (by rw [hds]; rfl)
      exact .radix (.mk (Radix.ofMark?_eq_some_iff.1 hmark) hdigits.1 hdigits.2)
  next => exact accepted_of_parseSigned? h

/-- **Reading accepts exactly the grammar.** -/
theorem isSome_parseTrimmed?_iff {cs : List Char} :
    (parseTrimmed? cs).isSome = true ↔ Accepted cs := by
  constructor
  · intro h
    obtain ⟨n, hn⟩ := Option.isSome_iff_exists.1 h
    exact accepted_of_parseTrimmed? hn
  · intro h
    cases h with
    | blank => rfl
    | radix hr =>
      obtain ⟨ds, hds⟩ := parseTrimmed?_radix hr
      rw [hds]
      rfl
    | signed hsign hcs =>
      rcases hcs with rfl | ⟨q, hcs⟩
      · rw [parseTrimmed?_infinity hsign]
        rfl
      · obtain ⟨d, hd, -⟩ := parseTrimmed?_literal hsign hcs
        rw [hd]
        rfl

theorem parse?_of_isTrimmed {s : String} {t : List Char} (h : IsTrimmed s.toList t) :
    parse? s = parseTrimmed? t := by
  rw [parse?, h.eq_trimBlank]

/-- A signed decimal literal between blanks, and the number that it denotes without its sign. -/
def DecimalText (s : String) (negative : Bool) (q : ℚ) : Prop :=
  ∃ sign cs, IsTrimmed s.toList (sign ++ cs) ∧ Sign sign negative ∧ Decimal.Literal cs q

/-- **A signed literal is read as its sign and the number that it denotes.** -/
theorem DecimalText.exists_parse? {s : String} {negative : Bool} {q : ℚ}
    (h : DecimalText s negative q) : ∃ d, parse? s = some (decimal negative d) ∧ d.toRat = q := by
  obtain ⟨sign, cs, htrimmed, hsign, hcs⟩ := h
  rw [parse?_of_isTrimmed htrimmed]
  exact parseTrimmed?_literal hsign hcs

end Numeral

end RecordWalk
