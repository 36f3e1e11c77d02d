import RecordWalk.Proofs.Numeral.Grammar

/-!
# Reading numerals by byte positions

A text is stored as its UTF-8 bytes, and a scanner that works in place goes by positions in them. It
looks at the first byte for a sign, cuts the text behind it, and walks over digits, point and power
from one position to the next. Each look has to stay within the bytes, and each cut has to fall
between two characters, whatever characters of several bytes the text holds.

`readAt?` is such a scanner. A look beyond the end and a cut within a character make it fail.

**Theorem (`readAt?_eq`).** The scanner never fails, and gives what `Double.read` gives.

What carries the proof is `Remaining bs i cs`: from position `i` on, the bytes are those of the
characters `cs`. A byte that the scanner steps over is an ASCII character, which has no other bytes,
so the step leads to where the next character begins. All bytes of other characters are at least
`128`, and no test of the scanner passes for those.
-/

namespace RecordWalk

/-! ## The scanner -/

/-- The UTF-8 bytes of a text. -/
def utf8Bytes (cs : List Char) : List UInt8 := cs.flatMap String.utf8EncodeChar

namespace ByteScan

def isDigit (b : UInt8) : Bool := '0'.toUInt8 ≤ b && b ≤ '9'.toUInt8

def isPoint (b : UInt8) : Bool := b == '.'.toUInt8

def isPowerMark (b : UInt8) : Bool := b == 'e'.toUInt8 || b == 'E'.toUInt8

def isSign (b : UInt8) : Bool := b == '+'.toUInt8 || b == '-'.toUInt8

/-- Whether there is a byte at a position that passes a test. -/
def testAt? (bs : List UInt8) (i : Nat) (p : UInt8 → Bool) : Option Bool :=
  if i < bs.length then bs[i]?.map p else some false

/-- The first position from `i` on that has no digit. -/
def skipDigits? (bs : List UInt8) (i : Nat) : Option Nat :=
  if i < bs.length then
    bs[i]?.bind fun b => if isDigit b then skipDigits? bs (i + 1) else some i
  else some i
termination_by bs.length - i

/-- The position behind an optional point with digits at `i`, and how many digits there are. -/
def skipFraction? (bs : List UInt8) (i : Nat) : Option (Nat × Nat) := do
  if ← testAt? bs i isPoint then
    let j ← skipDigits? bs (i + 1)
    return (j, j - (i + 1))
  else return (i, 0)

/-- Whether an optional power of ten at `i` reaches to the end. -/
def isPower? (bs : List UInt8) (i : Nat) : Option Bool := do
  if ← testAt? bs i isPowerMark then
    let start := if ← testAt? bs (i + 1) isSign then i + 2 else i + 1
    let stop ← skipDigits? bs start
    return stop != start && stop == bs.length
  else return i == bs.length

/-- Whether the bytes are a decimal literal. -/
def isLiteral? (bs : List UInt8) : Option Bool := do
  let i ← skipDigits? bs 0
  let (j, digits) ← skipFraction? bs i
  if i + digits = 0 then return false
  isPower? bs j

/-- The characters from a byte position on, which has to be the end or to begin a character. -/
def sliceFrom? : List Char → Nat → Option (List Char)
  | cs, 0 => some cs
  | [], _ + 1 => none
  | c :: cs, i + 1 => if i + 1 < c.utf8Size then none else sliceFrom? cs (i + 1 - c.utf8Size)

/-- The characters behind the sign that the first byte may be. -/
def dropSign? (first : UInt8) (cs : List Char) : Option (List Char) :=
  if isSign first then sliceFrom? cs 1 else some cs

/-- The double that a text without blanks at its ends and without a radix mark reads as. -/
def readSigned? (cs : List Char) : Option Double := do
  let first ← (utf8Bytes cs)[0]?
  let rest ← dropSign? first cs
  let negative := first == '-'.toUInt8
  if rest = "Infinity".toList then return .signed negative .infinity
  if ← isLiteral? (utf8Bytes rest) then
    return ((Decimal.parse? rest).map fun d => .signed negative d.round).getD .nan
  else return .nan

/-- The double that a text without blanks at its ends reads as. -/
def readTrimmed? : List Char → Option Double
  | [] => some .zero
  | '0' :: c :: cs =>
    match Radix.ofMark? c with
    | some r => some (((r.digits? cs).map fun ds => .signed false (r.accumulate ds)).getD .nan)
    | none => readSigned? ('0' :: c :: cs)
  | cs => readSigned? cs

/-- The double that a text reads as. -/
def readAt? (s : String) : Option Double := readTrimmed? (trimBlank s.toList)

/-! ## Bytes of characters -/

theorem le_toNat_or (x y : UInt8) : y.toNat ≤ (x ||| y).toNat := by
  rw [UInt8.toNat_or]
  exact Nat.right_le_or

/-- An ASCII character is one byte, its code. Any other character begins with a larger byte. -/
theorem utf8EncodeChar_cases (c : Char) :
    (c.toNat < 128 ∧ String.utf8EncodeChar c = [c.toUInt8]) ∨
      (128 ≤ c.toNat ∧ ∃ b bs, String.utf8EncodeChar c = b :: bs ∧ 128 ≤ b.toNat) := by
  have hone : c.utf8Size = 1 ↔ c.toNat < 128 := by
    rw [Char.utf8Size_eq_one_iff, UInt32.le_iff_toNat_le]
    exact (Nat.lt_succ_iff (m := c.toNat) (n := 127)).symm
  have hlead (x y : UInt8) (h : 128 ≤ y.toNat) : 128 ≤ (x ||| y).toNat :=
    h.trans (le_toNat_or x y)
  rcases Char.utf8Size_eq c with h | h | h | h
  · exact Or.inl ⟨hone.1 h, String.utf8EncodeChar_eq_singleton h⟩
  · refine Or.inr ⟨by omega, _, _, String.utf8EncodeChar_eq_cons_cons h, hlead _ _ (by decide)⟩
  · exact Or.inr ⟨by omega, _, _, String.utf8EncodeChar_eq_cons_cons_cons h,
      hlead _ _ (by decide)⟩
  · exact Or.inr ⟨by omega, _, _, String.utf8EncodeChar_eq_cons_cons_cons_cons h,
      hlead _ _ (by decide)⟩

/-- A test on bytes that passes for the bytes of certain ASCII characters only. -/
structure Tests (p : UInt8 → Bool) (q : Char → Bool) : Prop where
  ascii : ∀ c : Char, c.toNat < 128 → p c.toUInt8 = q c
  byte : ∀ b : UInt8, 128 ≤ b.toNat → p b = false
  char : ∀ c : Char, 128 ≤ c.toNat → q c = false

theorem toNat_toUInt8 {c : Char} (h : c.toNat < 128) : c.toUInt8.toNat = c.toNat := by
  have hmod : c.toUInt8.toNat = c.toNat % 256 := rfl
  omega

theorem tests_eq {a : Char} (ha : a.toNat < 128) : Tests (· == a.toUInt8) (· == a) where
  ascii c hc := by
    have heq : c.toUInt8 = a.toUInt8 ↔ c = a := by
      rw [← UInt8.toNat_inj, toNat_toUInt8 hc, toNat_toUInt8 ha, Char.toNat_inj]
    rw [Bool.eq_iff_iff, beq_iff_eq, beq_iff_eq, heq]
  byte b hb := by
    rw [beq_eq_false_iff_ne]
    rintro rfl
    rw [toNat_toUInt8 ha] at hb
    omega
  char c hc := by
    rw [beq_eq_false_iff_ne]
    rintro rfl
    omega

theorem Tests.or {p p' : UInt8 → Bool} {q q' : Char → Bool} (h : Tests p q) (h' : Tests p' q') :
    Tests (fun b => p b || p' b) (fun c => q c || q' c) where
  ascii c hc := by rw [h.ascii c hc, h'.ascii c hc]
  byte b hb := by rw [h.byte b hb, h'.byte b hb, Bool.or_false]
  char c hc := by rw [h.char c hc, h'.char c hc, Bool.or_false]

theorem tests_isPoint : Tests isPoint (· == '.') := tests_eq (by decide)

theorem tests_isPowerMark : Tests isPowerMark (fun c => c == 'e' || c == 'E') :=
  (tests_eq (by decide)).or (tests_eq (by decide))

theorem tests_isSign : Tests isSign (fun c => c == '+' || c == '-') :=
  (tests_eq (by decide)).or (tests_eq (by decide))

theorem tests_isDigit : Tests isDigit Char.isDigit where
  ascii c hc := by
    have h := toNat_toUInt8 hc
    rw [Bool.eq_iff_iff, Char.isDigit_iff_toNat]
    simp only [isDigit, Bool.and_eq_true, decide_eq_true_eq, UInt8.le_iff_toNat_le, h]
    rfl
  byte b hb := by
    have hnine : '9'.toUInt8.toNat = 57 := rfl
    simp only [isDigit, UInt8.le_iff_toNat_le, hnine]
    simp
    omega
  char c hc := by
    rw [← Bool.not_eq_true, Char.isDigit_iff_toNat]
    simp
    omega

/-! ## Positions between characters -/

/-- From a position on, the bytes are those of some characters. -/
structure Remaining (bs : List UInt8) (i : Nat) (cs : List Char) : Prop where
  le : i ≤ bs.length
  drop : bs.drop i = utf8Bytes cs

theorem remaining_zero (cs : List Char) : Remaining (utf8Bytes cs) 0 cs := ⟨Nat.zero_le _, rfl⟩

section

variable {bs : List UInt8} {i : Nat} {cs : List Char} {p : UInt8 → Bool} {q : Char → Bool}

theorem Remaining.eq_length (h : Remaining bs i []) : i = bs.length := by
  have hle := h.le
  have hdrop := List.drop_eq_nil_iff.1 h.drop
  omega

/-- A look at the next character sees its first byte. -/
theorem Remaining.exists_byte {c : Char} (h : Remaining bs i (c :: cs)) (hp : Tests p q) :
    ∃ b, i < bs.length ∧ bs[i]? = some b ∧ p b = q c ∧
      (q c = true → Remaining bs (i + 1) cs) := by
  have hhead : bs[i]? = (bs.drop i)[0]? := by rw [List.getElem?_drop, Nat.add_zero]
  have htail : bs.drop (i + 1) = (bs.drop i).drop 1 := by rw [List.drop_drop]
  have hcons : utf8Bytes (c :: cs) = String.utf8EncodeChar c ++ utf8Bytes cs := List.flatMap_cons
  rw [h.drop, hcons] at hhead htail
  rcases utf8EncodeChar_cases c with ⟨hc, hbytes⟩ | ⟨hc, b, rest, hbytes, hb⟩
  · rw [hbytes] at hhead htail
    obtain ⟨hi, -⟩ := List.getElem?_eq_some_iff.1 hhead
    exact ⟨_, hi, hhead, hp.ascii c hc, fun _ => ⟨hi, htail⟩⟩
  · rw [hbytes] at hhead
    obtain ⟨hi, -⟩ := List.getElem?_eq_some_iff.1 hhead
    have hq := hp.char c hc
    refine ⟨b, hi, hhead, by rw [hp.byte b hb, hq], fun h => ?_⟩
    rw [hq] at h
    cases h

theorem testAt?_nil (h : Remaining bs i []) : testAt? bs i p = some false := by
  rw [testAt?, if_neg (by rw [h.eq_length]; exact Nat.lt_irrefl _)]

theorem testAt?_cons {c : Char} (h : Remaining bs i (c :: cs)) (hp : Tests p q) :
    testAt? bs i p = some (q c) := by
  obtain ⟨b, hi, hb, hpb, -⟩ := h.exists_byte hp
  rw [testAt?, if_pos hi, hb, Option.map_some, hpb]

theorem Remaining.succ {c : Char} (h : Remaining bs i (c :: cs)) (hp : Tests p q)
    (hc : q c = true) : Remaining bs (i + 1) cs := by
  obtain ⟨b, -, -, -, hnext⟩ := h.exists_byte hp
  exact hnext hc

/-- **Digits are skipped as characters.** -/
theorem Remaining.skipDigits? (h : Remaining bs i cs) :
    ByteScan.skipDigits? bs i = some (i + (cs.takeWhile Char.isDigit).length) ∧
      Remaining bs (i + (cs.takeWhile Char.isDigit).length) (cs.dropWhile Char.isDigit) := by
  induction cs generalizing i with
  | nil =>
    rw [ByteScan.skipDigits?, if_neg (by rw [h.eq_length]; exact Nat.lt_irrefl _)]
    exact ⟨rfl, h⟩
  | cons c cs ih =>
    obtain ⟨b, hi, hb, hpb, hnext⟩ := h.exists_byte tests_isDigit
    rw [ByteScan.skipDigits?, if_pos hi, hb, Option.bind_some, hpb]
    by_cases hc : c.isDigit = true
    · obtain ⟨hskip, hrest⟩ := ih (hnext hc)
      rw [if_pos hc, List.takeWhile_cons_of_pos hc, List.dropWhile_cons_of_pos hc, hskip,
        List.length_cons, ← Nat.add_assoc, Nat.add_right_comm]
      exact ⟨rfl, by rwa [Nat.add_right_comm] at hrest⟩
    · rw [if_neg hc, List.takeWhile_cons_of_neg hc, List.dropWhile_cons_of_neg hc]
      exact ⟨rfl, h⟩

theorem Remaining.eq_length_iff (h : Remaining bs i cs) : i = bs.length ↔ cs = [] := by
  constructor
  · intro hi
    cases cs with
    | nil => rfl
    | cons c cs =>
      obtain ⟨b, hlt, -⟩ := h.exists_byte tests_isDigit
      omega
  · rintro rfl
    exact h.eq_length

theorem Remaining.skipSign (h : Remaining bs i cs) :
    ∃ b, testAt? bs i isSign = some b ∧
      Remaining bs (if b then i + 1 else i) (splitSign cs).2 := by
  unfold splitSign
  split
  next cs => exact ⟨true, testAt?_cons h tests_isSign, h.succ tests_isSign rfl⟩
  next cs => exact ⟨true, testAt?_cons h tests_isSign, h.succ tests_isSign rfl⟩
  next hplus hminus =>
    refine ⟨false, ?_, h⟩
    cases cs with
    | nil => exact testAt?_nil h
    | cons c cs =>
      have hc : (c == '+' || c == '-') = false := by
        rw [Bool.or_eq_false_iff, beq_eq_false_iff_ne, beq_eq_false_iff_ne]
        exact ⟨fun heq => hplus cs (by rw [heq]), fun heq => hminus cs (by rw [heq])⟩
      rw [testAt?_cons h tests_isSign, hc]

theorem Remaining.skipFraction? (h : Remaining bs i cs) :
    ∃ j, ByteScan.skipFraction? bs i = some (j, (Decimal.splitFraction cs).1.length) ∧
      Remaining bs j (Decimal.splitFraction cs).2 := by
  unfold Decimal.splitFraction ByteScan.skipFraction?
  split
  next cs =>
    obtain ⟨hskip, hrest⟩ := (h.succ tests_isPoint rfl).skipDigits?
    refine ⟨_, ?_, hrest⟩
    simp only [testAt?_cons h tests_isPoint, hskip]
    simp
  next hpoint =>
    have htest : testAt? bs i isPoint = some false := by
      cases cs with
      | nil => exact testAt?_nil h
      | cons c cs =>
        have hc : (c == '.') = false := by
          rw [beq_eq_false_iff_ne]
          exact fun heq => hpoint cs (by rw [heq])
        rw [testAt?_cons h tests_isPoint, hc]
    refine ⟨i, ?_, h⟩
    simp only [htest]
    simp

/-- All characters are digits just when no other is left behind them. -/
theorem isDigits_iff_dropWhile {ds : List Char} :
    Decimal.IsDigits ds ↔ ds.takeWhile Char.isDigit ≠ [] ∧ ds.dropWhile Char.isDigit = [] := by
  have happend := List.takeWhile_append_dropWhile (p := Char.isDigit) (l := ds)
  rw [List.dropWhile_eq_nil_iff]
  constructor
  · rintro ⟨hne, hall⟩
    refine ⟨fun hempty => hne ?_, hall⟩
    rwa [hempty, List.dropWhile_eq_nil_iff.2 hall, eq_comm] at happend
  · rintro ⟨hne, hall⟩
    exact ⟨fun hempty => hne (by rw [hempty]; rfl), hall⟩

theorem Remaining.digitsToEnd (h : Remaining bs i cs) :
    ((ByteScan.skipDigits? bs i).bind fun stop => some (stop != i && stop == bs.length)) =
      some (!(cs.isEmpty || !cs.all Char.isDigit)) := by
  obtain ⟨hskip, hrest⟩ := h.skipDigits?
  have hmoved : i + (cs.takeWhile Char.isDigit).length ≠ i ↔ cs.takeWhile Char.isDigit ≠ [] := by
    rw [ne_eq, Nat.add_eq_left, List.length_eq_zero_iff]
  rw [hskip, Option.bind_some, Option.some.injEq, Bool.eq_iff_iff, Bool.and_eq_true, bne_iff_ne,
    beq_iff_eq, hmoved, hrest.eq_length_iff, ← isDigits_iff_dropWhile, Bool.not_eq_true',
    Decimal.isDigits_iff]

theorem Remaining.isPower? (h : Remaining bs i cs) :
    ByteScan.isPower? bs i = some (Decimal.parsePower? cs).isSome := by
  unfold ByteScan.isPower?
  cases cs with
  | nil =>
    simp only [testAt?_nil h]
    simp [h.eq_length, Decimal.parsePower?]
  | cons c cs =>
    have hend := h.eq_length_iff
    simp only [testAt?_cons h tests_isPowerMark]
    by_cases hc : c = 'e' ∨ c = 'E'
    · have hmark : (c == 'e' || c == 'E') = true := by simpa using hc
      obtain ⟨b, htest, hsign⟩ := (h.succ tests_isPowerMark hmark).skipSign
      have hparse : (Decimal.parsePower? (c :: cs)).isSome =
          !((splitSign cs).2.isEmpty || !(splitSign cs).2.all Char.isDigit) := by
        simp only [Decimal.parsePower?, if_pos hc]
        split
        next hempty => rw [hempty]; rfl
        next hdigits => rw [Bool.not_eq_true] at hdigits; rw [hdigits]; rfl
      rw [hmark, hparse, ← hsign.digitsToEnd]
      simp only [Option.bind_eq_bind, Option.bind_some, if_true, htest]
      rfl
    · have hmark : (c == 'e' || c == 'E') = false := by simpa using hc
      simp [hmark, Decimal.parsePower?, hc, hend]

end

theorem isLiteral?_utf8Bytes (cs : List Char) :
    isLiteral? (utf8Bytes cs) = some (Decimal.parse? cs).isSome := by
  obtain ⟨hskip, hrest⟩ := (remaining_zero cs).skipDigits?
  obtain ⟨j, hfraction, htail⟩ := hrest.skipFraction?
  unfold isLiteral? Decimal.parse?
  simp only [hskip, hfraction, htail.isPower?, Option.bind_eq_bind, Option.bind_some]
  by_cases hempty : (cs.takeWhile Char.isDigit).isEmpty = true ∧
      (Decimal.splitFraction (cs.dropWhile Char.isDigit)).1.isEmpty = true
  · rw [if_pos (by simpa using hempty), if_pos (by simpa using hempty)]
    rfl
  · rw [if_neg (by simpa using hempty), if_neg (by simpa using hempty), Option.isSome_map]

/-! ## Signs and whole texts -/

theorem sliceFrom?_one {c : Char} (hc : c.utf8Size = 1) (cs : List Char) :
    sliceFrom? (c :: cs) 1 = some cs := by
  rw [sliceFrom?, if_neg (by omega), hc, sliceFrom?]

/-- The first byte tells the sign, and the cut behind a sign falls between two characters. -/
theorem cut_sign (c : Char) (cs : List Char) :
    ∃ b, (utf8Bytes (c :: cs))[0]? = some b ∧ (b == '-'.toUInt8) = (splitSign (c :: cs)).1 ∧
      dropSign? b (c :: cs) = some (splitSign (c :: cs)).2 := by
  have hstart := remaining_zero (c :: cs)
  obtain ⟨b, -, hb, hsign, -⟩ := hstart.exists_byte tests_isSign
  obtain ⟨b', -, hb', hminus, -⟩ := hstart.exists_byte (tests_eq (a := '-') (by decide))
  obtain rfl : b = b' := Option.some.inj (hb.symm.trans hb')
  refine ⟨b, hb, ?_⟩
  rw [dropSign?, hsign, hminus]
  unfold splitSign
  split
  next heq =>
    obtain ⟨rfl, rfl⟩ := List.cons.inj heq
    exact ⟨rfl, (if_pos rfl).trans (sliceFrom?_one (c := '+') (by decide) cs)⟩
  next heq =>
    obtain ⟨rfl, rfl⟩ := List.cons.inj heq
    exact ⟨rfl, (if_pos rfl).trans (sliceFrom?_one (c := '-') (by decide) cs)⟩
  next hplus hminus =>
    have hc : (c == '+') = false := beq_eq_false_iff_ne.2 fun heq => hplus cs (by rw [heq])
    have hc' : (c == '-') = false := beq_eq_false_iff_ne.2 fun heq => hminus cs (by rw [heq])
    rw [hc, hc']
    exact ⟨rfl, rfl⟩

theorem readSigned?_eq {cs : List Char} (hne : cs ≠ []) :
    readSigned? cs = some (((Numeral.parseSigned? cs).map Numeral.value).getD .nan) := by
  obtain ⟨c, cs, rfl⟩ := List.exists_cons_of_ne_nil hne
  obtain ⟨b, hb, hnegative, hrest⟩ := cut_sign c cs
  unfold readSigned? Numeral.parseSigned?
  generalize "Infinity".toList = infinity
  simp only [hb, hrest, hnegative, isLiteral?_utf8Bytes, Option.bind_eq_bind, Option.bind_some]
  split
  next => rfl
  next =>
    cases Decimal.parse? (splitSign (c :: cs)).2 with
    | none => rfl
    | some d => rfl

theorem readTrimmed?_eq (cs : List Char) :
    readTrimmed? cs = some (((Numeral.parseTrimmed? cs).map Numeral.value).getD .nan) := by
  unfold Numeral.parseTrimmed?
  split
  next => rfl
  next c cs =>
    rw [readTrimmed?]
    cases Radix.ofMark? c with
    | none => exact readSigned?_eq (by simp)
    | some r => cases hdigits : r.digits? cs <;> simp [hdigits, Numeral.value]
  next hne hzero =>
    rw [readTrimmed?]
    · exact readSigned?_eq hne
    · exact hne
    · exact hzero

/-- **Scanning by positions never fails, and reads what reading by characters reads.** -/
theorem readAt?_eq (s : String) : readAt? s = some (Double.read s) := by
  rw [readAt?, readTrimmed?_eq, Double.read, Numeral.parse?]
  cases Numeral.parseTrimmed? (trimBlank s.toList) <;> rfl

end ByteScan

end RecordWalk
