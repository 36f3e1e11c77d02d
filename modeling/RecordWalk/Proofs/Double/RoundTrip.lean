import RecordWalk.Double.Text
import RecordWalk.Proofs.Decimal.Layout
import RecordWalk.Proofs.Decimal.Shortest

/-!
# Displayed doubles read back

The display text of a finite double is a sign and a literal of its shortest decimal. Reading trims
the text, looks for a radix mark, takes the sign off, looks for `Infinity`, and reads a decimal
literal. A display text has no white space and no radix mark and begins with a digit after its
sign, so all of that comes down to reading the literal (`parse?_signText`). The literal has the
value of the shortest decimal, and the shortest decimal rounds back.

**Theorem (`read_display_ofBits`).** For each of the `2 ^ 64` bit patterns, displaying the double
and reading the text gives the double back, up to the sign of zero and the payload of a NaN.
-/

namespace RecordWalk

/-! ## The characters of literals -/

/-- The characters that a decimal literal is written with. -/
def isLiteralChar (c : Char) : Bool := c.isDigit || c ∈ ['.', 'e', '+', '-']

theorem isLiteralChar_of_isDigit {c : Char} (h : c.isDigit) : isLiteralChar c = true := by
  simp [isLiteralChar, h]

theorem isBlank_of_isLiteralChar {c : Char} (h : isLiteralChar c = true) : isBlank c = false := by
  rw [isLiteralChar, Bool.or_eq_true, decide_eq_true_eq] at h
  rcases h with h | h
  · rw [Char.isDigit_iff_toNat] at h
    simp [isBlank] at h ⊢
    omega
  · simp only [List.mem_cons, List.not_mem_nil, or_false] at h
    rcases h with rfl | rfl | rfl | rfl <;> decide

theorem ofMark?_of_isLiteralChar {c : Char} (h : isLiteralChar c = true) :
    Radix.ofMark? c = none := by
  unfold Radix.ofMark?
  split_ifs with hx ho hb
  · rcases hx with rfl | rfl <;> simp [isLiteralChar] at h
  · rcases ho with rfl | rfl <;> simp [isLiteralChar] at h
  · rcases hb with rfl | rfl <;> simp [isLiteralChar] at h
  · rfl

/-! ## Reading without trimming and radix marks -/

theorem trimBlank_of_forall {cs : List Char} (h : ∀ c ∈ cs, isBlank c = false) :
    trimBlank cs = cs := by
  have hdrop {l : List Char} (hl : ∀ c ∈ l, isBlank c = false) : l.dropWhile isBlank = l := by
    cases l with
    | nil => rfl
    | cons c l => exact List.dropWhile_cons_of_neg (by simp [hl c List.mem_cons_self])
  rw [trimBlank, hdrop h, hdrop fun c hc => h c (List.mem_reverse.1 hc), List.reverse_reverse]

theorem parseTrimmed?_of_forall {cs : List Char} (hne : cs ≠ [])
    (h : ∀ c ∈ cs, Radix.ofMark? c = none) :
    Numeral.parseTrimmed? cs = Numeral.parseSigned? cs := by
  unfold Numeral.parseTrimmed?
  split
  · exact absurd rfl hne
  · rw [h _ (List.mem_cons_of_mem _ List.mem_cons_self)]
  · rfl

theorem splitSign_signText (s : Bool) {c : Char} (hc : c.isDigit) (cs : List Char) :
    splitSign (Double.signText s ++ c :: cs) = (s, c :: cs) := by
  cases s with
  | true => rfl
  | false =>
    change splitSign (c :: cs) = _
    unfold splitSign
    split
    next heq =>
      obtain ⟨rfl, -⟩ := List.cons.inj heq
      simp at hc
    next heq =>
      obtain ⟨rfl, -⟩ := List.cons.inj heq
      simp at hc
    next => rfl

/-- **A signed literal is read as its sign and the literal.** -/
theorem parse?_signText (s : Bool) {c : Char} (hc : c.isDigit) {cs : List Char}
    (hcs : ∀ x ∈ cs, isLiteralChar x = true) :
    Numeral.parse? (String.ofList (Double.signText s ++ c :: cs)) =
      (Decimal.parse? (c :: cs)).map (Numeral.decimal s) := by
  have hlit : ∀ x ∈ Double.signText s ++ c :: cs, isLiteralChar x = true := by
    intro x hx
    rcases List.mem_append.1 hx with hx | hx
    · cases s
      · cases hx
      · obtain rfl := List.mem_singleton.1 hx
        rfl
    · rcases List.mem_cons.1 hx with rfl | hx
      · exact isLiteralChar_of_isDigit hc
      · exact hcs x hx
  have hinf : c :: cs ≠ "Infinity".toList := by
    rw [show "Infinity".toList = 'I' :: "nfinity".toList from rfl]
    intro h
    obtain ⟨rfl, -⟩ := List.cons.inj h
    simp at hc
  rw [Numeral.parse?, String.toList_ofList,
    trimBlank_of_forall fun x hx => isBlank_of_isLiteralChar (hlit x hx),
    parseTrimmed?_of_forall (by simp) fun x hx => ofMark?_of_isLiteralChar (hlit x hx),
    Numeral.parseSigned?, splitSign_signText s hc]
  exact if_neg hinf

/-! ## The literal of a decimal -/

namespace Decimal

theorem isLiteralChar_of_mem_digits {d : Decimal} {c : Char} (hc : c ∈ d.digits) :
    isLiteralChar c = true :=
  isLiteralChar_of_isDigit (isDigit_of_mem_digits hc)

theorem isLiteralChar_of_mem_powerMark {d : Decimal} {c : Char} (hc : c ∈ d.powerMark) :
    isLiteralChar c = true := by
  simp only [powerMark, List.mem_cons] at hc
  rcases hc with rfl | rfl | hc
  · rfl
  · split_ifs <;> rfl
  · exact isLiteralChar_of_isDigit (isDigit_of_mem_toDigits hc)

theorem scientific_eq_cons (d : Decimal) :
    ∃ c cs, d.scientific = c :: cs ∧ c.isDigit ∧ ∀ x ∈ cs, isLiteralChar x = true := by
  have hdigits (c : Char) (hc : c ∈ d.digits) : c.isDigit := isDigit_of_mem_digits hc
  unfold scientific
  rcases hd : d.digits with _ | ⟨c, _ | ⟨c', cs⟩⟩
  · exact absurd hd d.digits_ne_nil
  · rw [hd] at hdigits
    exact ⟨c, _, rfl, hdigits c (by simp), fun x hx => isLiteralChar_of_mem_powerMark hx⟩
  · rw [hd] at hdigits
    refine ⟨c, _, rfl, hdigits c (by simp), fun x hx => ?_⟩
    rcases List.mem_cons.1 hx with rfl | hx
    · rfl
    · rcases List.mem_append.1 hx with hx | hx
      · exact isLiteralChar_of_isDigit (hdigits x (List.mem_cons_of_mem _ hx))
      · exact isLiteralChar_of_mem_powerMark hx

theorem positional_eq_cons (d : Decimal) :
    ∃ c cs, d.positional = c :: cs ∧ c.isDigit ∧ ∀ x ∈ cs, isLiteralChar x = true := by
  obtain ⟨c, cs, hd⟩ := List.exists_cons_of_ne_nil d.digits_ne_nil
  have hlit (x : Char) (hx : x ∈ cs) : isLiteralChar x = true :=
    isLiteralChar_of_mem_digits (hd ▸ List.mem_cons_of_mem c hx)
  have hc : c.isDigit := isDigit_of_mem_digits (hd ▸ List.mem_cons_self)
  unfold positional
  split_ifs with hsmall hlarge
  · refine ⟨'0', _, rfl, rfl, fun x hx => ?_⟩
    rcases List.mem_cons.1 hx with rfl | hx
    · rfl
    · rcases List.mem_append.1 hx with hx | hx
      · exact isLiteralChar_of_isDigit (isDigit_of_mem_zeros hx)
      · exact isLiteralChar_of_mem_digits hx
  · refine ⟨c, _, by rw [hd]; rfl, hc, fun x hx => ?_⟩
    rcases List.mem_append.1 hx with hx | hx
    · exact hlit x hx
    · exact isLiteralChar_of_isDigit (isDigit_of_mem_zeros hx)
  · obtain ⟨k, hk⟩ : ∃ k, d.point.toNat = k + 1 := ⟨d.point.toNat - 1, by omega⟩
    refine ⟨c, _, by rw [hd, hk]; rfl, hc, fun x hx => ?_⟩
    rcases List.mem_append.1 hx with hx | hx
    · exact hlit x (List.mem_of_mem_take hx)
    · rcases List.mem_cons.1 hx with rfl | hx
      · rfl
      · exact hlit x (List.mem_of_mem_drop hx)

end Decimal

namespace Double

theorem displayMagnitude_eq_cons (m : Magnitude) :
    ∃ c cs, displayMagnitude m = c :: cs ∧ c.isDigit ∧ ∀ x ∈ cs, isLiteralChar x = true := by
  unfold displayMagnitude
  dsimp only
  split_ifs
  · exact m.shortest.positional_eq_cons
  · exact m.shortest.scientific_eq_cons

theorem parse?_displayMagnitude (m : Magnitude) :
    ∃ d, Decimal.parse? (displayMagnitude m) = some d ∧ d.toRat = m.shortest.toRat := by
  unfold displayMagnitude
  dsimp only
  split_ifs
  · exact m.shortest.parse?_positional
  · exact ⟨_, m.shortest.parse?_scientific, rfl⟩

/-- **A finite double other than zero reads back from its display text.** -/
theorem read_display_of_finite (s : Bool) {m : Magnitude} (hzero : m ≠ .zero)
    (hinf : m ≠ .infinity) : read (display (signed s m)) = signed s m := by
  have hm : 0 < m.rank := Magnitude.rank_pos hzero
  obtain ⟨c, cs, htext, hc, hcs⟩ := displayMagnitude_eq_cons m
  obtain ⟨d, hd, hvalue⟩ := parse?_displayMagnitude m
  rw [htext] at hd
  rw [display, if_neg hzero, if_neg hinf, htext, read, parse?_signText s hc hcs, hd]
  change signed s d.round = signed s m
  rw [Decimal.round_congr hvalue, Magnitude.round_shortest hm]

/-! ## All bit patterns -/

theorem read_display_of_infinity (s : Bool) :
    read (display (signed s .infinity)) = signed s .infinity := by
  cases s <;> decide

/-- The bits of a double that is not NaN are determined by it. -/
theorem toBits_ofBits {bits : UInt64} (h : ofBits bits ≠ nan) : (ofBits bits).toBits = bits := by
  unfold ofBits at h ⊢
  split_ifs at h ⊢ with hle
  · have hlt := bits.toNat_lt
    have hsum : bits.toNat % 0x8000000000000000 +
        (if decide (0x8000000000000000 ≤ bits.toNat) = true then 0x8000000000000000 else 0) =
        bits.toNat := by
      split_ifs with hs
      · have hge := of_decide_eq_true hs
        omega
      · have hnot : ¬ 0x8000000000000000 ≤ bits.toNat := fun hge => hs (decide_eq_true hge)
        omega
    rw [toBits, hsum, UInt64.ofNat_toNat]
  · exact absurd rfl h

theorem eq_self {x : Double} (h : x ≠ nan) : x.eq x = true := by
  cases x with
  | nan => exact absurd rfl h
  | signed s m => simp [eq]

/-- **Every double reads back from its display text.** For any bit pattern, NaN reads as NaN, and
what reads back from any other double is numerically equal to it: the positive zero for both
zeros, and the double with the same bits otherwise. -/
theorem read_display_ofBits (bits : UInt64) :
    let x : Double := ofBits bits
    (x = nan → read x.display = nan) ∧ (x ≠ nan → (read x.display).eq x = true) ∧
      (∀ s, x = signed s .zero → read x.display = zero) ∧
      ∀ s m, x = signed s m → m ≠ .zero → (read x.display).toBits = bits := by
  intro x
  have hzero (s : Bool) : read (display (signed s .zero)) = zero := by cases s <;> decide
  have hsame (s : Bool) (m : Magnitude) (hm : m ≠ .zero) :
      read (display (signed s m)) = signed s m := by
    by_cases hinf : m = .infinity
    · rw [hinf]
      exact read_display_of_infinity s
    · exact read_display_of_finite s hm hinf
  refine ⟨fun hx => ?_, fun hx => ?_, fun s hx => ?_, fun s m hx hm => ?_⟩
  · rw [hx]
    decide
  · rcases hx' : x with _ | ⟨s, m⟩
    · exact absurd hx' hx
    · by_cases hm : m = .zero
      · rw [hm, hzero]
        cases s <;> rfl
      · rw [hsame s m hm]
        exact eq_self (by simp)
  · rw [hx, hzero]
  · have hbits : x.toBits = bits := toBits_ofBits (by rw [show ofBits bits = x from rfl, hx]; simp)
    rw [hx, hsame s m hm, ← hx, hbits]

end Double

end RecordWalk
