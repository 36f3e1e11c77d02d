import RecordWalk.Decimal.Layout
import RecordWalk.Numeral
import RecordWalk.Proofs.Decimal.Value
import RecordWalk.Proofs.Digits

/-!
# Reading written decimals

Writing puts the digits of the coefficient, a point, zeros and a power of ten in one of four
layouts. Reading cuts a text at the point and at the power, and takes all digits as one
coefficient. The two meet in two laws on how a text of digits is read, one for a text with a point
(`parse?_point`) and one for a text without (`parse?_whole`).

**Theorem (`parse?_scientific`, `parse?_positional`).** Scientific notation reads as the very
decimal that was written. So does positional notation, except that zeros filled in before the
point end up in the coefficient; the value is the same.
-/

namespace RecordWalk.Decimal

/-! ## How a text of digits is read -/

theorem parse?_point (ws fs rest : List Char) (hw : ∀ c ∈ ws, c.isDigit)
    (hf : ∀ c ∈ fs, c.isDigit) (hne : ws ++ fs ≠ []) (hrest : rest.takeWhile Char.isDigit = []) :
    parse? (ws ++ '.' :: (fs ++ rest)) =
      (parsePower? rest).map fun power => ⟨digitsValue (ws ++ fs), power - fs.length⟩ := by
  obtain ⟨hwhole, htail⟩ := split_digits ws ('.' :: (fs ++ rest)) hw rfl
  obtain ⟨hfraction, hpower⟩ := split_digits fs rest hf hrest
  have hempty : (ws.isEmpty && fs.isEmpty) = false := by
    rw [← Bool.not_eq_true, Bool.and_eq_true, List.isEmpty_iff, List.isEmpty_iff]
    rintro ⟨rfl, rfl⟩
    exact hne rfl
  unfold parse?
  rw [hwhole, htail]
  simp only [splitFraction]
  rw [hfraction, hpower, hempty]
  rfl

theorem parse?_whole (ws rest : List Char) (hw : ∀ c ∈ ws, c.isDigit) (hne : ws ≠ [])
    (hrest : rest.takeWhile Char.isDigit = []) (hdot : rest.head? ≠ some '.') :
    parse? (ws ++ rest) = (parsePower? rest).map fun power => ⟨digitsValue ws, power⟩ := by
  obtain ⟨hwhole, htail⟩ := split_digits ws rest hw hrest
  have hsplit : splitFraction rest = ([], rest) := by
    unfold splitFraction
    split
    · simp at hdot
    · rfl
  unfold parse?
  rw [hwhole, htail, hsplit]
  simp [hne]

/-! ## The digits of a decimal -/

theorem isDigit_of_mem_digits {d : Decimal} {c : Char} (hc : c ∈ d.digits) : c.isDigit :=
  isDigit_of_mem_toDigits hc

theorem digits_ne_nil (d : Decimal) : d.digits ≠ [] := Nat.toDigits_ne_nil

@[simp] theorem digitsValue_digits (d : Decimal) : digitsValue d.digits = d.coefficient :=
  Nat.ofDigitChars_ten_toDigits

theorem digitsValue_zeros_append (k : ℕ) (cs : List Char) :
    digitsValue (List.replicate k '0' ++ cs) = digitsValue cs := by
  simp [digitsValue, Nat.ofDigitChars_append]

theorem digitsValue_append_zeros (cs : List Char) (k : ℕ) :
    digitsValue (cs ++ List.replicate k '0') = digitsValue cs * 10 ^ k := by
  simp [digitsValue, Nat.ofDigitChars_append, mul_comm]

theorem isDigit_of_mem_zeros {k : ℕ} {c : Char} (hc : c ∈ List.replicate k '0') : c.isDigit := by
  obtain rfl := List.eq_of_mem_replicate hc
  rfl

/-! ## Layouts -/

theorem parsePower?_powerMark (d : Decimal) : parsePower? d.powerMark = some (d.point - 1) := by
  have hall : (Nat.toDigits 10 (d.point - 1).natAbs).all Char.isDigit = true :=
    List.all_eq_true.2 fun c hc => isDigit_of_mem_toDigits hc
  have hvalue : digitsValue (Nat.toDigits 10 (d.point - 1).natAbs) = (d.point - 1).natAbs :=
    Nat.ofDigitChars_ten_toDigits
  have hempty : (Nat.toDigits 10 (d.point - 1).natAbs).isEmpty = false := by
    simp [Nat.toDigits_ne_nil]
  rw [powerMark, parsePower?, if_pos (Or.inl rfl)]
  by_cases h : d.point ≤ 0
  · simp only [if_pos h, splitSign, hall, hempty, hvalue]
    exact congrArg some (by simp only [if_true]; omega)
  · simp only [if_neg h, splitSign, hall, hempty, hvalue]
    exact congrArg some (by simp only [Bool.false_eq_true, if_false]; omega)

/-- **Scientific notation reads as what was written.** -/
theorem parse?_scientific (d : Decimal) : parse? d.scientific = some d := by
  have hdigits (c : Char) (hc : c ∈ d.digits) : c.isDigit := isDigit_of_mem_digits hc
  have hvalue := digitsValue_digits d
  have hpoint : d.point = d.digits.length + d.exponent := rfl
  have hmark : d.powerMark.takeWhile Char.isDigit = [] := rfl
  unfold scientific
  rcases hd : d.digits with _ | ⟨c, _ | ⟨c', cs⟩⟩
  · exact absurd hd d.digits_ne_nil
  · rw [hd] at hdigits hvalue hpoint
    have h := parse?_whole [c] d.powerMark hdigits (by simp) hmark (by simp [powerMark])
    rw [parsePower?_powerMark, hvalue] at h
    refine h.trans (congrArg some (congrArg (mk d.coefficient) ?_))
    simp at hpoint
    omega
  · rw [hd] at hdigits hvalue hpoint
    have h := parse?_point [c] (c' :: cs) d.powerMark (fun x hx => hdigits x (by simp_all))
      (fun x hx => hdigits x (List.mem_cons_of_mem _ hx)) (by simp) hmark
    have hcons : [c] ++ c' :: cs = c :: c' :: cs := rfl
    rw [parsePower?_powerMark, hcons, hvalue] at h
    refine h.trans (congrArg some (congrArg (mk d.coefficient) ?_))
    simp at hpoint ⊢
    omega

/-- **Positional notation reads as the same value.** -/
theorem parse?_positional (d : Decimal) :
    ∃ d', parse? d.positional = some d' ∧ d'.toRat = d.toRat := by
  have hdigits (c : Char) (hc : c ∈ d.digits) : c.isDigit := isDigit_of_mem_digits hc
  have hvalue := digitsValue_digits d
  have hpoint : d.point = d.digits.length + d.exponent := rfl
  unfold positional
  split_ifs with hsmall hlarge
  · -- `0.`, zeros and all digits: nothing but digits behind the point.
    have h := parse?_point ['0'] (List.replicate (-d.point).toNat '0' ++ d.digits) [] (by simp)
      (fun c hc => (List.mem_append.1 hc).elim isDigit_of_mem_zeros (hdigits c)) (by simp) rfl
    have hzero : ['0'] ++ (List.replicate (-d.point).toNat '0' ++ d.digits) =
        List.replicate ((-d.point).toNat + 1) '0' ++ d.digits := rfl
    rw [hzero, digitsValue_zeros_append, hvalue, List.append_nil] at h
    refine ⟨_, h, congrArg toRat (congrArg (mk d.coefficient) ?_)⟩
    simp
    omega
  · -- All digits and zeros: the zeros multiply the coefficient.
    have h := parse?_whole (d.digits ++ List.replicate (d.point - d.digits.length).toNat '0') []
      (fun c hc => (List.mem_append.1 hc).elim (hdigits c) isDigit_of_mem_zeros)
      (by simp [d.digits_ne_nil]) rfl (by simp)
    rw [digitsValue_append_zeros, hvalue, List.append_nil] at h
    refine ⟨_, h, (toRat_shift _ _ _).trans (congrArg toRat (congrArg (mk d.coefficient) ?_))⟩
    omega
  · -- The point falls between two digits.
    have h := parse?_point (d.digits.take d.point.toNat) (d.digits.drop d.point.toNat) []
      (fun c hc => hdigits c (List.mem_of_mem_take hc))
      (fun c hc => hdigits c (List.mem_of_mem_drop hc))
      (by rw [List.take_append_drop]; exact d.digits_ne_nil) rfl
    rw [List.take_append_drop, hvalue, List.append_nil] at h
    refine ⟨_, h, congrArg toRat (congrArg (mk d.coefficient) ?_)⟩
    simp
    omega

end RecordWalk.Decimal
