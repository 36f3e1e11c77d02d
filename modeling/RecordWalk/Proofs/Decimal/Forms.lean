import RecordWalk.Proofs.Decimal.Layout
import RecordWalk.Proofs.Decimal.Significant

/-!
# The forms of a written decimal

Where the point falls decides on one of five layouts (`Layout`): in positional notation it falls
behind all digits, among them, or before them; in scientific notation the power of ten has either
sign. Each layout names its counts and cuts as natural numbers within the digits at hand, so nothing
in it can be negative or out of range.

The forms are grammars that do not mention the decimal. `FixedForm` has a whole part without
superfluous zeros and perhaps a point with a fraction that does not end with a zero. `ExponentForm`
has a single digit other than zero before the point, and a signed power of ten without leading
zeros. No text has both forms, as only the second has the mark of the power.

**Theorem (`Layout.forms`).** A layout of digits that neither begin nor end with a zero is in fixed
form if the point falls between `-5` and `21`, and in exponent form otherwise.
-/

namespace RecordWalk.Decimal

/-! ## Grammars -/

/-- One or more digits. -/
def IsDigits (cs : List Char) : Prop := cs ≠ [] ∧ ∀ c ∈ cs, c.isDigit = true

/-- Digits that do not begin with a zero. -/
def IsNumeral (cs : List Char) : Prop := IsDigits cs ∧ cs.head? ≠ some '0'

/-- Digits that do not end with a zero. -/
def IsFraction (cs : List Char) : Prop := IsDigits cs ∧ cs.getLast? ≠ some '0'

/-- A whole part, or a whole part, a point and a fraction. -/
inductive FixedForm : List Char → Prop
  | whole {ws : List Char} : ws = ['0'] ∨ IsNumeral ws → FixedForm ws
  | point {ws fs : List Char} :
      ws = ['0'] ∨ IsNumeral ws → IsFraction fs → FixedForm (ws ++ '.' :: fs)

/-- A digit, perhaps a point and a fraction, and a power of ten with its sign. -/
inductive ExponentForm : List Char → Prop
  | single {c sign : Char} {es : List Char} :
      IsNumeral [c] → sign = '+' ∨ sign = '-' → IsNumeral es → ExponentForm (c :: 'e' :: sign :: es)
  | point {c sign : Char} {fs es : List Char} :
      IsNumeral [c] → IsFraction fs → sign = '+' ∨ sign = '-' → IsNumeral es →
      ExponentForm (c :: '.' :: (fs ++ 'e' :: sign :: es))

theorem IsDigits.e_notMem {cs : List Char} (h : IsDigits cs) : 'e' ∉ cs := by
  intro he
  cases h.2 'e' he

theorem e_notMem_whole {ws : List Char} (h : ws = ['0'] ∨ IsNumeral ws) : 'e' ∉ ws := by
  rcases h with rfl | h
  · simp
  · exact h.1.e_notMem

theorem FixedForm.e_notMem {cs : List Char} (h : FixedForm cs) : 'e' ∉ cs := by
  cases h with
  | whole hw => exact e_notMem_whole hw
  | point hw hf =>
    rw [List.mem_append, List.mem_cons]
    rintro (he | he | he)
    · exact e_notMem_whole hw he
    · cases he
    · exact hf.1.e_notMem he

theorem ExponentForm.e_mem {cs : List Char} (h : ExponentForm cs) : 'e' ∈ cs := by
  cases h <;> simp

/-- No text has both forms. -/
theorem ExponentForm.not_fixedForm {cs : List Char} (h : ExponentForm cs) : ¬ FixedForm cs :=
  fun hf => hf.e_notMem h.e_mem

/-! ## Digits with zeros around them, and parts of them -/

section

variable {ds : List Char}

theorem IsNumeral.append_zeros (h : IsNumeral ds) (k : ℕ) :
    IsNumeral (ds ++ List.replicate k '0') := by
  obtain ⟨⟨hne, hdigits⟩, hhead⟩ := h
  refine ⟨⟨by simp [hne], fun c hc => ?_⟩, ?_⟩
  · exact (List.mem_append.1 hc).elim (hdigits c) isDigit_of_mem_zeros
  · rwa [List.head?_append, Option.or_of_isSome (List.isSome_head?.2 hne)]

theorem IsFraction.zeros_append (h : IsFraction ds) (k : ℕ) :
    IsFraction (List.replicate k '0' ++ ds) := by
  obtain ⟨⟨hne, hdigits⟩, hlast⟩ := h
  refine ⟨⟨by simp [hne], fun c hc => ?_⟩, ?_⟩
  · exact (List.mem_append.1 hc).elim isDigit_of_mem_zeros (hdigits c)
  · rwa [List.getLast?_append, Option.or_of_isSome (List.getLast?_isSome.2 hne)]

theorem IsNumeral.take (h : IsNumeral ds) {k : ℕ} (hk : 0 < k) : IsNumeral (ds.take k) := by
  obtain ⟨⟨hne, hdigits⟩, hhead⟩ := h
  refine ⟨⟨by simp [hne, hk.ne'], fun c hc => hdigits c (List.mem_of_mem_take hc)⟩, ?_⟩
  rwa [List.head?_take, if_neg hk.ne']

theorem IsFraction.drop (h : IsFraction ds) {k : ℕ} (hk : k < ds.length) :
    IsFraction (ds.drop k) := by
  obtain ⟨⟨hne, hdigits⟩, hlast⟩ := h
  refine ⟨⟨by simpa using hk, fun c hc => hdigits c (List.mem_of_mem_drop hc)⟩, ?_⟩
  rwa [List.getLast?_drop, if_neg (by omega)]

end

theorem isNumeral_toDigits {n : ℕ} (hn : 0 < n) : IsNumeral (Nat.toDigits 10 n) := by
  obtain ⟨c, cs, hcs, -, hzero⟩ := toDigits_eq_cons hn
  refine ⟨⟨Nat.toDigits_ne_nil, fun c hc => isDigit_of_mem_toDigits hc⟩, ?_⟩
  rw [hcs]
  simpa using hzero

theorem Reduced.isNumeral_digits {d : Decimal} (h : d.Reduced) : IsNumeral d.digits :=
  isNumeral_toDigits h.coefficient_pos

theorem Reduced.isFraction_digits {d : Decimal} (h : d.Reduced) : IsFraction d.digits :=
  ⟨h.isNumeral_digits.1, h.getLast?_digits_ne⟩

/-! ## Layouts -/

/-- A point with digits behind it, or nothing for no digits. -/
def behindPoint : List Char → List Char
  | [] => []
  | cs => '.' :: cs

/-- How digits are laid out when the point falls at some place. -/
inductive Layout (ds : List Char) : ℤ → List Char → Prop
  | whole {zeros : ℕ} : ds.length + zeros ≤ 21 →
      Layout ds (ds.length + zeros) (ds ++ List.replicate zeros '0')
  | mixed {cut : ℕ} : 0 < cut → cut < ds.length → cut ≤ 21 →
      Layout ds cut (ds.take cut ++ '.' :: ds.drop cut)
  | fraction {zeros : ℕ} : zeros ≤ 5 →
      Layout ds (-zeros) ('0' :: '.' :: (List.replicate zeros '0' ++ ds))
  | large {c : Char} {cs : List Char} {power : ℕ} : ds = c :: cs → 21 ≤ power →
      Layout ds (power + 1) (c :: (behindPoint cs ++ 'e' :: '+' :: Nat.toDigits 10 power))
  | small {c : Char} {cs : List Char} {power : ℕ} : ds = c :: cs → 7 ≤ power →
      Layout ds (1 - power) (c :: (behindPoint cs ++ 'e' :: '-' :: Nat.toDigits 10 power))

theorem layout_positional {d : Decimal} (hlow : -6 < d.point) (hhigh : d.point ≤ 21) :
    Layout d.digits d.point d.positional := by
  unfold positional
  generalize d.point = p at hlow hhigh ⊢
  split_ifs with hsmall hlarge
  · obtain ⟨zeros, rfl⟩ : ∃ zeros : ℕ, p = -zeros := ⟨(-p).toNat, by omega⟩
    rw [neg_neg, Int.toNat_natCast]
    exact .fraction (by omega)
  · obtain ⟨zeros, rfl⟩ : ∃ zeros : ℕ, p = d.digits.length + zeros :=
      ⟨(p - d.digits.length).toNat, by omega⟩
    rw [add_sub_cancel_left, Int.toNat_natCast]
    exact .whole (by omega)
  · obtain ⟨cut, rfl⟩ : ∃ cut : ℕ, p = cut := ⟨p.toNat, by omega⟩
    rw [Int.toNat_natCast]
    exact .mixed (by omega) (by omega) (by omega)

theorem scientific_eq (d : Decimal) :
    ∃ c cs, d.digits = c :: cs ∧ d.scientific = c :: (behindPoint cs ++ d.powerMark) := by
  unfold scientific
  rcases hd : d.digits with _ | ⟨c, _ | ⟨c', cs⟩⟩
  · exact absurd hd d.digits_ne_nil
  · exact ⟨c, [], rfl, rfl⟩
  · exact ⟨c, c' :: cs, rfl, rfl⟩

theorem layout_scientific {d : Decimal} (h : d.point ≤ -6 ∨ 21 < d.point) :
    Layout d.digits d.point d.scientific := by
  obtain ⟨c, cs, hdigits, htext⟩ := d.scientific_eq
  rw [htext, powerMark]
  generalize d.point = p at h ⊢
  rcases h with h | h
  · obtain ⟨power, rfl⟩ : ∃ power : ℕ, p = 1 - power := ⟨(1 - p).toNat, by omega⟩
    rw [if_pos (by omega), show (1 - power - 1 : ℤ).natAbs = power by omega]
    exact .small hdigits (by omega)
  · obtain ⟨power, rfl⟩ : ∃ power : ℕ, p = power + 1 := ⟨(p - 1).toNat, by omega⟩
    rw [if_neg (by omega), show (power + 1 - 1 : ℤ).natAbs = power by omega]
    exact .large hdigits (by omega)

/-- A digit, others behind a point, and a power of ten are an exponent form. -/
theorem exponentForm_cons {c sign : Char} {cs es : List Char} (hnumeral : IsNumeral (c :: cs))
    (hfraction : IsFraction (c :: cs)) (hsign : sign = '+' ∨ sign = '-') (hes : IsNumeral es) :
    ExponentForm (c :: (behindPoint cs ++ 'e' :: sign :: es)) := by
  have hfirst : IsNumeral [c] := hnumeral.take one_pos
  cases cs with
  | nil => exact .single hfirst hsign hes
  | cons c' cs =>
    have hrest : IsFraction (c' :: cs) := hfraction.drop (k := 1) (by simp)
    exact .point hfirst hrest hsign hes

theorem Layout.fixedForm_or_exponentForm {ds body : List Char} {p : ℤ} (h : Layout ds p body)
    (hnumeral : IsNumeral ds) (hfraction : IsFraction ds) :
    (FixedForm body ∧ -6 < p ∧ p ≤ 21) ∨ (ExponentForm body ∧ (p ≤ -6 ∨ 21 < p)) := by
  have hlength : 0 < ds.length := List.length_pos_iff.2 hnumeral.1.1
  cases h with
  | whole hzeros => exact Or.inl ⟨.whole (Or.inr (hnumeral.append_zeros _)), by omega⟩
  | mixed hpos hlt hle =>
    exact Or.inl ⟨.point (Or.inr (hnumeral.take hpos)) (hfraction.drop hlt), by omega⟩
  | @fraction zeros hzeros =>
    have hform : FixedForm (['0'] ++ '.' :: (List.replicate zeros '0' ++ ds)) :=
      .point (Or.inl rfl) (hfraction.zeros_append zeros)
    exact Or.inl ⟨hform, by omega⟩
  | large hds hpower =>
    subst hds
    have hpower' := isNumeral_toDigits (show 0 < _ from lt_of_lt_of_le (by norm_num) hpower)
    exact Or.inr ⟨exponentForm_cons hnumeral hfraction (Or.inl rfl) hpower', by omega⟩
  | small hds hpower =>
    subst hds
    have hpower' := isNumeral_toDigits (show 0 < _ from lt_of_lt_of_le (by norm_num) hpower)
    exact Or.inr ⟨exponentForm_cons hnumeral hfraction (Or.inr rfl) hpower', by omega⟩

/-- **Layouts are in the form that the point decides on.** -/
theorem Layout.forms {ds body : List Char} {p : ℤ} (h : Layout ds p body) (hnumeral : IsNumeral ds)
    (hfraction : IsFraction ds) :
    (ExponentForm body ↔ p ≤ -6 ∨ 21 < p) ∧ (FixedForm body ↔ -6 < p ∧ p ≤ 21) := by
  rcases h.fixedForm_or_exponentForm hnumeral hfraction with ⟨hform, hp⟩ | ⟨hform, hp⟩
  · refine ⟨⟨fun he => ?_, fun h => by omega⟩, fun _ => hp, fun _ => hform⟩
    exact absurd hform he.not_fixedForm
  · refine ⟨⟨fun _ => hp, fun _ => hform⟩, fun hf => ?_, fun h => by omega⟩
    exact absurd hf hform.not_fixedForm

end RecordWalk.Decimal
