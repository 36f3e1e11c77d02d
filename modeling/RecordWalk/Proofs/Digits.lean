import Mathlib.Data.List.TakeWhile
import Mathlib.Data.Nat.Init

/-!
# Digits of a numeral

Numerals are written with `Nat.toDigits 10`. What writers and readers need to know about it: a run
of digits ends where something else begins, the first digit of a positive number is not zero, and
the last digit is the remainder by ten. Code points are written in base sixteen; a numeral of either
base denotes one number.
-/

namespace RecordWalk

/-- Digits are split off from what does not begin with one. -/
theorem split_digits (ds rest : List Char) (hd : ∀ c ∈ ds, c.isDigit)
    (hrest : rest.takeWhile Char.isDigit = []) :
    (ds ++ rest).takeWhile Char.isDigit = ds ∧ (ds ++ rest).dropWhile Char.isDigit = rest := by
  have h := List.takeWhile_append_dropWhile (p := Char.isDigit) (l := rest)
  rw [hrest, List.nil_append] at h
  rw [List.takeWhile_append_of_pos hd, List.dropWhile_append_of_pos hd, hrest, h]
  exact ⟨List.append_nil ds, rfl⟩

theorem isDigit_of_mem_toDigits {n : Nat} {c : Char} (hc : c ∈ Nat.toDigits 10 n) : c.isDigit :=
  Nat.isDigit_of_mem_toDigits (by decide) (by decide) hc

theorem notMem_toDigits {n : Nat} {c : Char} (hc : c.isDigit = false) : c ∉ Nat.toDigits 10 n := by
  intro h
  rw [isDigit_of_mem_toDigits h] at hc
  cases hc

/-- The last digit is the remainder by ten. -/
theorem getLast?_toDigits (n : Nat) :
    (Nat.toDigits 10 n).getLast? = some (Nat.digitChar (n % 10)) := by
  by_cases h : n < 10
  · rw [Nat.toDigits_of_lt_base h, Nat.mod_eq_of_lt h]
    rfl
  · rw [Nat.toDigits_of_base_le (by decide) (Nat.le_of_not_lt h), List.getLast?_concat]

/-- A positive number has a first digit other than zero. -/
theorem toDigits_eq_cons {n : Nat} (hn : 0 < n) :
    ∃ c cs, Nat.toDigits 10 n = c :: cs ∧ c.isDigit ∧ c ≠ '0' := by
  induction n using Nat.strongRecOn with
  | ind n ih =>
    by_cases h : n < 10
    · refine ⟨Nat.digitChar n, [], Nat.toDigits_of_lt_base h, ?_, ?_⟩
      · simp [h]
      · simp only [ne_eq, Nat.digitChar_eq_zero]
        omega
    · have hle : 10 ≤ n := Nat.le_of_not_lt h
      obtain ⟨c, cs, hc, hdigit, hzero⟩ := ih (n / 10) (by omega) (by omega)
      refine ⟨c, cs ++ [Nat.digitChar (n % 10)], ?_, hdigit, hzero⟩
      rw [Nat.toDigits_of_base_le (by decide) hle, hc, List.cons_append]

/-! ## Bases up to sixteen -/

theorem digitChar_inj {d e : Nat} (hd : d < 16) (he : e < 16)
    (h : Nat.digitChar d = Nat.digitChar e) : d = e := by
  have hall : ∀ d < 16, ∀ e < 16, Nat.digitChar d = Nat.digitChar e → d = e := by decide
  exact hall d hd e he h

/-- Different numbers have different numerals. -/
theorem toDigits_injective {base : Nat} (hlow : 1 < base) (hhigh : base ≤ 16) :
    Function.Injective (Nat.toDigits base) := by
  intro m
  induction m using Nat.strongRecOn with
  | ind m ih =>
    intro n h
    -- The last digit is the remainder, and the others are the numeral of the quotient.
    rw [Nat.toDigits_eq_if hlow, Nat.toDigits_eq_if (n := n) hlow] at h
    split_ifs at h with hm hn hn
    · exact digitChar_inj (by omega) (by omega) (List.singleton_inj.1 h)
    · have hlength := congrArg List.length h
      simp [Nat.toDigits_ne_nil] at hlength
    · have hlength := congrArg List.length h
      simp [Nat.toDigits_ne_nil] at hlength
    · obtain ⟨hquotient, hdigit⟩ := List.append_inj' h rfl
      have hpos : 0 < base := by omega
      have hmod := digitChar_inj ((Nat.mod_lt m hpos).trans_le hhigh)
        ((Nat.mod_lt n hpos).trans_le hhigh) (List.singleton_inj.1 hdigit)
      have hdiv := ih (m / base) (Nat.div_lt_self (by omega) hlow) hquotient
      rw [← Nat.div_add_mod m base, ← Nat.div_add_mod n base, hdiv, hmod]

theorem exists_digit_of_mem_toDigits {base n : Nat} (hlow : 1 < base) {c : Char}
    (h : c ∈ Nat.toDigits base n) : ∃ d < base, c = Nat.digitChar d := by
  induction n using Nat.strongRecOn with
  | ind n ih =>
    rw [Nat.toDigits_eq_if hlow] at h
    split_ifs at h with hn
    · exact ⟨n, hn, List.mem_singleton.1 h⟩
    · rcases List.mem_append.1 h with h | h
      · exact ih (n / base) (Nat.div_lt_self (by omega) hlow) h
      · exact ⟨n % base, Nat.mod_lt n (by omega), List.mem_singleton.1 h⟩

end RecordWalk
