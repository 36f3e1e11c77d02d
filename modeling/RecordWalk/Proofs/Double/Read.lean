import RecordWalk.Proofs.Numeral.Bytes

/-!
# What texts read as numbers

Reading gives NaN for what is no numeral, and for nothing else: each numeral has a value, and none
of the values is NaN. So the texts with a number are those of the grammar, between blanks.

What follows a sign has a magnitude of its own, and the sign only adds the sign to it
(`exists_read_eq_signed`). Hence a minus negates what stands behind it.

**Theorem (`read_grammar`).** A text reads as a number exactly if its trimmed form is in the
grammar. Reading by byte positions comes to the same and never leaves the text.
-/

namespace RecordWalk.Double

open Numeral (Accepted Body)

theorem value_ne_nan (n : Numeral) : n.value ≠ nan := by
  cases n <;> simp [Numeral.value, zero]

theorem read_ne_nan_iff {s : String} {t : List Char} (h : IsTrimmed s.toList t) :
    read s ≠ nan ↔ Accepted t := by
  rw [← Numeral.isSome_parseTrimmed?_iff, read, Numeral.parse?_of_isTrimmed h]
  cases Numeral.parseTrimmed? t with
  | none => simp
  | some n => simp [value_ne_nan]

/-- What follows a sign has a magnitude, whatever the sign is and whatever blanks there are. -/
theorem exists_read_eq_signed {cs : List Char} (h : Body cs) :
    ∃ m, ∀ (s : String) (sign : List Char) (negative : Bool), Sign sign negative →
      IsTrimmed s.toList (sign ++ cs) → read s = signed negative m := by
  rcases h with rfl | ⟨q, h⟩
  · refine ⟨.infinity, fun s sign negative hsign hs => ?_⟩
    rw [read, Numeral.parse?_of_isTrimmed hs, Numeral.parseTrimmed?_infinity hsign]
    rfl
  · obtain ⟨d, hd, -⟩ := h.exists_parse?
    refine ⟨d.round, fun s sign negative hsign hs => ?_⟩
    rw [read, Numeral.parse?_of_isTrimmed hs, Numeral.parseTrimmed?_of_parse? hsign hd]
    rfl

/-- What follows the sign of a trimmed text is trimmed, too. -/
theorem isTrimmed_of_cons {cs t : List Char} {c : Char} (h : IsTrimmed cs (c :: t)) (ht : Body t) :
    IsTrimmed t t := by
  obtain ⟨-, -, -, -, -, -, hlast⟩ := h
  obtain ⟨d, rest, rfl, hd⟩ := ht.eq_cons
  refine ⟨[], [], by simp, by simp, by simp, fun x hx => ?_, fun x hx => ?_⟩
  · obtain rfl : d = x := Option.some.inj hx
    rw [← isBlank_eq_false_iff]
    rcases hd with hd | rfl | rfl
    · exact isBlank_of_isLiteralChar (isLiteralChar_of_isDigit hd)
    · rfl
    · rfl
  · exact hlast x (by rwa [List.getLast?_cons_cons])

/-- **A text reads as a number exactly if it is a numeral between blanks.** Take the blanks off at
both ends of a text; there is one way to do so.

* What reads as a number is nothing at all, a radix literal, or a sign with `Infinity` or a decimal
  literal. Everything else reads as NaN.
* Nothing at all reads as the positive zero.
* With a minus a text reads as the negation of what it reads as without, and a plus changes nothing.
* A scanner on the bytes of the text stays within them and cuts between characters, and reads the
  same. What it takes for a decimal literal is one. -/
theorem read_grammar (s : String) :
    ∃ t, IsTrimmed s.toList t ∧ (∀ t', IsTrimmed s.toList t' → t' = t) ∧
      (read s ≠ nan ↔ Accepted t) ∧
      (t = [] → read s = zero) ∧
      (∀ cs, Body cs → (t = '-' :: cs → read s = (read (String.ofList cs)).negate) ∧
        (t = '+' :: cs → read s = read (String.ofList cs))) ∧
      ByteScan.readAt? s = some (read s) ∧
      ∀ cs, ByteScan.isLiteral? (utf8Bytes cs) = some (Decimal.parse? cs).isSome := by
  have ht := isTrimmed_trimBlank s.toList
  refine ⟨trimBlank s.toList, ht, fun t' ht' => ht'.eq_trimBlank, read_ne_nan_iff ht,
    fun hempty => ?_, fun cs hcs => ?_, ByteScan.readAt?_eq s, ByteScan.isLiteral?_utf8Bytes⟩
  · rw [read, Numeral.parse?, hempty]
    rfl
  · obtain ⟨m, hm⟩ := exists_read_eq_signed hcs
    have hplain (c : Char) (hc : trimBlank s.toList = c :: cs) :
        read (String.ofList cs) = signed false m := by
      have hown := isTrimmed_of_cons (hc ▸ ht) hcs
      exact hm _ [] false .absent (by rwa [String.toList_ofList])
    refine ⟨fun hminus => ?_, fun hplus => ?_⟩
    · rw [hplain '-' hminus, hm s ['-'] true .minus (by rwa [hminus] at ht)]
      rfl
    · rw [hplain '+' hplus, hm s ['+'] false .plus (by rwa [hplus] at ht)]

/-- A lone point, a power without digits, a sign before a radix mark, two signs, and a line end that
does not count as blank. -/
example : [".", "1e", "-0x10", "+-1", "\x857"].map read = List.replicate 5 nan := by decide

end RecordWalk.Double
