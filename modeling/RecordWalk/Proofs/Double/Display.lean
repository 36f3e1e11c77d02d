import RecordWalk.Proofs.Decimal.Fewest
import RecordWalk.Proofs.Decimal.Forms
import RecordWalk.Proofs.Double.RoundTrip

/-!
# Displayed doubles in radix ten

The display text of a finite double other than zero is a sign and a body. The body is laid out by
the place of the point of the shortest decimal alone. Still the form depends on the double as it
should, because the point tells how the magnitude compares with each power of ten.

**Theorem (`display_radixTen`).** The body denotes a decimal with the fewest significant digits that
rounds to the magnitude, and the closest of those. It is in exponent form from `1e21` up and below
`1e-6`, and in fixed form between.
-/

namespace RecordWalk.Double

open Decimal (ExponentForm FixedForm Layout)

/-- The body is laid out by the shortest decimal. -/
theorem layout_displayMagnitude (m : Magnitude) :
    Layout m.shortest.digits m.shortest.point (displayMagnitude m) := by
  unfold displayMagnitude positionalRange
  dsimp only
  split_ifs with h
  · rw [Bool.and_eq_true, decide_eq_true_eq, decide_eq_true_eq] at h
    exact Decimal.layout_positional h.1 h.2
  · rw [Bool.and_eq_true, decide_eq_true_eq, decide_eq_true_eq] at h
    exact Decimal.layout_scientific (by omega)

/-- **The display text of a finite double other than zero is its radix-ten text.** It is a minus for
the negative ones and a body. The body denotes a decimal that rounds to the magnitude, has the
fewest significant digits of all that do, and is the closest of those with that many. It is in
exponent form exactly from the double `1e21` up and below the double `1e-6`, and in fixed form
exactly between; both forms are canonical. Zeros are filled in and digits are cut as the layout
says, with counts and cuts that are natural numbers within range. -/
theorem display_radixTen (s : Bool) {m : Magnitude} (hzero : m ≠ .zero) (hinf : m ≠ .infinity) :
    ∃ body d, (display (signed s m)).toList = (if s then ['-'] else []) ++ body ∧
      Decimal.parse? body = some d ∧ d.IsShortest m ∧
      (ExponentForm body ↔
        (Decimal.round ⟨1, 21⟩).rank ≤ m.rank ∨ m.rank < (Decimal.round ⟨1, -6⟩).rank) ∧
      (FixedForm body ↔
        (Decimal.round ⟨1, -6⟩).rank ≤ m.rank ∧ m.rank < (Decimal.round ⟨1, 21⟩).rank) ∧
      Layout m.shortest.digits m.shortest.point body := by
  have hm := Magnitude.rank_pos hzero
  have htop := Magnitude.rank_lt_topRank hinf
  have hreduced := Magnitude.reduced_shortest hm htop
  have hlayout := layout_displayMagnitude m
  obtain ⟨d, hd, hvalue⟩ := parse?_displayMagnitude m
  obtain ⟨hexponent, hfixed⟩ := hlayout.forms hreduced.isNumeral_digits hreduced.isFraction_digits
  have hlarge := Magnitude.lt_point_shortest_iff hm htop 21
  have hsmall := Magnitude.lt_point_shortest_iff hm htop (-6)
  refine ⟨displayMagnitude m, d, ?_, hd, ?_, ?_, ?_, hlayout⟩
  · rw [display, if_neg hzero, if_neg hinf, String.toList_ofList, signText]
  · exact (Magnitude.shortest_isShortest hm htop).congr hreduced.coefficient_pos hvalue.symm
  · rw [hexponent]
    omega
  · rw [hfixed]
    omega

/-- The second magnitude, whose basin holds nine tenths of a power of ten and the power itself. -/
theorem display_radixTen_second :
    let m : Magnitude := ⟨2, by decide⟩
    (m ≠ .zero ∧ m ≠ .infinity) ∧
      ∃ body d, (display (signed true m)).toList = '-' :: body ∧ Decimal.parse? body = some d ∧
        d.IsShortest m ∧ ExponentForm body := by
  intro m
  have hzero : m ≠ .zero := by decide
  have hinf : m ≠ .infinity := by decide
  obtain ⟨body, d, htext, hparse, hshortest, hexponent, -⟩ := display_radixTen true hzero hinf
  have hsmall : m.rank < (Decimal.round ⟨1, -6⟩).rank := by decide +kernel
  exact ⟨⟨hzero, hinf⟩, body, d, htext, hparse, hshortest, hexponent.2 (Or.inr hsmall)⟩

example : display (signed true ⟨2, by decide⟩) = "-1e-323" := by decide +kernel

end RecordWalk.Double
