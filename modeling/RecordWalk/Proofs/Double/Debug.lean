import RecordWalk.Proofs.Double.Nearest

/-!
# Debug texts of doubles

The debug text of a finite double is its sign and its shortest decimal in positional notation, so it
reads back as the double; a zero keeps its sign. The other doubles, NaN and the two infinities, have
texts that are no numerals.

**Theorem (`debug_injective`).** Different doubles have different debug texts.
-/

namespace RecordWalk.Double

def nonFinite : List Double := [nan, signed false .infinity, signed true .infinity]

theorem isFinite_or_mem (x : Double) : x.IsFinite ∨ x ∈ nonFinite := by
  cases x with
  | nan => exact .inr List.mem_cons_self
  | signed s m =>
    by_cases hm : m = .infinity
    · cases s <;> simp [hm, nonFinite]
    · exact .inl hm

/-- The debug text of a finite double is a sign, a digit and further characters of a literal. -/
theorem debug_eq_of_isFinite {s : Bool} {m : Magnitude} (h : (signed s m).IsFinite) :
    ∃ c cs, (signed s m).debug = String.ofList (signText s ++ c :: cs) ∧ c.isDigit ∧
      (∀ x ∈ cs, isLiteralChar x = true) ∧
      ∃ d, Decimal.parse? (c :: cs) = some d ∧ d.round = m := by
  by_cases hm : m = .zero
  · refine ⟨'0', [], by simp [debug, hm], by decide, by simp, ⟨0, 0⟩, by decide, ?_⟩
    rw [hm]
    rfl
  · obtain ⟨c, cs, htext, hc, hcs⟩ := m.shortest.positional_eq_cons
    obtain ⟨d, hd, hvalue⟩ := m.shortest.parse?_positional
    refine ⟨c, cs, ?_, hc, hcs, d, htext ▸ hd, ?_⟩
    · rw [debug, if_neg hm, if_neg h, htext]
    · rw [Decimal.round_congr hvalue, Magnitude.round_shortest (Magnitude.rank_pos hm)]

/-- **A finite double reads back from its debug text**, the sign of a zero included. -/
theorem read_debug_of_isFinite {x : Double} (h : x.IsFinite) : read x.debug = x := by
  cases x with
  | nan => cases h
  | signed s m =>
    obtain ⟨c, cs, htext, hc, hcs, d, hd, hround⟩ := debug_eq_of_isFinite h
    rw [htext, read, parse?_signText s hc hcs, hd, ← hround]
    rfl

theorem read_debug_of_mem : ∀ x ∈ nonFinite, read x.debug = nan := by decide

/-- **The debug text of a double determines it.** -/
theorem debug_injective : Function.Injective debug := by
  have hfinite {x y : Double} (hx : x.IsFinite) (h : x.debug = y.debug) : x = y := by
    have hread : read y.debug = x := h ▸ read_debug_of_isFinite hx
    rcases y.isFinite_or_mem with hy | hy
    · rw [← hread, read_debug_of_isFinite hy]
    · rw [read_debug_of_mem y hy] at hread
      exact absurd hx (hread ▸ id)
  have hother : ∀ x ∈ nonFinite, ∀ y ∈ nonFinite, x.debug = y.debug → x = y := by decide
  intro x y h
  rcases x.isFinite_or_mem with hx | hx
  · exact hfinite hx h
  rcases y.isFinite_or_mem with hy | hy
  · exact (hfinite hy h.symm).symm
  · exact hother x hx y hy h

theorem paren_notMem_debug (x : Double) : ')' ∉ x.debug.toList := by
  have hother : ∀ y ∈ nonFinite, ')' ∉ y.debug.toList := by decide
  rcases x.isFinite_or_mem with hx | hx
  · cases x with
    | nan => cases hx
    | signed s m =>
      obtain ⟨c, cs, htext, hc, hcs, -⟩ := debug_eq_of_isFinite hx
      rw [htext, String.toList_ofList]
      intro h
      rcases List.mem_append.1 h with h | h
      · cases s <;> simp [signText] at h
      · rcases List.mem_cons.1 h with rfl | h
        · simp at hc
        · exact absurd (hcs _ h) (by decide)
  · exact hother x hx

end RecordWalk.Double
