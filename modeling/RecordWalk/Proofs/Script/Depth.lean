import RecordWalk.Proofs.Record.Literal
import RecordWalk.Proofs.Script.Reach

/-!
# The depth of calls

`Store.invoke` bounds the depth of nested calls by the identity of the function, and a call at depth
zero would return undefined. That never happens. A function is entered after all that its body
holds, so its behavior can call only functions with smaller identities, and the bound goes down by
one where the identity goes down by one or more.

**Theorem (`Store.Ordered.invoke_eq_run`).** In a store that building and calling have made, a call
runs the behavior of the function, and the calls in it are calls again, with no bound in sight.

A behavior is run with a way to call functions. The proof compares two such ways: if they agree on
the functions below some identity, a behavior that holds only such functions runs the same with
both (`Behavior.Holds.run_congr`). So all depths above the identity of a function agree.
-/

namespace RecordWalk

/-! ## The functions in a value -/

/-- All functions in a value, also those in records, have identities below a bound. -/
inductive Value.Below (n : Nat) : Value → Prop
  | plain {v : Value} : v.isObject = false → Below n v
  | function {f : Callable} : f.id < n → Below n (.function f)
  | record {r : Record Value} : (∀ p ∈ r.entries, Below n p.2) → Below n (.record r)

theorem Value.Below.mono {m n : Nat} (hmn : m ≤ n) {v : Value} (h : v.Below m) : v.Below n := by
  induction h with
  | plain hv => exact .plain hv
  | function hf => exact .function (Nat.lt_of_lt_of_le hf hmn)
  | record _ ih => exact .record ih

theorem Value.Below.asRecord_entry {n : Nat} {v : Value} (h : v.Below n) {p : String × Value}
    (hp : p ∈ v.asRecord.entries) : p.2.Below n := by
  cases v with
  | record r =>
    cases h with
    | plain hv => cases hv
    | record hr => exact hr p hp
  | _ => exact nomatch hp

theorem Store.Grows.size_functions_le {s t : Store} (h : s.Grows t) :
    s.functions.size ≤ t.functions.size := by
  refine Nat.le_of_not_lt fun hlt => ?_
  have hs := Array.getElem?_eq_getElem hlt
  have ht := h.function _ _ hs
  rw [Array.getElem?_eq_none (Nat.le_refl _)] at ht
  cases ht

/-- Values have functions of the store only. -/
theorem Value.below_invariant : ValueInvariant fun s v => v.Below s.functions.size where
  grows hst h := h.mono hst.size_functions_le
  plain := .plain
  record h := .record fun p hp => h p (Record.mem_of_mem_entries_build hp)
  function {s name b} := by
    refine .function ?_
    show s.functions.size < (s.functions.push _).size
    rw [Array.size_push]
    exact Nat.lt_succ_self _
  entry h hp := h.asRecord_entry hp

/-- Behaviors hold only functions that were entered before their own. -/
abbrev Store.Ordered (s : Store) : Prop := s.Sound fun s v => v.Below s.functions.size

theorem Store.Ordered.holds_below {s : Store} (hs : s.Ordered) {i : Nat}
    {p : Callable × Behavior} (hp : s.functions[i]? = some p) : p.2.Holds (Value.Below i) := by
  obtain ⟨s₀, rfl, -, hb⟩ := hs i p hp
  exact hb

/-! ## Two ways to call -/

/-- Two ways to call functions agree on those below an identity. -/
def Invoke.AgreeBelow (n : Nat) (invoke invoke' : Invoke Store) : Prop :=
  ∀ {f : Callable}, f.id < n → ∀ {s : Store}, s.Ordered → invoke f s = invoke' f s

section

variable {n : Nat} {invoke invoke' : Invoke Store}
  (hi : Invoke.Keeps (fun s v => v.Below s.functions.size) invoke)
  (h : Invoke.AgreeBelow n invoke invoke')

include h in
theorem Value.Below.call_congr {v : Value} (hv : v.Below n) {s : Store} (hs : s.Ordered) :
    v.call invoke s = v.call invoke' s := by
  cases v with
  | function f =>
    cases hv with
    | plain hplain => cases hplain
    | function hf => exact h hf hs
  | _ => rfl

include hi h in
theorem Record.walkNames_congr {r : Record Value} (hr : ∀ p ∈ r.entries, p.2.Below n)
    (names : List String) : ∀ (acc : String) {s : Store}, s.Ordered →
      r.walkNames invoke names acc s = r.walkNames invoke' names acc s := by
  induction names with
  | nil => exact fun _ _ _ => rfl
  | cons name names ih =>
    intro acc s hs
    have hget := Record.outcomeHolds_get hr name
    unfold Record.walkNames
    cases hv : r.get name with
    | error f => rfl
    | ok v =>
      rw [hv] at hget
      have hsound := (hi.call v hs).1.sound
      simp only [← hget.call_congr h hs]
      rcases hcall : v.call invoke s with ⟨_ | result, t⟩
      · rfl
      · rw [hcall] at hsound
        exact ih (result.appendTo acc) hsound

include hi h in
/-- A behavior that holds only functions below an identity runs the same with both ways to call. -/
theorem Behavior.Holds.run_congr {b : Behavior} (hb : b.Holds (Value.Below n)) :
    ∀ (k : Nat) {s : Store}, s.Ordered → b.run invoke k s = b.run invoke' k s := by
  induction hb with
  | @sequence bs _ ih =>
    intro k s hs
    show runSequence invoke bs k s = runSequence invoke' bs k s
    by_cases hbs : bs = []
    · rw [hbs, runSequence, runSequence]
    · obtain ⟨b, hb, j, hrun⟩ := runSequence_eq_run hbs k
      rw [hrun, hrun]
      exact ih b hb j hs
  | call hv =>
    intro k s hs
    exact hv.call_congr h hs
  | @walk v hv =>
    intro k s hs
    have hwalk := Record.walkNames_congr hi h (fun p hp => hv.asRecord_entry hp)
      v.asRecord.names "" hs
    rw [Behavior.run, Behavior.run, Record.walk, Record.walk, hwalk]
  | _ =>
    intro k s _
    rw [Behavior.run, Behavior.run]

end

/-! ## Depths -/

namespace Store

/-- All depths above the identity of a function agree. -/
theorem Ordered.invokeWithin_congr {s : Store} (hs : s.Ordered) {f : Callable} {d d' : Nat}
    (hd : f.id < d) (hd' : f.id < d') : invokeWithin d f s = invokeWithin d' f s := by
  induction d generalizing d' f s with
  | zero => exact absurd hd (Nat.not_lt_zero _)
  | succ d ih =>
    obtain ⟨d', rfl⟩ := Nat.exists_eq_add_one_of_ne_zero (Nat.ne_zero_of_lt hd')
    unfold invokeWithin
    cases hp : s.functions[f.id]? with
    | none => rfl
    | some p =>
      -- The behavior holds functions below `f` only, for which one depth less is enough.
      have hagree : Invoke.AgreeBelow f.id (invokeWithin d) (invokeWithin d') :=
        fun hg _ ht => ih ht (by omega) (by omega)
      exact (hs.holds_below hp).run_congr (Value.below_invariant.keeps_invokeWithin d) hagree _
        (Keeps.enterCall hs f).sound

/-- A greater depth than that of `invoke` makes no difference. -/
theorem Ordered.invokeWithin_eq_invoke {s : Store} (hs : s.Ordered) {f : Callable} {d : Nat}
    (hd : f.id < d) : invokeWithin d f s = invoke f s :=
  hs.invokeWithin_congr hd (Nat.lt_succ_self _)

/-- **A call runs the behavior of the function**, and the calls in it are calls of the same kind. -/
theorem Ordered.invoke_eq_run {s : Store} (hs : s.Ordered) {f g : Callable} {b : Behavior}
    (h : s.functions[f.id]? = some (g, b)) :
    invoke f s = b.run invoke (s.callCount f) (s.enterCall f) := by
  have hagree : Invoke.AgreeBelow f.id (invokeWithin f.id) invoke :=
    fun hg _ ht => ht.invokeWithin_eq_invoke hg
  have hrun := (hs.holds_below h).run_congr (Value.below_invariant.keeps_invokeWithin f.id) hagree
    (s.callCount f) (Keeps.enterCall hs f).sound
  rw [← hrun]
  show invokeWithin (f.id + 1) f s = _
  unfold invokeWithin
  rw [h]

end Store

end RecordWalk
