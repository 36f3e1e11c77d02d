import Mathlib.Algebra.Ring.Nat
import RecordWalk.Proofs.Record.Literal
import RecordWalk.Proofs.Session.Reach

/-!
# Cursors in a session

A cursor holds the names of its record, so nothing that a session does to records, variables or
other cursors reaches it: only steps that name the cursor move it. What such a step asks for is a
number of names, one for `next` and all of them for `rest`. All there is to know about a cursor is
how many names it was asked for since its start (`Cursor.asked`).

**Theorem (`cursor_yields`).** In a session that took any steps, a cursor that was asked for `k`
names since its start answers the next request with the name at index `k`, or with nothing if its
record has no more, and tells how many are left. The names of the record are distinct, so none
comes twice.

The first part is one lemma on what a request does to a cursor (`cursor_answer`) and an induction
over the steps. The second needs that no value in reach has a record with a repeated name
(`Value.Distinct`), which building keeps.
-/

namespace RecordWalk

/-! ## Distinct names -/

/-- No record in a value has a name twice. -/
inductive Value.Distinct : Value → Prop
  | plain {v : Value} : v.isObject = false → Distinct v
  | function {f : Callable} : Distinct (.function f)
  | record {r : Record Value} :
      r.names.Nodup → (∀ p ∈ r.entries, Distinct p.2) → Distinct (.record r)

theorem Value.Distinct.nodup_names {v : Value} (h : v.Distinct) : v.asRecord.names.Nodup := by
  cases v with
  | record r =>
    cases h with
    | plain h => cases h
    | record hr _ => exact hr
  | _ => exact List.nodup_nil

theorem Value.distinct_invariant : ValueInvariant fun _ v => v.Distinct where
  grows _ h := h
  plain := .plain
  record h := .record (Record.nodup_names_build _ _) fun p hp =>
    h p (Record.mem_of_mem_entries_build hp)
  function := .function
  entry h hp := by
    cases h with
    | plain h => cases h
    | record _ hr => exact hr _ hp

/-! ## One cursor -/

namespace Cursor

/-- The cursor over some names that was asked for `k` names. -/
def asked (names : List String) (k : Nat) : Cursor := ⟨names, min k names.length⟩

theorem next_asked (names : List String) (k : Nat) :
    (asked names k).next = (names[k]?, asked names (k + 1)) := by
  unfold next asked
  by_cases hk : k < names.length
  · simp only [Nat.min_eq_left (Nat.le_of_lt hk), Nat.min_eq_left (Nat.succ_le_of_lt hk),
      List.getElem?_eq_getElem hk]
  · have hle : names.length ≤ k := Nat.le_of_not_lt hk
    simp only [Nat.min_eq_right hle, Nat.min_eq_right (Nat.le_succ_of_le hle),
      List.getElem?_eq_none (Nat.le_refl names.length), List.getElem?_eq_none hle]

theorem rest_asked (names : List String) (k : Nat) :
    (asked names k).rest = (names.drop k, asked names (k + names.length)) := by
  unfold rest asked
  simp only [Prod.mk.injEq, mk.injEq, true_and]
  refine ⟨?_, by omega⟩
  rcases Nat.le_total k names.length with hk | hk
  · rw [Nat.min_eq_left hk]
  · rw [Nat.min_eq_right hk, List.drop_length, List.drop_of_length_le hk]

theorem remaining_asked (names : List String) (k : Nat) :
    (asked names k).remaining = names.length - k := by
  unfold remaining asked
  simp only
  omega

end Cursor

/-! ## What a step does to a cursor -/

namespace Session

theorem lookup_filter_ne {α : Type} {name c : String} (h : c ≠ name) (l : List (String × α)) :
    (l.filter (·.1 ≠ name)).lookup c = l.lookup c := by
  induction l with
  | nil => rfl
  | cons p l ih =>
    obtain ⟨n, v⟩ := p
    by_cases hn : n = name
    · rw [List.filter_cons_of_neg (by simpa using hn), ih, List.lookup_cons,
        beq_eq_false_iff_ne.2 (hn ▸ h)]
    · rw [List.filter_cons_of_pos (by simpa using hn), List.lookup_cons, List.lookup_cons, ih]

theorem cursor_setCursor (s : Session) (name c : String) (k : Cursor) :
    (s.setCursor name k).cursor c = if c = name then k else s.cursor c := by
  unfold cursor setCursor
  by_cases h : c = name
  · rw [if_pos h, h, List.lookup_cons_self]
    rfl
  · rw [if_neg h, List.lookup_cons, beq_eq_false_iff_ne.2 h, lookup_filter_ne h]

/-- What a request does to a cursor: only a request that names the cursor does anything. -/
theorem cursor_answer (s : Session) (q : Request) (c : String) :
    (s.answer q).2.cursor c =
      match q with
      | .start e name => if c = name then (s.build e).1.asRecord.cursor else s.cursor c
      | .next name => if c = name then (s.cursor name).next.2 else s.cursor c
      | .rest name => if c = name then (s.cursor name).rest.2 else s.cursor c
      | _ => s.cursor c := by
  cases q with
  | start e name => exact cursor_setCursor _ name c _
  | next name => exact cursor_setCursor s name c (s.cursor name).next.2
  | rest name => exact cursor_setCursor s name c (s.cursor name).rest.2
  | _ => rfl

theorem cursor_step (s : Session) (p : Step) (c : String) :
    (s.step p).2.cursor c = (s.answer p.request).2.cursor c := by
  rcases s.step_cases p with h | ⟨_, _, _, h⟩
  · rw [h]
  · rw [h]
    rfl

end Session

/-- The number of names that a step asks of a cursor over `size` names. -/
def Step.demand (c : String) (size : Nat) (p : Step) : Nat :=
  match p.request with
  | .next name => if c = name then 1 else 0
  | .rest name => if c = name then size else 0
  | _ => 0

namespace Session

variable {c : String} {names : List String}

/-- A step that does not start the cursor anew asks it for its demand. -/
theorem cursor_step_asked {s : Session} {k : Nat} {p : Step}
    (hp : ∀ e, p.request ≠ .start e c) (hc : s.cursor c = .asked names k) :
    (s.step p).2.cursor c = .asked names (k + p.demand c names.length) := by
  rw [cursor_step, cursor_answer]
  unfold Step.demand
  cases hq : p.request with
  | start e name =>
    have hne : c ≠ name := fun h => hp e (h ▸ hq)
    simp only [if_neg hne]
    exact hc
  | next name =>
    by_cases h : c = name
    · simp only [if_pos h]
      rw [← h, hc, Cursor.next_asked]
    · simp only [if_neg h]
      exact hc
  | rest name =>
    by_cases h : c = name
    · simp only [if_pos h]
      rw [← h, hc, Cursor.rest_asked]
    · simp only [if_neg h]
      exact hc
  | _ => exact hc

theorem cursor_run_asked (ps : List Step) :
    ∀ {s : Session} {k : Nat}, (∀ p ∈ ps, ∀ e, p.request ≠ .start e c) →
      s.cursor c = .asked names k →
      (s.run ps).2.cursor c = .asked names (k + (ps.map (Step.demand c names.length)).sum) := by
  induction ps with
  | nil => exact fun _ hc => hc
  | cons p ps ih =>
    intro s k hps hc
    have hstep := cursor_step_asked (hps p List.mem_cons_self) hc
    rw [run_cons, ih (fun q hq => hps q (List.mem_cons_of_mem p hq)) hstep, List.map_cons,
      List.sum_cons, Nat.add_assoc]

theorem answer_next_asked {s : Session} {k : Nat} (hc : s.cursor c = .asked names k) :
    (s.answer (.next c)).1 = .next names[k]? (names.length - (k + 1)) := by
  show Answer.next (s.cursor c).next.1 (s.cursor c).next.2.remaining = _
  rw [hc, Cursor.next_asked, Cursor.remaining_asked]

theorem answer_rest_asked {s : Session} {k : Nat} (hc : s.cursor c = .asked names k) :
    (s.answer (.rest c)).1 = .names (names.drop k) := by
  show Answer.names (s.cursor c).rest.1 = _
  rw [hc, Cursor.rest_asked]

/-- **Cursors are independent, exhaustive and fused.** Take any run of a session in which the cursor
`c` is started on a record and not started anew later, and let the steps after the start ask it for
`k` names, with any other steps among them: on other cursors, on records, on variables. The start
tells the number of names of the record, which are distinct. The cursor stands at `k`, but never
behind the end. The next request gets the name at index `k`, and nothing from the end on, with the
number of names then left; a request for the rest gets all names from index `k` on. -/
theorem cursor_yields (before between : List Step) (e : Expr) (c : String) (bindTo : Option String)
    (h : ∀ p ∈ between, ∀ e', p.request ≠ .start e' c) :
    let s₀ := (empty.run before).2
    let r := (s₀.build e).1.asRecord
    let s := (empty.run (before ++ ⟨.start e c, bindTo⟩ :: between)).2
    let k := (between.map (Step.demand c r.size)).sum
    (s₀.step ⟨.start e c, bindTo⟩).1 = .started r.size ∧ r.names.Nodup ∧
      s.cursor c = ⟨r.names, min k r.size⟩ ∧
      (∀ b, (s.step ⟨.next c, b⟩).1 = .next r.names[k]? (r.size - (k + 1))) ∧
      (∀ b, (s.step ⟨.rest c, b⟩).1 = .names (r.names.drop k)) := by
  intro s₀ r s k
  have hsize : r.names.length = r.size := List.length_map _
  have hdistinct : r.names.Nodup :=
    have hs₀ := Value.distinct_invariant.sound_run before (sound_empty _)
    (Value.distinct_invariant.sound_build hs₀ e).2.nodup_names
  have hstart : (s₀.step ⟨.start e c, bindTo⟩).2.cursor c = .asked r.names 0 := by
    rw [cursor_step, cursor_answer]
    simp only [if_true]
    show Cursor.mk r.names 0 = Cursor.mk r.names (min 0 r.names.length)
    rw [Nat.zero_min]
  have hs : s.cursor c = .asked r.names k := by
    show (empty.run (before ++ ⟨.start e c, bindTo⟩ :: between)).2.cursor c = _
    rw [run_append, run_cons, cursor_run_asked between h hstart, hsize, Nat.zero_add]
  refine ⟨?_, hdistinct, ?_, fun b => ?_, fun b => ?_⟩
  · rw [step_fst, ← hsize]
    rfl
  · rw [hs, ← hsize]
    rfl
  · rw [step_fst, answer_next_asked hs, hsize]
  · rw [step_fst, answer_rest_asked hs]

/-- Two cursors on one record, one of them at its end, a walk that fails, and then the variable is
dropped: the other cursor still gives the second name. -/
theorem cursor_yields_after_drop :
    let before : List Step :=
      [⟨.value (.record [("a", .null), ("b", .text "x"), ("a", .undefined)]), some "r"⟩,
        ⟨.start (.reference "r") "d", none⟩]
    let between : List Step :=
      [⟨.next "d", none⟩, ⟨.next "c", none⟩, ⟨.walk (.reference "r"), none⟩, ⟨.rest "d", none⟩,
        ⟨.drop "r", none⟩]
    let s := (empty.run (before ++ ⟨.start (.reference "r") "c", none⟩ :: between)).2
    (∀ p ∈ between, ∀ e, p.request ≠ .start e "c") ∧
      (s.step ⟨.next "c", none⟩).1 = .next (some "b") 0 := by
  intro before between s
  have h : ∀ p ∈ between, ∀ e, p.request ≠ .start e "c" := by simp [between]
  obtain ⟨-, -, -, hnext, -⟩ := cursor_yields before between (.reference "r") "c" none h
  exact ⟨h, hnext none⟩

end Session

end RecordWalk
