import RecordWalk.Fixture.Run
import RecordWalk.Proofs.Walk

/-!
# What a run of a fixture reports

A fixture is run with arbitrary callables on an arbitrary state, and with any list of checks.

**Checks in order.** `Check.Passes` and `Check.Errs` say how a single check ends: how many
assertions it makes, and in which state it leaves the callables. `Check.Ends` strings checks
together, each in the state that the one before it left, up to the first that errs. It counts the
assertions without a tally, and lists the calls that the walks make.

**Events.** A traced run does what the run does and writes down when the record is built and which
callables are called. So what is not in its trace was not done.

**Theorem (`result_checks`).** The checks of a fixture end in exactly one way, and the result, the
final state and the trace of a run are those of that end.

A tally and a trace are only ever added to. The induction over the checks therefore carries both,
with the counts and the events so far.
-/

namespace RecordWalk

variable {σ : Type}

/-! ## How checks end -/

namespace Check

/-- The check passes: it makes so many assertions, which all hold, and leaves some state. -/
inductive Passes (invoke : Invoke σ) (r : Record Value) : Check → σ → ℕ → σ → Prop
  | assert {a : Assertion} (s : σ) : a.holds = true → Passes invoke r (.assert a) s 1 s
  | walk {judge : Judge} {s t : σ} {outcome : Except Failure String}
      {assertions : List Assertion} : r.walk invoke s = (outcome, t) →
      judge outcome = .ok assertions → (∀ a ∈ assertions, a.holds = true) →
      Passes invoke r (.walk judge) s assertions.length t

/-- The check errs. An assertion that fails is counted and is the last one that is made; a failure
that is passed on from a walk or raised comes without an assertion. -/
inductive Errs (invoke : Invoke σ) (r : Record Value) : Check → σ → ℕ → FixtureError → σ → Prop
  | assert {a : Assertion} (s : σ) : a.holds = false →
      Errs invoke r (.assert a) s 1 (.assertion a.diagnostic) s
  | walk {judge : Judge} {s t : σ} {outcome : Except Failure String} {a : Assertion}
      {held later : List Assertion} : r.walk invoke s = (outcome, t) →
      judge outcome = .ok (held ++ a :: later) → (∀ b ∈ held, b.holds = true) →
      a.holds = false → Errs invoke r (.walk judge) s (held.length + 1) (.assertion a.diagnostic) t
  | passOn {judge : Judge} {s t : σ} {outcome : Except Failure String} {f : Failure} :
      r.walk invoke s = (outcome, t) → judge outcome = .error f →
      Errs invoke r (.walk judge) s 0 (.raised f) t
  | raise (f : Failure) (s : σ) : Errs invoke r (.raise f) s 0 (.raised f) s

/-- The calls that a check makes. -/
def calls (invoke : Invoke σ) (r : Record Value) : Check → σ → List Callable
  | walk _, s => r.walkCalls invoke s
  | _, _ => []

/-- Checks made in order, each in the state that the one before it left, all pass. -/
inductive PassesAll (invoke : Invoke σ) (r : Record Value) :
    List Check → σ → ℕ → List Callable → σ → Prop
  | nil (s : σ) : PassesAll invoke r [] s 0 [] s
  | cons {c : Check} {cs : List Check} {s t u : σ} {n k : ℕ} {fs : List Callable} :
      Passes invoke r c s n t → PassesAll invoke r cs t k fs u →
      PassesAll invoke r (c :: cs) s (n + k) (c.calls invoke r s ++ fs) u

/-- Checks are made in order up to the first that errs, and none after it. -/
inductive Ends (invoke : Invoke σ) (r : Record Value) :
    List Check → σ → ℕ → List Callable → Option FixtureError → σ → Prop
  | all {cs : List Check} {s t : σ} {n : ℕ} {fs : List Callable} :
      PassesAll invoke r cs s n fs t → Ends invoke r cs s n fs none t
  | first {passed later : List Check} {c : Check} {s t u : σ} {n k : ℕ} {fs : List Callable}
      {e : FixtureError} : PassesAll invoke r passed s n fs t → Errs invoke r c t k e u →
      Ends invoke r (passed ++ c :: later) s (n + k) (fs ++ c.calls invoke r t) (some e) u

/-! ## Every list of checks ends -/

variable (invoke : Invoke σ) (r : Record Value)

/-- Assertions all hold, or there is a first that does not. -/
theorem all_hold_or_first (assertions : List Assertion) :
    (∀ a ∈ assertions, a.holds = true) ∨ ∃ held a later, assertions = held ++ a :: later ∧
      (∀ b ∈ held, b.holds = true) ∧ a.holds = false := by
  induction assertions with
  | nil => exact Or.inl (by simp)
  | cons a rest ih =>
    by_cases ha : a.holds = true
    · rcases ih with hall | ⟨held, b, later, rfl, hheld, hb⟩
      · exact Or.inl (List.forall_mem_cons.2 ⟨ha, hall⟩)
      · exact Or.inr ⟨a :: held, b, later, rfl, List.forall_mem_cons.2 ⟨ha, hheld⟩, hb⟩
    · exact Or.inr ⟨[], a, rest, rfl, by simp, by simpa using ha⟩

theorem passes_or_errs (c : Check) (s : σ) :
    (∃ n t, Passes invoke r c s n t) ∨ ∃ n e t, Errs invoke r c s n e t := by
  cases c with
  | assert a =>
    by_cases ha : a.holds = true
    · exact Or.inl ⟨1, s, .assert s ha⟩
    · exact Or.inr ⟨1, _, s, .assert s (by simpa using ha)⟩
  | walk judge =>
    rcases hwalk : r.walk invoke s with ⟨outcome, t⟩
    rcases hjudge : judge outcome with f | assertions
    · exact Or.inr ⟨0, _, t, .passOn hwalk hjudge⟩
    · rcases all_hold_or_first assertions with hall | ⟨held, a, later, rfl, hheld, ha⟩
      · exact Or.inl ⟨_, t, .walk hwalk hjudge hall⟩
      · exact Or.inr ⟨_, _, t, .walk hwalk hjudge hheld ha⟩
  | raise f => exact Or.inr ⟨0, _, s, .raise f s⟩

theorem exists_ends (cs : List Check) (s : σ) :
    ∃ n fs error? t, Ends invoke r cs s n fs error? t := by
  induction cs generalizing s with
  | nil => exact ⟨0, [], none, s, .all (.nil s)⟩
  | cons c cs ih =>
    rcases passes_or_errs invoke r c s with ⟨n, t, hc⟩ | ⟨n, e, t, hc⟩
    · obtain ⟨_, _, _, u, hcs⟩ := ih t
      cases hcs with
      | all hall => exact ⟨_, _, none, u, .all (.cons hc hall)⟩
      | first hpassed herrs => exact ⟨_, _, some _, u, .first (.cons hc hpassed) herrs⟩
    · have hends : Ends invoke r ([] ++ c :: cs) s _ _ (some e) t := .first (.nil s) hc
      exact ⟨_, _, some e, t, hends⟩

end Check

/-! ## A run follows the checks -/

namespace Tally

variable {held : List Assertion}

theorem assertAll_append (t : Tally) (hheld : ∀ a ∈ held, a.holds = true) (rest : List Assertion) :
    t.assertAll (held ++ rest) = assertAll ⟨t.checked + held.length⟩ rest := by
  induction held generalizing t with
  | nil => rfl
  | cons a held ih =>
    obtain ⟨ha, hheld⟩ := List.forall_mem_cons.1 hheld
    have hassert : t.assert a = (.ok (), ⟨t.checked + 1⟩) := by rw [assert, if_pos ha]
    rw [List.cons_append, assertAll, hassert]
    dsimp only
    rw [ih _ hheld, List.length_cons, Nat.add_assoc, Nat.add_comm 1]

theorem assertAll_of_forall (t : Tally) (hheld : ∀ a ∈ held, a.holds = true) :
    t.assertAll held = (.ok (), ⟨t.checked + held.length⟩) := by
  have h := t.assertAll_append hheld []
  rwa [List.append_nil] at h

/-- The first assertion that fails is counted, and no later one is made. -/
theorem assertAll_of_first (t : Tally) (hheld : ∀ b ∈ held, b.holds = true) {a : Assertion}
    (ha : a.holds = false) (later : List Assertion) :
    t.assertAll (held ++ a :: later) =
      (.error (.assertion a.diagnostic), ⟨t.checked + (held.length + 1)⟩) := by
  have hassert (t : Tally) : t.assert a = (.error (.assertion a.diagnostic), ⟨t.checked + 1⟩) := by
    rw [assert, if_neg (by simp [ha])]
  rw [t.assertAll_append hheld, assertAll, hassert]
  rfl

end Tally

namespace Check

variable {invoke : Invoke σ} {r : Record Value}

theorem Passes.run_eq {c : Check} {s t : σ} {n : ℕ} (h : Passes invoke r c s n t) (y : Tally) :
    c.run invoke r y s = (.ok (), ⟨y.checked + n⟩, t) := by
  cases h with
  | assert s ha => simp only [run, Tally.assert, if_pos ha]
  | walk hwalk hjudge hall => simp only [run, hwalk, hjudge, y.assertAll_of_forall hall]

theorem Errs.run_eq {c : Check} {s t : σ} {n : ℕ} {e : FixtureError}
    (h : Errs invoke r c s n e t) (y : Tally) :
    c.run invoke r y s = (.error e, ⟨y.checked + n⟩, t) := by
  cases h with
  | assert s ha => simp only [run, Tally.assert, ha, Bool.false_eq_true, if_false]
  | walk hwalk hjudge hheld ha => simp only [run, hwalk, hjudge, y.assertAll_of_first hheld ha]
  | passOn hwalk hjudge => simp only [run, hwalk, hjudge, Nat.add_zero]
  | raise f s => rfl

end Check

/-! ## Events -/

/-- What happens to the record of a fixture. -/
inductive Event where
  | build
  | call (f : Callable)

theorem Event.call_injective : Function.Injective Event.call := fun _ _ h => by injection h

/-- Call a callable and add the call to a trace. -/
def traced (invoke : Invoke σ) : Invoke (σ × List Event) := fun f (s, trace) =>
  let (outcome, s) := invoke f s
  (outcome, (s, trace ++ [.call f]))

namespace Fixture

/-- The fixture that adds to a trace when its record is built. -/
def traced (fixture : Fixture σ) : Fixture (σ × List Event) where
  name := fixture.name
  description := fixture.description
  expectation := fixture.expectation
  record := fun (s, trace) =>
    let (r, s) := fixture.record s
    (r, (s, trace ++ [.build]))
  checks := fixture.checks

end Fixture

/-- A log and a trace of one call agree, and neither changes what the call does. -/
theorem Value.call_traced (invoke : Invoke σ) (v : Value) (s : σ) :
    ∃ fs : List Callable,
      (∀ log, v.call (logged invoke) (s, log) =
        ((v.call invoke s).1, ((v.call invoke s).2, log ++ fs))) ∧
      ∀ trace, v.call (traced invoke) (s, trace) =
        ((v.call invoke s).1, ((v.call invoke s).2, trace ++ fs.map .call)) := by
  cases v with
  | function f => exact ⟨[f], fun _ => rfl, fun _ => rfl⟩
  | _ => exact ⟨[], fun log => by simp [call], fun trace => by simp [call]⟩

namespace Record

theorem walkNames_traced (invoke : Invoke σ) (r : Record Value) (names : List String)
    (acc : String) (s : σ) :
    ∃ fs : List Callable,
      (∀ log, r.walkNames (logged invoke) names acc (s, log) =
        ((r.walkNames invoke names acc s).1, ((r.walkNames invoke names acc s).2, log ++ fs))) ∧
      ∀ trace, r.walkNames (traced invoke) names acc (s, trace) =
        ((r.walkNames invoke names acc s).1,
          ((r.walkNames invoke names acc s).2, trace ++ fs.map .call)) := by
  induction names generalizing acc s with
  | nil => exact ⟨[], fun log => by simp [walkNames], fun trace => by simp [walkNames]⟩
  | cons name names ih =>
    rcases hget : r.get name with f | v
    · exact ⟨[], fun log => by simp [walkNames, hget], fun trace => by simp [walkNames, hget]⟩
    · obtain ⟨fs, hlog, htrace⟩ := v.call_traced invoke s
      rcases hcall : v.call invoke s with ⟨f | w, t⟩
      · refine ⟨fs, fun log => ?_, fun trace => ?_⟩
        · simp only [walkNames, hget, hlog, hcall]
        · simp only [walkNames, hget, htrace, hcall]
      · obtain ⟨gs, hlog', htrace'⟩ := ih (w.appendTo acc) t
        refine ⟨fs ++ gs, fun log => ?_, fun trace => ?_⟩
        · simp only [walkNames, hget, hlog, hcall, hlog', List.append_assoc]
        · simp only [walkNames, hget, htrace, hcall, htrace', List.map_append, List.append_assoc]

/-- **A traced walk is the walk, and its events are the calls that the walk makes.** -/
theorem walk_traced (invoke : Invoke σ) (r : Record Value) (s : σ) (trace : List Event) :
    r.walk (traced invoke) (s, trace) =
      ((r.walk invoke s).1, ((r.walk invoke s).2, trace ++ (r.walkCalls invoke s).map .call)) := by
  obtain ⟨fs, hlog, htrace⟩ := walkNames_traced invoke r r.names "" s
  have hcalls : r.walkCalls invoke s = fs := by
    rw [walkCalls, walk, hlog]
    rfl
  rw [hcalls]
  exact htrace trace

end Record

namespace Check

variable {invoke : Invoke σ} {r : Record Value}

theorem run_traced (c : Check) (y : Tally) (s : σ) (trace : List Event) :
    c.run (traced invoke) r y (s, trace) =
      ((c.run invoke r y s).1, (c.run invoke r y s).2.1,
        ((c.run invoke r y s).2.2, trace ++ (c.calls invoke r s).map .call)) := by
  cases c with
  | assert a => simp [run, calls]
  | walk judge =>
    simp only [run, calls, r.walk_traced invoke s]
    cases judge (r.walk invoke s).1 <;> rfl
  | raise f => simp [run, calls]

/-- A run of checks that pass goes on with what comes after them. -/
theorem PassesAll.runAll_append {cs : List Check} {s t : σ} {n : ℕ} {fs : List Callable}
    (h : PassesAll invoke r cs s n fs t) (rest : List Check) (y : Tally) (trace : List Event) :
    runAll invoke r (cs ++ rest) y s = runAll invoke r rest ⟨y.checked + n⟩ t ∧
      runAll (traced invoke) r (cs ++ rest) y (s, trace) =
        runAll (traced invoke) r rest ⟨y.checked + n⟩ (t, trace ++ fs.map .call) := by
  induction h generalizing y trace with
  | nil s => simp
  | @cons c cs s t u n k fs hc _ ih =>
    obtain ⟨hrun, htrace⟩ := ih ⟨y.checked + n⟩ (trace ++ (c.calls invoke r s).map .call)
    constructor
    · simp only [List.cons_append, runAll, hc.run_eq, hrun, Nat.add_assoc]
    · simp only [List.cons_append, runAll, run_traced, hc.run_eq, htrace, Nat.add_assoc,
        List.map_append, List.append_assoc]

/-- **A run of checks ends as the checks do.** -/
theorem Ends.runAll_eq {cs : List Check} {s t : σ} {n : ℕ} {fs : List Callable}
    {error? : Option FixtureError} (h : Ends invoke r cs s n fs error? t) (y : Tally)
    (trace : List Event) :
    runAll invoke r cs y s = (error?.elim (.ok ()) .error, ⟨y.checked + n⟩, t) ∧
      runAll (traced invoke) r cs y (s, trace) =
        (error?.elim (.ok ()) .error, ⟨y.checked + n⟩, (t, trace ++ fs.map .call)) := by
  cases h with
  | all hall =>
    have h := hall.runAll_append [] y trace
    rwa [List.append_nil] at h
  | first hpassed herrs =>
    obtain ⟨hrun, htrace⟩ := hpassed.runAll_append (_ :: _) y trace
    constructor
    · rw [hrun]
      simp only [runAll, herrs.run_eq, Nat.add_assoc, Option.elim_some]
    · rw [htrace]
      simp only [runAll, run_traced, herrs.run_eq, Nat.add_assoc, Option.elim_some,
        List.map_append, List.append_assoc]

/-- Checks end in one way only. -/
theorem Ends.unique {cs : List Check} {s t t' : σ} {n n' : ℕ} {fs fs' : List Callable}
    {error? error?' : Option FixtureError} (h : Ends invoke r cs s n fs error? t)
    (h' : Ends invoke r cs s n' fs' error?' t') :
    n' = n ∧ fs' = fs ∧ error?' = error? ∧ t' = t := by
  have hrun := (h'.runAll_eq .zero []).2
  rw [(h.runAll_eq .zero []).2] at hrun
  simp only [Prod.mk.injEq, Tally.mk.injEq, Nat.add_left_cancel_iff, List.nil_append] at hrun
  obtain ⟨herror, rfl, rfl, hfs⟩ := hrun
  refine ⟨rfl, (List.map_injective_iff.2 Event.call_injective hfs).symm, ?_, rfl⟩
  cases error? <;> cases error?' <;> simp_all

end Check

/-! ## The result -/

namespace Fixture

/-- What a result says of a fixture whose checks ended after so many assertions, all of them or
with an error. -/
structure Reports (fixture : Fixture σ) (n : ℕ) (error? : Option FixtureError)
    (result : FixtureResult) : Prop where
  name : result.name = fixture.name
  assertions : result.assertions = n
  diagnostic : ∀ text, result.diagnostic? = some text ↔ ∃ e, error? = some e ∧ text = e.message
  discrepancy : ∀ reason,
    result.discrepancy? = some reason ↔ fixture.expectation = .knownDiscrepancy reason
  passed : result.outcome = .passed ↔ fixture.expectation = .pass ∧ error? = none
  failed : result.outcome = .failed ↔ fixture.expectation = .pass ∧ error? ≠ none
  unexpectedPass : result.outcome = .unexpectedPass ↔
    (∃ reason, fixture.expectation = .knownDiscrepancy reason) ∧ error? = none
  expectedFailure : result.outcome = .expectedFailure ↔
    (∃ reason, fixture.expectation = .knownDiscrepancy reason) ∧ error? ≠ none

theorem reports_resultOf (fixture : Fixture σ) (error? : Option FixtureError) (n : ℕ) :
    fixture.Reports n error? (fixture.resultOf (error?.elim (.ok ()) .error) ⟨n⟩) := by
  constructor
  case name => rfl
  case assertions => rfl
  case diagnostic => cases error? <;> simp [resultOf, eq_comm]
  case discrepancy => cases h : fixture.expectation <;> simp [resultOf, Expectation.reason?, h]
  all_goals
    cases h : fixture.expectation <;> cases error? <;>
      simp [resultOf, Expectation.outcome, Except.isOk, Except.toBool, h]

/-- **What a run of a fixture reports.** The record is built once, and the checks are made on it in
the state that building left. There is one way in which they end: after so many assertions, with
all of them passed or with the error of the first that errs.

* The run leaves the state of that end.
* A traced run is the run. What happens to the record is that it is built, and then the calls of the
  checks made; no later check calls anything.
* The result says the number of assertions, the text of the error, and whether error and expectation
  agree. -/
theorem result_checks (invoke : Invoke σ) (fixture : Fixture σ) (s : σ) :
    ∃ n fs error? t,
      (∀ n' fs' error?' t', Check.Ends invoke (fixture.record s).1 fixture.checks
          (fixture.record s).2 n' fs' error?' t' ↔
        n' = n ∧ fs' = fs ∧ error?' = error? ∧ t' = t) ∧
      (fixture.result invoke s).2 = t ∧
      fixture.traced.result (RecordWalk.traced invoke) (s, []) =
        ((fixture.result invoke s).1, (t, .build :: fs.map .call)) ∧
      fixture.Reports n error? (fixture.result invoke s).1 := by
  obtain ⟨n, fs, error?, t, h⟩ :=
    Check.exists_ends invoke (fixture.record s).1 fixture.checks (fixture.record s).2
  obtain ⟨hrun, htrace⟩ := h.runAll_eq .zero [.build]
  have hzero : Tally.zero.checked + n = n := Nat.zero_add n
  have hresult : fixture.result invoke s =
      (fixture.resultOf (error?.elim (.ok ()) .error) ⟨n⟩, t) := by
    unfold result run
    dsimp only
    rw [hrun, hzero]
  refine ⟨n, fs, error?, t, fun n' fs' error?' t' => ⟨h.unique, ?_⟩, ?_, ?_, ?_⟩
  · rintro ⟨rfl, rfl, rfl, rfl⟩
    exact h
  · rw [hresult]
  · rw [hresult]
    unfold result run traced
    dsimp only
    rw [List.nil_append, htrace, hzero]
    rfl
  · rw [hresult]
    exact fixture.reports_resultOf error? n

/-- A counter goes on from one walk to the next: the third walk fails its assertion, and nothing
is raised. -/
example :
    let fixture : Fixture Store :=
      { name := "counter", description := "", expectation := .pass
        record := buildRecord [] [("n", .function none (.counter 5))]
        checks := [.equals "5" "first", .equals "6" "second", .equals "6" "third",
          .raise ⟨.thrown, none, none⟩] }
    (fixture.result Store.invoke .empty).1 =
      ⟨"counter", .failed, 3, some "Assertion failed: third", none⟩ := by
  decide +kernel

end Fixture

end RecordWalk
