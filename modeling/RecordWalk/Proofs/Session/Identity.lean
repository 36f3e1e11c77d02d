import RecordWalk.Proofs.Script.Building
import RecordWalk.Proofs.Script.Depth
import RecordWalk.Proofs.Session.Reach

/-!
# Identity in a session

The store keeps every record and every function in the order in which they were built, so place `i`
of the store is what building step `i` made. Values are copied freely: bound to variables, put into
other records, captured by functions, returned and thrown. A value *comes up* in a run
(`ComesUp`) if it stands in an answer or is in reach of the session at some point of the run.

**Theorem (`identity_run`).** Two records that come up anywhere in a run are the same exactly when
one building step made both, and then they have the same contents. The same goes for functions.
What is built in two building steps is never equal, whatever happens between.

The invariant is that each value is *kept* (`Value.Kept`): the store has, at the identity of the
record or function, just this record or function, and all values in the record are kept as well.
Building gives it, since what is built is entered with the next free identity, and a store that
grows keeps what it has. Contents cannot change without a contradiction to what the store has. What
is built later is new to the store, and a kept value is not.
-/

namespace RecordWalk

/-! ## Kept values -/

/-- The store has a record or function at its identity, and so it is for all values in a record. -/
inductive Value.Kept (s : Store) : Value → Prop
  | plain {v : Value} : v.isObject = false → Kept s v
  | function {f : Callable} {b : Behavior} : s.functions[f.id]? = some (f, b) → Kept s (.function f)
  | record {r : Record Value} :
      s.records[r.id]? = some r → (∀ p ∈ r.entries, Kept s p.2) → Kept s (.record r)

namespace Value

variable {s t : Store}

theorem Kept.grows {v : Value} (h : v.Kept s) (hst : s.Grows t) : v.Kept t := by
  induction h with
  | plain hv => exact .plain hv
  | function hf => exact .function (hst.function _ _ hf)
  | record hr _ ih => exact .record (hst.record _ _ hr) ih

theorem Kept.getElem?_record {r : Record Value} (h : Kept s (.record r)) :
    s.records[r.id]? = some r := by
  cases h with
  | plain h => cases h
  | record hr _ => exact hr

theorem Kept.getElem?_function {f : Callable} (h : Kept s (.function f)) :
    ∃ b, s.functions[f.id]? = some (f, b) := by
  cases h with
  | plain h => cases h
  | function hf => exact ⟨_, hf⟩

theorem kept_invariant : ValueInvariant fun s v => v.Kept s where
  grows hst h := h.grows hst
  plain := .plain
  record {s pairs} h := by
    refine .record Array.getElem?_push_size fun p hp => ?_
    exact (h p (Record.mem_of_mem_entries_build hp)).grows (s.grows_newRecord pairs)
  function := .function Array.getElem?_push_size
  entry h hp := by
    cases h with
    | plain h => cases h
    | record _ hr => exact hr _ hp

theorem Kept.functions_below {v : Value} (h : v.Kept s) : v.Below s.functions.size := by
  induction h with
  | plain hv => exact .plain hv
  | function hf => exact .function (Array.getElem?_eq_some_iff.1 hf).1
  | record _ _ ih => exact .record ih

end Value

theorem Store.Sound.ordered {s : Store} (hs : s.Sound fun s v => v.Kept s) : s.Ordered := by
  intro i p hp
  obtain ⟨s₀, hi, hg, hb⟩ := hs i p hp
  exact ⟨s₀, hi, hg, hb.mono fun _ hv => hv.functions_below⟩

/-! ## Values in a run -/

/-- The values that a function with a behavior holds. -/
inductive Behavior.Captures : Behavior → Value → Prop
  | constant (v : Value) : Captures (.constant v) v
  | fresh {e : Expr} {scope : Scope} {p : String × Value} :
      p ∈ scope → Captures (.fresh e scope) p.2
  | throw {f : Failure} {v : Value} : v ∈ f.value? → Captures (.throw f) v
  | sequence {bs : List Behavior} {b : Behavior} {v : Value} :
      b ∈ bs → Captures b v → Captures (.sequence bs) v
  | call (v : Value) : Captures (.call v) v
  | walk (v : Value) : Captures (.walk v) v
  | property (v : Value) (name : String) : Captures (.property v name) v
  | toNumber (v : Value) : Captures (.toNumber v) v
  | display (v : Value) : Captures (.display v) v

theorem Behavior.Holds.of_captures {P : Value → Prop} {b : Behavior} {v : Value} (h : b.Holds P)
    (hv : b.Captures v) : P v := by
  induction hv with
  | fresh hp =>
    cases h with
    | fresh hscope => exact hscope _ hp
  | throw hf =>
    cases h with
    | throw hvalue => exact hvalue _ hf
  | sequence hb _ ih =>
    cases h with
    | sequence hbs => exact ih (hbs _ hb)
  | _ =>
    cases h
    assumption

namespace Session

/-- The values that come up when a session takes some steps: in its answers, in its variables at
some point of the run, captured by its functions, and in records that come up. -/
inductive ComesUp (ps : List Step) : Value → Prop
  | answer {a : Answer} {v : Value} : a ∈ (empty.run ps).1 → v ∈ a.values → ComesUp ps v
  | bound {before : List Step} {p : String × Value} :
      before <+: ps → p ∈ (empty.run before).2.scope → ComesUp ps p.2
  | captured {i : Nat} {p : Callable × Behavior} {v : Value} :
      (empty.run ps).2.store.functions[i]? = some p → p.2.Captures v → ComesUp ps v
  | entry {r : Record Value} {p : String × Value} :
      ComesUp ps (.record r) → p ∈ r.entries → ComesUp ps p.2

/-- **All values in a run are kept** by the store at its end. -/
theorem kept_of_comesUp {ps : List Step} {v : Value} (h : ComesUp ps v) :
    v.Kept (empty.run ps).2.store := by
  obtain ⟨hrun, hanswers⟩ := Value.kept_invariant.keeps_run ps (sound_empty _)
  induction h with
  | answer ha hv => exact hanswers _ ha _ hv
  | @bound before p hbefore hp =>
    -- The rest of the run lets the store grow from where the variable was seen.
    obtain ⟨after, rfl⟩ := hbefore
    have hs := Value.kept_invariant.sound_run before (sound_empty _)
    have hafter := (Value.kept_invariant.keeps_run after hs).1
    rw [run_append]
    exact (hs.scope p hp).grows hafter.grows
  | captured hf hv => exact (Value.kept_invariant.holds hrun.sound.store hf).of_captures hv
  | entry _ hp ih => exact Value.kept_invariant.entry ih hp

theorem placed_run (ps : List Step) : (empty.run ps).2.store.Placed :=
  (Value.kept_invariant.keeps_run ps (sound_empty _)).1.grows.placed Store.placed_empty

/-- **No call in a session runs out of depth**: it runs the behavior of its function, in which calls
are calls of the same kind. -/
theorem invoke_run (ps : List Step) {f g : Callable} {b : Behavior}
    (h : (empty.run ps).2.store.functions[f.id]? = some (g, b)) :
    let store := (empty.run ps).2.store
    Store.invoke f store = b.run Store.invoke (store.callCount f) (store.enterCall f) :=
  (Value.kept_invariant.sound_run ps (sound_empty _)).store.ordered.invoke_eq_run h

end Session

/-! ## One identity, one building step -/

namespace Value

/-- Records and functions are compared without a conversion. -/
theorem looseEq_eq_strictEq {v w : Value} (hv : v.isObject = true) (hw : w.isObject = true) :
    v.looseEq w = v.strictEq w := by
  cases v <;> cases hv <;> cases w <;> cases hw <;> simp [looseEq, isObject]

/-- Not equal, neither strictly nor loosely. -/
def Apart (v w : Value) : Prop := v.strictEq w = false ∧ v.looseEq w = false

/-- A record or function that the store has is not equal to a new one. -/
theorem Kept.apart_of_isNew {s : Store} {v w : Value} (hv : v.Kept s) (hobject : v.isObject = true)
    (hw : w.IsNew s) : v.Apart w := by
  have hstrict : v.strictEq w = false := by
    cases hv with
    | plain hplain => exact absurd (hplain.symm.trans hobject) Bool.false_ne_true
    | @function f b hf =>
      obtain ⟨hlt, -⟩ := Array.getElem?_eq_some_iff.1 hf
      cases hw with
      | record => rfl
      | function hle => exact beq_eq_false_iff_ne.2 (Nat.ne_of_lt (Nat.lt_of_lt_of_le hlt hle))
    | @record r hr _ =>
      obtain ⟨hlt, -⟩ := Array.getElem?_eq_some_iff.1 hr
      cases hw with
      | record hle => exact beq_eq_false_iff_ne.2 (Nat.ne_of_lt (Nat.lt_of_lt_of_le hlt hle))
      | function => rfl
  exact ⟨hstrict, (looseEq_eq_strictEq hobject hw.isObject).trans hstrict⟩

end Value

namespace Store

variable {s t : Store}

/-- Kept records are the same exactly when they stand at one place. -/
theorem same_iff_of_kept (hs : s.Placed) {r r' : Record Value} (h : Value.Kept s (.record r))
    (h' : Value.Kept s (.record r')) :
    r.same r' = true ↔ ∃ i : Nat, s.records[i]? = some r ∧ s.records[i]? = some r' := by
  unfold Record.same
  rw [beq_iff_eq]
  constructor
  · intro hid
    exact ⟨r.id, h.getElem?_record, hid ▸ h'.getElem?_record⟩
  · rintro ⟨i, hr, hr'⟩
    rw [hs.record i r hr, hs.record i r' hr']

theorem id_eq_iff_of_kept (hs : s.Placed) {f g : Callable} (h : Value.Kept s (.function f))
    (h' : Value.Kept s (.function g)) :
    f.id = g.id ↔ ∃ (i : Nat) (b : Behavior),
      s.functions[i]? = some (f, b) ∧ s.functions[i]? = some (g, b) := by
  constructor
  · intro hid
    obtain ⟨b, hb⟩ := h.getElem?_function
    obtain ⟨b', hb'⟩ := h'.getElem?_function
    rw [← hid, hb, Option.some.injEq, Prod.mk.injEq] at hb'
    obtain ⟨rfl, rfl⟩ := hb'
    exact ⟨f.id, b, hb, hb⟩
  · rintro ⟨i, b, hf, hg⟩
    rw [hs.function i (f, b) hf, hs.function i (g, b) hg]

end Store

/-! ## Building steps of a session -/

/-- The building steps of a request, without those of the functions that it calls. -/
def Request.steps : Request → Nat × Nat
  | .value e | .property e _ | .call e | .walk e | .size e | .entries e | .start e _ | .append _ e
  | .inspect e => e.steps
  | .same e e' | .compare e e' => e.steps + e'.steps
  | .drop _ | .next _ | .rest _ => (0, 0)

def Request.calls : Request → Bool
  | .call _ | .walk _ => true
  | _ => false

namespace Session

theorem adds_build (s : Session) (e : Expr) : s.store.Adds (s.build e).2.store e.steps :=
  e.adds_build s.scope s.store

theorem adds_answer (s : Session) {q : Request} (hq : q.calls = false) :
    s.store.Adds (s.answer q).2.store q.steps := by
  cases q with
  | call | walk => cases hq
  | drop | next | rest => exact .refl _
  | same e e' | compare e e' => exact (s.adds_build e).trans ((s.build e).2.adds_build e')
  | value e | property e _ | size e | entries e | start e _ | append _ e | inspect e =>
    exact s.adds_build e

/-- A step that calls no function builds what is described in its request, and nothing else. -/
theorem adds_step (s : Session) {p : Step} (hp : p.request.calls = false) :
    s.store.Adds (s.step p).2.store p.request.steps := by
  have hanswer := s.adds_answer hp
  rcases s.step_cases p with h | ⟨name, v, -, h⟩ <;> rwa [h]

end Session

/-! ## What is built at two times -/

open Catalogue in
/-- The fixtures of the catalogue build their records from expressions without variables. -/
theorem record_of_mem_catalogue {fixture : Fixture Store} (h : fixture ∈ catalogue) :
    ∃ properties, fixture.record = buildRecord [] properties := by
  simp only [catalogue, List.mem_cons, List.not_mem_nil, or_false] at h
  rcases h with rfl | rfl | rfl | rfl | rfl | rfl
  all_goals
    dsimp only [looseSeven, accumulated, emptyRecord, singleProperty, nonCallable, throwingCallable]
    exact ⟨_, rfl⟩

namespace Session

variable {s : Session} (hs : s.Sound fun s v => v.Kept s)

include hs

/-- What a building step makes after some steps is not equal to what was there before them. -/
theorem apart_build_run {v : Value} (hv : v.Kept s.store) (hobject : v.isObject = true)
    (between : List Step) {e : Expr} (he : e.Builds) (scope : Scope) :
    v.Apart (e.build scope (s.run between).2.store).1 := by
  have hrun := (Value.kept_invariant.keeps_run between hs).1
  exact (hv.grows hrun.grows).apart_of_isNew hobject (he.isNew_build scope _)

theorem apart_build (between : List Step) {e e' : Expr} (he : e.Builds) (he' : e'.Builds) :
    let first := s.build e
    first.1.Apart ((first.2.run between).2.build e').1 := by
  intro first
  obtain ⟨hfirst, hkept⟩ := Value.kept_invariant.sound_build hs e
  exact apart_build_run hfirst.sound hkept (he.isNew_build s.scope s.store).isObject between he' _

theorem same_record_of_mem_catalogue {fixture : Fixture Store} (hfixture : fixture ∈ catalogue)
    (between : List Step) :
    let first := fixture.record s.store
    let later : Session := (run { s with store := first.2 } between).2
    first.1.same (fixture.record later.store).1 = false := by
  intro first later
  obtain ⟨properties, hrecord⟩ := record_of_mem_catalogue hfixture
  -- Its record is the value of an expression that has no variables.
  obtain ⟨hkeeps, hkept⟩ :=
    Value.kept_invariant.build (.record properties) hs.store (by simp : ∀ p ∈ [], _)
  have hfirst := Value.kept_invariant.keeps_setStore hs hkeeps
  simp only [first, later, hrecord]
  exact (apart_build_run hfirst.sound hkept rfl between (.record properties) []).1

omit hs in
/-- A function that was built is still there when the store has grown, and a call runs its body. -/
theorem call_build_function (name : Option String) (body : Body) {t : Store}
    (ht : t.Ordered) (hgrows : (s.build (.function name body)).2.store.Grows t) :
    ∃ f k, (s.build (.function name body)).1.call Store.invoke t =
      (body.build s.scope s.store).1.run Store.invoke k (t.enterCall f) := by
  have hf : (s.build (.function name body)).2.store.functions[
      (body.build s.scope s.store).2.functions.size]? =
    some (⟨_, name⟩, (body.build s.scope s.store).1) := Array.getElem?_push_size
  exact ⟨_, _, ht.invoke_eq_run (hgrows.function _ _ hf)⟩

/-- A function that captured a value returns it and builds nothing. -/
theorem call_constant (name : Option String) (e : Expr) (between : List Step) :
    let made := s.build (.function name (.constant e))
    let store : Store := (made.2.run between).2.store
    let result := made.1.call Store.invoke store
    result.1 = .ok (s.build e).1 ∧ store.Adds result.2 (0, 0) := by
  intro made store result
  have hmade := (Value.kept_invariant.sound_build hs (.function name (.constant e))).1
  have hrun := (Value.kept_invariant.keeps_run between hmade.sound).1
  obtain ⟨f, k, hcall⟩ :=
    call_build_function name (.constant e) hrun.sound.store.ordered hrun.grows
  have hresult : result = (.ok (s.build e).1, store.enterCall f) := hcall
  rw [hresult]
  exact ⟨rfl, rfl, rfl⟩

/-- A function that builds a value anew does not return the same one twice. -/
theorem apart_call_fresh (name : Option String) {e : Expr} (he : e.Builds)
    (between between' : List Step) :
    let made := s.build (.function name (.fresh e))
    let before : Session := (made.2.run between).2
    let once := made.1.call Store.invoke before.store
    let later : Session := (run { before with store := once.2 } between').2
    before.store.Adds once.2 e.steps ∧
      ∃ v w, once.1 = .ok v ∧ (made.1.call Store.invoke later.store).1 = .ok w ∧ v.Apart w := by
  intro made before once later
  have hmade := (Value.kept_invariant.sound_build hs (.function name (.fresh e))).1
  have hbefore := (Value.kept_invariant.keeps_run between hmade.sound).1
  obtain ⟨honce, hv⟩ := Value.kept_invariant.keeps_invoke.call made.1 hbefore.sound.store
  have hafter := Value.kept_invariant.keeps_setStore hbefore.sound honce
  have hlater := (Value.kept_invariant.keeps_run between' hafter.sound).1
  obtain ⟨f, k, hcall⟩ := call_build_function name (.fresh e) hbefore.sound.store.ordered
    hbefore.grows
  obtain ⟨f', k', hcall'⟩ := call_build_function name (.fresh e) hlater.sound.store.ordered
    ((hbefore.trans hafter).trans hlater).grows
  have hfirst : once.1 = .ok (e.build s.scope (before.store.enterCall f)).1 :=
    congrArg Prod.fst hcall
  have hstore : once.2 = (e.build s.scope (before.store.enterCall f)).2 := congrArg Prod.snd hcall
  have hadds : before.store.Adds once.2 e.steps := by
    obtain ⟨hrecords, hfunctions⟩ := e.adds_build s.scope (before.store.enterCall f)
    rw [hstore]
    exact ⟨hrecords, hfunctions⟩
  refine ⟨hadds, _, _, hfirst, congrArg Prod.fst hcall', ?_⟩
  change OutcomeHolds (Value.Kept once.2) once.1 at hv
  rw [hfirst] at hv
  have hgrows := hlater.grows.trans (later.store.grows_enterCall f')
  exact (Value.Kept.grows hv hgrows).apart_of_isNew (he.isNew_build _ _).isObject
    (he.isNew_build s.scope _)

end Session

/-! ## Whole runs -/

namespace Session

/-- **One identity, one building step.** Let a session take any steps.

* Two records that come up in the run, at whatever points, are the same exactly when some building
  step made both, and then they agree in names, size, entries and every look-up.
* Two functions that come up in the run are equal exactly when some building step made both.
* Strict and loose equality of records is being the same; functions are loosely equal when they are
  strictly equal.
* A record or function that is built after the run is not equal to one that is built later, with
  any steps between, also if both are empty records, nor are the records that a fixture of the
  catalogue builds at two times.
* A step that calls no function adds one place to the store for each record and each function that
  its request describes, and none for values that are looked up or copied.
* A function that captured a value returns this value after any steps, and adds no place. A function
  that builds a value anew adds its places, and does not return what it returned before. -/
theorem identity_run (ps : List Step) :
    let s : Session := (empty.run ps).2
    (∀ r r', ComesUp ps (.record r) → ComesUp ps (.record r') →
      (r.same r' = true ↔
        ∃ i : Nat, s.store.records[i]? = some r ∧ s.store.records[i]? = some r') ∧
      (r.same r' = true → r.cursor = r'.cursor ∧ r.size = r'.size ∧ r.entries = r'.entries ∧
        ∀ name, r.get name = r'.get name)) ∧
    (∀ f g, ComesUp ps (.function f) → ComesUp ps (.function g) →
      ((Value.function f).strictEq (.function g) = true ↔
        ∃ (i : Nat) (b : Behavior), s.store.functions[i]? = some (f, b) ∧
          s.store.functions[i]? = some (g, b))) ∧
    (∀ r r' : Record Value, (Value.record r).strictEq (.record r') = r.same r' ∧
      (Value.record r).looseEq (.record r') = r.same r') ∧
    (∀ f g : Callable,
      (Value.function f).looseEq (.function g) = (Value.function f).strictEq (.function g)) ∧
    (∀ between e e', e.Builds → e'.Builds →
      let first := s.build e
      let second := (first.2.run between).2.build e'
      first.1.strictEq second.1 = false ∧ first.1.looseEq second.1 = false) ∧
    (∀ fixture ∈ catalogue, ∀ between,
      let first := fixture.record s.store
      let later : Session := (run { s with store := first.2 } between).2
      first.1.same (fixture.record later.store).1 = false) ∧
    (∀ p : Step, p.request.calls = false → s.store.Adds (s.step p).2.store p.request.steps) ∧
    (∀ name e between,
      let made := s.build (.function name (.constant e))
      let store : Store := (made.2.run between).2.store
      let result := made.1.call Store.invoke store
      result.1 = .ok (s.build e).1 ∧ store.Adds result.2 (0, 0)) ∧
    ∀ name e between between', e.Builds →
      let made := s.build (.function name (.fresh e))
      let before : Session := (made.2.run between).2
      let once := made.1.call Store.invoke before.store
      let later : Session := (run { before with store := once.2 } between').2
      before.store.Adds once.2 e.steps ∧
        ∃ v w, once.1 = .ok v ∧ (made.1.call Store.invoke later.store).1 = .ok w ∧
          v.strictEq w = false ∧ v.looseEq w = false := by
  intro s
  have hs : s.Sound fun s v => v.Kept s := Value.kept_invariant.sound_run ps (sound_empty _)
  have hplaced : s.store.Placed := placed_run ps
  refine ⟨fun r r' hr hr' => ?_, fun f g hf hg => ?_,
    fun r r' => ⟨rfl, Value.looseEq_eq_strictEq rfl rfl⟩,
    fun f g => Value.looseEq_eq_strictEq rfl rfl,
    fun between e e' he he' => apart_build hs between he he',
    fun fixture hfixture => same_record_of_mem_catalogue hs hfixture, fun p => s.adds_step,
    call_constant hs,
    fun name e between between' he => apart_call_fresh hs name he between between'⟩
  · have hiff := Store.same_iff_of_kept hplaced (kept_of_comesUp hr) (kept_of_comesUp hr')
    refine ⟨hiff, fun hsame => ?_⟩
    obtain ⟨i, hi, hi'⟩ := hiff.1 hsame
    obtain rfl : r = r' := Option.some.inj (hi.symm.trans hi')
    exact ⟨rfl, rfl, rfl, fun _ => rfl⟩
  · rw [← Store.id_eq_iff_of_kept hplaced (kept_of_comesUp hf) (kept_of_comesUp hg)]
    exact beq_iff_eq

/-- A function that captured a record returns the same one at each call; a function that builds
anew does not, though both records are empty. -/
example :
    (empty.run [⟨.value (.function none (.constant (.record []))), some "f"⟩,
      ⟨.value (.function none (.fresh (.record []))), some "g"⟩,
      ⟨.call (.reference "f"), some "a"⟩, ⟨.call (.reference "f"), some "b"⟩,
      ⟨.call (.reference "g"), some "c"⟩, ⟨.call (.reference "g"), some "d"⟩,
      ⟨.same (.reference "a") (.reference "b"), none⟩,
      ⟨.same (.reference "c") (.reference "d"), none⟩]).1.drop 6 = [.same true, .same false] := by
  cbv

end Session

end RecordWalk
