import RecordWalk.Script.Store

/-!
# What holds of every value in reach

Values are made in few places: a record by `Store.newRecord`, a function by `Store.newFunction`,
and all else without an identity. So a property of values that these places give, and that a record
hands on to the values in it, holds of every value that building and calling ever make. Such a
property may speak about the store, as long as it stays true when the store grows.

**Theorem (`ValueInvariant.keeps_invoke`).** If the values in the behaviors of a store have such a
property, a call, however it nests and whether it fails or not, leaves a store that has grown and
whose behaviors have the property again, and so has the value that it returns or fails with. What a
behavior holds is older than its function, so the property is stated for the store to which the
function was added.

The proof follows the recursion of building and running. Each lemma says three things of one
function: the store has grown, the store is sound, and what was made has the property there.
-/

namespace RecordWalk

/-! ## Growth of the store -/

/-- Every record and every function stands at its identity. -/
structure Store.Placed (s : Store) : Prop where
  record : ∀ (i : Nat) (r : Record Value), s.records[i]? = some r → r.id = i
  function : ∀ (i : Nat) (p : Callable × Behavior), s.functions[i]? = some p → p.1.id = i

/-- All that `s` has given out is still there in `t`, and what was added stands at its identity. -/
structure Store.Grows (s t : Store) : Prop where
  record : ∀ (i : Nat) (r : Record Value), s.records[i]? = some r → t.records[i]? = some r
  function : ∀ (i : Nat) (p : Callable × Behavior),
    s.functions[i]? = some p → t.functions[i]? = some p
  placed : s.Placed → t.Placed

namespace Store

variable {s t u : Store}

theorem placed_empty : empty.Placed :=
  ⟨fun _ _ h => by simp [empty] at h, fun _ _ h => by simp [empty] at h⟩

theorem Grows.refl (s : Store) : s.Grows s := ⟨fun _ _ h => h, fun _ _ h => h, fun h => h⟩

theorem Grows.trans (h : s.Grows t) (h' : t.Grows u) : s.Grows u :=
  ⟨fun i r hr => h'.record i r (h.record i r hr),
    fun i p hp => h'.function i p (h.function i p hp), fun hs => h'.placed (h.placed hs)⟩

/-- What stands in an array still stands there when something is added. -/
theorem getElem?_push_of_eq_some {α : Type} {xs : Array α} {i : Nat} {x : α}
    (h : xs[i]? = some x) (y : α) : (xs.push y)[i]? = some x := by
  obtain ⟨hi, -⟩ := Array.getElem?_eq_some_iff.1 h
  rw [Array.getElem?_push, if_neg (Nat.ne_of_lt hi), h]

/-- What stands in an array to which something was added is that, at the end, or stood there. -/
theorem eq_some_of_getElem?_push {α : Type} {xs : Array α} {i : Nat} {x y : α}
    (h : (xs.push y)[i]? = some x) : i = xs.size ∧ x = y ∨ xs[i]? = some x := by
  rw [Array.getElem?_push] at h
  split at h
  next hi => exact .inl ⟨hi, (Option.some.inj h).symm⟩
  next => exact .inr h

theorem grows_newRecord (s : Store) (pairs : List (String × Value)) :
    s.Grows (s.newRecord pairs).2 := by
  refine ⟨fun i r hr => getElem?_push_of_eq_some hr _, fun _ _ h => h, fun hs => ⟨?_, hs.function⟩⟩
  intro i r hr
  rcases eq_some_of_getElem?_push hr with ⟨rfl, rfl⟩ | hr
  · rfl
  · exact hs.record i r hr

theorem grows_newFunction (s : Store) (name : Option String) (b : Behavior) :
    s.Grows (s.newFunction name b).2 := by
  refine ⟨fun _ _ h => h, fun i p hp => getElem?_push_of_eq_some hp _, fun hs => ⟨hs.record, ?_⟩⟩
  intro i p hp
  rcases eq_some_of_getElem?_push hp with ⟨rfl, rfl⟩ | hp
  · rfl
  · exact hs.function i p hp

theorem grows_enterCall (s : Store) (f : Callable) : s.Grows (s.enterCall f) :=
  ⟨fun _ _ h => h, fun _ _ h => h, fun hs => ⟨hs.record, hs.function⟩⟩

end Store

/-! ## Properties of values -/

/-- A property of values in a store that is given to all that is built from values with it. -/
structure ValueInvariant (P : Store → Value → Prop) : Prop where
  grows : ∀ {s t : Store} {v : Value}, s.Grows t → P s v → P t v
  plain : ∀ {s : Store} {v : Value}, v.isObject = false → P s v
  record : ∀ {s : Store} {pairs : List (String × Value)}, (∀ p ∈ pairs, P s p.2) →
    P (s.newRecord pairs).2 (.record (s.newRecord pairs).1)
  function : ∀ {s : Store} {name : Option String} {b : Behavior},
    P (s.newFunction name b).2 (.function (s.newFunction name b).1)
  entry : ∀ {s : Store} {r : Record Value} {p : String × Value},
    P s (.record r) → p ∈ r.entries → P s p.2

/-- The values in a behavior have a property. -/
inductive Behavior.Holds (P : Value → Prop) : Behavior → Prop
  | constant {v : Value} : P v → Holds P (.constant v)
  | fresh {e : Expr} {scope : Scope} : (∀ p ∈ scope, P p.2) → Holds P (.fresh e scope)
  | throw {f : Failure} : (∀ v ∈ f.value?, P v) → Holds P (.throw f)
  | counter {start : Int64} : Holds P (.counter start)
  | sequence {bs : List Behavior} : (∀ b ∈ bs, Holds P b) → Holds P (.sequence bs)
  | call {v : Value} : P v → Holds P (.call v)
  | walk {v : Value} : P v → Holds P (.walk v)
  | property {v : Value} {name : String} : P v → Holds P (.property v name)
  | toNumber {v : Value} : P v → Holds P (.toNumber v)
  | display {v : Value} : P v → Holds P (.display v)

theorem Behavior.Holds.mono {P Q : Value → Prop} (hPQ : ∀ v, P v → Q v) {b : Behavior}
    (h : b.Holds P) : b.Holds Q := by
  induction h with
  | constant hv => exact .constant (hPQ _ hv)
  | fresh hs => exact .fresh fun p hp => hPQ _ (hs p hp)
  | throw hf => exact .throw fun v hv => hPQ _ (hf v hv)
  | counter => exact .counter
  | sequence _ ih => exact .sequence ih
  | call hv => exact .call (hPQ _ hv)
  | walk hv => exact .walk (hPQ _ hv)
  | property hv => exact .property (hPQ _ hv)
  | toNumber hv => exact .toNumber (hPQ _ hv)
  | display hv => exact .display (hPQ _ hv)

/-- The value that an outcome gives, or fails with, has a property. -/
def OutcomeHolds (P : Value → Prop) : Except Failure Value → Prop
  | .ok v => P v
  | .error f => ∀ v ∈ f.value?, P v

/-- The values in each behavior of a store had a property when its function was entered. -/
def Store.Sound (P : Store → Value → Prop) (s : Store) : Prop :=
  ∀ (i : Nat) (p : Callable × Behavior), s.functions[i]? = some p →
    ∃ s₀ : Store, s₀.functions.size = i ∧ s₀.Grows s ∧ p.2.Holds (P s₀)

/-- A change of the store in which it grows and stays sound. -/
structure Keeps (P : Store → Value → Prop) (s t : Store) : Prop where
  grows : s.Grows t
  sound : t.Sound P

variable {P : Store → Value → Prop} {s t u : Store}

theorem Keeps.refl (hs : s.Sound P) : Keeps P s s := ⟨.refl s, hs⟩

theorem Keeps.trans (h : Keeps P s t) (h' : Keeps P t u) : Keeps P s u :=
  ⟨h.grows.trans h'.grows, h'.sound⟩

/-- The values in the behaviors of a sound store still have the property. -/
theorem ValueInvariant.holds (hP : ValueInvariant P) (hs : s.Sound P) {i : Nat}
    {p : Callable × Behavior} (hp : s.functions[i]? = some p) : p.2.Holds (P s) := by
  obtain ⟨s₀, -, hg, hb⟩ := hs i p hp
  exact hb.mono fun _ => hP.grows hg

/-- A change that enters no function keeps a store sound. -/
theorem Keeps.of_functions_eq (hs : s.Sound P) (hst : s.Grows t)
    (hf : t.functions = s.functions) : Keeps P s t := by
  refine ⟨hst, fun i p hp => ?_⟩
  rw [hf] at hp
  obtain ⟨s₀, hi, hg, hb⟩ := hs i p hp
  exact ⟨s₀, hi, hg.trans hst, hb⟩

theorem Keeps.newRecord (hs : s.Sound P) (pairs : List (String × Value)) :
    Keeps P s (s.newRecord pairs).2 :=
  .of_functions_eq hs (s.grows_newRecord pairs) rfl

theorem Keeps.enterCall (hs : s.Sound P) (f : Callable) : Keeps P s (s.enterCall f) :=
  .of_functions_eq hs (s.grows_enterCall f) rfl

theorem Keeps.newFunction (hs : s.Sound P) (name : Option String) {b : Behavior}
    (hb : b.Holds (P s)) : Keeps P s (s.newFunction name b).2 := by
  have hst := s.grows_newFunction name b
  refine ⟨hst, fun i p hp => ?_⟩
  rcases Store.eq_some_of_getElem?_push hp with ⟨rfl, rfl⟩ | hp
  · exact ⟨s, rfl, hst, hb⟩
  · obtain ⟨s₀, hi, hg, hb'⟩ := hs i p hp
    exact ⟨s₀, hi, hg.trans hst, hb'⟩

/-! ## Building -/

theorem ValueInvariant.scope_get (hP : ValueInvariant P) {scope : Scope}
    (hscope : ∀ p ∈ scope, P s p.2) (name : String) : P s (scope.get name) := by
  unfold Scope.get
  cases h : scope.lookup name with
  | none => exact hP.plain rfl
  | some v =>
    obtain ⟨l, l', rfl, -⟩ := List.lookup_eq_some_iff.1 h
    exact hscope (name, v) (by simp)

theorem ValueInvariant.wrap (hP : ValueInvariant P) (name : String) (n : Nat) :
    ∀ {v : Value} {s : Store}, s.Sound P → P s v →
      Keeps P s (s.wrap name n v).2 ∧ P (s.wrap name n v).2 (s.wrap name n v).1 := by
  induction n with
  | zero =>
    intro v s hs hv
    exact ⟨.refl hs, hv⟩
  | succ n ih =>
    intro v s hs hv
    have hk := Keeps.newRecord hs [(name, v)]
    have hr : P (s.newRecord [(name, v)]).2 (.record (s.newRecord [(name, v)]).1) :=
      hP.record fun p hp => by
        rw [List.mem_singleton.1 hp]
        exact hv
    obtain ⟨hk', hv'⟩ := ih hk.sound hr
    exact ⟨hk.trans hk', hv'⟩

mutual

/-- The value of an expression has the property if the variables in reach have it. -/
theorem ValueInvariant.build (hP : ValueInvariant P) {scope : Scope} :
    ∀ (e : Expr) {s : Store}, s.Sound P → (∀ p ∈ scope, P s p.2) →
      Keeps P s (e.build scope s).2 ∧ P (e.build scope s).2 (e.build scope s).1
  | .undefined, _, hs, _ => ⟨.refl hs, hP.plain rfl⟩
  | .null, _, hs, _ => ⟨.refl hs, hP.plain rfl⟩
  | .bool _, _, hs, _ => ⟨.refl hs, hP.plain rfl⟩
  | .number _, _, hs, _ => ⟨.refl hs, hP.plain rfl⟩
  | .text _, _, hs, _ => ⟨.refl hs, hP.plain rfl⟩
  | .record properties, s, hs, hscope => by
    obtain ⟨hk, hpairs⟩ := hP.buildProperties properties hs hscope
    exact ⟨hk.trans (.newRecord hk.sound _), hP.record hpairs⟩
  | .nest depth name leaf, s, hs, hscope => by
    obtain ⟨hk, hv⟩ := hP.build leaf hs hscope
    obtain ⟨hk', hv'⟩ := hP.wrap name depth hk.sound hv
    exact ⟨hk.trans hk', hv'⟩
  | .function name body, s, hs, hscope => by
    obtain ⟨hk, hb⟩ := hP.buildBody body hs hscope
    exact ⟨hk.trans (.newFunction hk.sound name hb), hP.function⟩
  | .reference name, _, hs, hscope => ⟨.refl hs, hP.scope_get hscope name⟩

theorem ValueInvariant.buildProperties (hP : ValueInvariant P) {scope : Scope} :
    ∀ (properties : List (String × Expr)) {s : Store}, s.Sound P → (∀ p ∈ scope, P s p.2) →
      Keeps P s (buildProperties scope properties s).2 ∧
        ∀ p ∈ (buildProperties scope properties s).1, P (buildProperties scope properties s).2 p.2
  | [], _, hs, _ => ⟨.refl hs, fun _ hp => nomatch hp⟩
  | (name, e) :: rest, s, hs, hscope => by
    obtain ⟨hk, hv⟩ := hP.build e hs hscope
    obtain ⟨hk', hpairs⟩ := hP.buildProperties rest hk.sound fun p hp =>
      hP.grows hk.grows (hscope p hp)
    refine ⟨hk.trans hk', fun p hp => ?_⟩
    rcases List.mem_cons.1 hp with rfl | hp
    · exact hP.grows hk'.grows hv
    · exact hpairs p hp

theorem ValueInvariant.buildBody (hP : ValueInvariant P) {scope : Scope} :
    ∀ (body : Body) {s : Store}, s.Sound P → (∀ p ∈ scope, P s p.2) →
      Keeps P s (body.build scope s).2 ∧ (body.build scope s).1.Holds (P (body.build scope s).2)
  | .constant e, _, hs, hscope => (hP.build e hs hscope).imp_right .constant
  | .fresh _, _, hs, hscope => ⟨.refl hs, .fresh hscope⟩
  | .throw _ _ none, _, hs, _ => ⟨.refl hs, .throw fun _ hv => nomatch hv⟩
  | .throw _ _ (some e), _, hs, hscope => by
    obtain ⟨hk, hv⟩ := hP.build e hs hscope
    refine ⟨hk, .throw fun w hw => ?_⟩
    cases hw
    exact hv
  | .counter _, _, hs, _ => ⟨.refl hs, .counter⟩
  | .sequence bodies, _, hs, hscope => (hP.buildBodies bodies hs hscope).imp_right .sequence
  | .call e, _, hs, hscope => (hP.build e hs hscope).imp_right .call
  | .walk e, _, hs, hscope => (hP.build e hs hscope).imp_right .walk
  | .property e _, _, hs, hscope => (hP.build e hs hscope).imp_right .property
  | .toNumber e, _, hs, hscope => (hP.build e hs hscope).imp_right .toNumber
  | .display e, _, hs, hscope => (hP.build e hs hscope).imp_right .display

theorem ValueInvariant.buildBodies (hP : ValueInvariant P) {scope : Scope} :
    ∀ (bodies : List Body) {s : Store}, s.Sound P → (∀ p ∈ scope, P s p.2) →
      Keeps P s (buildBodies scope bodies s).2 ∧
        ∀ b ∈ (buildBodies scope bodies s).1, b.Holds (P (buildBodies scope bodies s).2)
  | [], _, hs, _ => ⟨.refl hs, fun _ hb => nomatch hb⟩
  | body :: rest, s, hs, hscope => by
    obtain ⟨hk, hb⟩ := hP.buildBody body hs hscope
    obtain ⟨hk', hbs⟩ := hP.buildBodies rest hk.sound fun p hp =>
      hP.grows hk.grows (hscope p hp)
    refine ⟨hk.trans hk', fun b' hb' => ?_⟩
    rcases List.mem_cons.1 hb' with rfl | hb'
    · exact hb.mono fun _ => hP.grows hk'.grows
    · exact hbs b' hb'

end

/-! ## Calling -/

/-- Calls keep the property, and what they return or fail with has it. -/
def Invoke.Keeps (P : Store → Value → Prop) (invoke : Invoke Store) : Prop :=
  ∀ (f : Callable) {s : Store}, s.Sound P →
    RecordWalk.Keeps P s (invoke f s).2 ∧ OutcomeHolds (P (invoke f s).2) (invoke f s).1

variable {invoke : Invoke Store}

theorem ValueInvariant.asRecord_entry (hP : ValueInvariant P) {v : Value} (hv : P s v)
    {p : String × Value} (hp : p ∈ v.asRecord.entries) : P s p.2 := by
  cases v with
  | record r => exact hP.entry hv hp
  | _ => exact nomatch hp

/-- A property of a record has what its entries have; a look-up that fails carries no value. -/
theorem Record.outcomeHolds_get {Q : Value → Prop} {r : Record Value}
    (hr : ∀ p ∈ r.entries, Q p.2) (name : String) : OutcomeHolds Q (r.get name) := by
  unfold Record.get Record.get?
  cases h : r.entries.lookup name with
  | none => exact fun _ hv => nomatch hv
  | some v =>
    obtain ⟨l, l', hl, -⟩ := List.lookup_eq_some_iff.1 h
    exact hr (name, v) (by simp [hl])

theorem Invoke.Keeps.call (hi : Invoke.Keeps P invoke) (v : Value) (hs : s.Sound P) :
    RecordWalk.Keeps P s (v.call invoke s).2 ∧
      OutcomeHolds (P (v.call invoke s).2) (v.call invoke s).1 := by
  cases v with
  | function f => exact hi f hs
  | _ => exact ⟨.refl hs, fun _ hv => nomatch hv⟩

theorem ValueInvariant.walkNames (hP : ValueInvariant P) (hi : Invoke.Keeps P invoke)
    {r : Record Value} (names : List String) :
    ∀ (acc : String) {s : Store}, s.Sound P → (∀ p ∈ r.entries, P s p.2) →
      Keeps P s (r.walkNames invoke names acc s).2 ∧
        OutcomeHolds (P (r.walkNames invoke names acc s).2)
          ((r.walkNames invoke names acc s).1.map .text) := by
  induction names with
  | nil =>
    intro acc s hs _
    exact ⟨.refl hs, hP.plain rfl⟩
  | cons name names ih =>
    intro acc s hs hr
    have hget := Record.outcomeHolds_get hr name
    unfold Record.walkNames
    cases hv : r.get name with
    | error f =>
      rw [hv] at hget
      exact ⟨.refl hs, hget⟩
    | ok v =>
      obtain ⟨hk, ho⟩ := hi.call v hs
      rcases hc : v.call invoke s with ⟨_ | result, t⟩
      · rw [hc] at hk ho
        simp only [hc]
        exact ⟨hk, ho⟩
      · rw [hc] at hk
        simp only [hc]
        obtain ⟨hk', ho'⟩ := ih (result.appendTo acc) hk.sound fun p hp =>
          hP.grows hk.grows (hr p hp)
        exact ⟨hk.trans hk', ho'⟩

/-- The behavior whose turn it is stands somewhere in the sequence. -/
theorem runSequence_eq_run {bs : List Behavior} (hbs : bs ≠ []) (k : Nat) :
    ∃ b ∈ bs, ∃ j, ∀ invoke s, runSequence invoke bs k s = b.run invoke j s := by
  induction bs generalizing k with
  | nil => exact absurd rfl hbs
  | cons b bs ih =>
    rcases bs with _ | ⟨b', bs⟩
    · exact ⟨b, List.mem_singleton_self b, k, fun _ _ => by rw [runSequence]⟩
    · rcases k with _ | k
      · exact ⟨b, List.mem_cons_self, 0, fun _ _ => by rw [runSequence]; simp⟩
      · obtain ⟨c, hc, j, h⟩ := ih (List.cons_ne_nil b' bs) k
        exact ⟨c, List.mem_cons_of_mem b hc, j, fun _ _ => by rw [runSequence, h]; simp⟩

/-- A run of a behavior, for any number of earlier calls, in a store that has grown since the
behavior was entered. -/
theorem ValueInvariant.run (hP : ValueInvariant P) (hi : Invoke.Keeps P invoke) {b : Behavior}
    {s₀ : Store} (hb : b.Holds (P s₀)) :
    ∀ (k : Nat) {s : Store}, s.Sound P → s₀.Grows s →
      Keeps P s (b.run invoke k s).2 ∧
        OutcomeHolds (P (b.run invoke k s).2) (b.run invoke k s).1 := by
  induction hb with
  | constant hv =>
    intro k s hs hg
    exact ⟨.refl hs, hP.grows hg hv⟩
  | fresh hscope =>
    intro k s hs hg
    exact hP.build _ hs fun p hp => hP.grows hg (hscope p hp)
  | throw hf =>
    intro k s hs hg
    exact ⟨.refl hs, fun v hv => hP.grows hg (hf v hv)⟩
  | counter =>
    intro k s hs _
    exact ⟨.refl hs, hP.plain rfl⟩
  | @sequence bs _ ih =>
    intro k s hs hg
    show Keeps P s (runSequence invoke bs k s).2 ∧
      OutcomeHolds (P (runSequence invoke bs k s).2) (runSequence invoke bs k s).1
    by_cases hbs : bs = []
    · rw [hbs, runSequence]
      exact ⟨.refl hs, hP.plain rfl⟩
    · obtain ⟨b, hb, j, hrun⟩ := runSequence_eq_run hbs k
      rw [hrun]
      exact ih b hb j hs hg
  | @call v hv =>
    intro k s hs _
    exact hi.call v hs
  | walk hv =>
    intro k s hs hg
    exact hP.walkNames hi _ "" hs fun p hp => hP.asRecord_entry (hP.grows hg hv) hp
  | @property v name hv =>
    intro k s hs hg
    refine ⟨.refl hs, Record.outcomeHolds_get (fun p hp => ?_) name⟩
    exact hP.asRecord_entry (hP.grows hg hv) hp
  | toNumber =>
    intro k s hs _
    exact ⟨.refl hs, hP.plain rfl⟩
  | display =>
    intro k s hs _
    exact ⟨.refl hs, hP.plain rfl⟩

theorem ValueInvariant.keeps_invokeWithin (hP : ValueInvariant P) (depth : Nat) :
    Invoke.Keeps P (Store.invokeWithin depth) := by
  induction depth with
  | zero =>
    intro f s hs
    exact ⟨.refl hs, hP.plain rfl⟩
  | succ depth ih =>
    intro f s hs
    unfold Store.invokeWithin
    cases hp : s.functions[f.id]? with
    | none => exact ⟨.refl hs, hP.plain rfl⟩
    | some p =>
      have hk := Keeps.enterCall hs f
      obtain ⟨hk', ho⟩ := hP.run ih (hP.holds hs hp) (s.callCount f) hk.sound hk.grows
      exact ⟨hk.trans hk', ho⟩

/-- **Calls keep the property**, and what they return or fail with has it. -/
theorem ValueInvariant.keeps_invoke (hP : ValueInvariant P) : Invoke.Keeps P Store.invoke :=
  fun f _ hs => hP.keeps_invokeWithin (f.id + 1) f hs

end RecordWalk
