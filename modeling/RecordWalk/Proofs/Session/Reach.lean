import RecordWalk.Proofs.Script.Reach
import RecordWalk.Session

/-!
# What holds of every value in a session

A session has values in its variables and in the behaviors of its store. A step builds values from
these, or takes them out of records, and binds at most one of them. So a property that building and
calling keep (`ValueInvariant`) holds of all values of a session at every point of a run.

**Theorem (`ValueInvariant.keeps_run`).** Whatever steps a session takes, its store grows, and its
values have the property if they had it at the start. So have all values in the answers.
-/

namespace RecordWalk

/-- The values in reach of a session have a property. -/
structure Session.Sound (P : Store → Value → Prop) (s : Session) : Prop where
  store : s.store.Sound P
  scope : ∀ p ∈ s.scope, P s.store p.2

/-- A change of a session in which its store grows and its values stay sound. -/
structure Session.Keeps (P : Store → Value → Prop) (s t : Session) : Prop where
  grows : s.store.Grows t.store
  sound : t.Sound P

variable {P : Store → Value → Prop} {s t u : Session}

theorem Session.sound_empty (P : Store → Value → Prop) : empty.Sound P :=
  ⟨fun _ _ h => by simp [empty, Store.empty] at h, fun _ h => nomatch h⟩

theorem Session.Keeps.refl (hs : s.Sound P) : s.Keeps P s := ⟨.refl _, hs⟩

theorem Session.Keeps.trans (h : s.Keeps P t) (h' : t.Keeps P u) : s.Keeps P u :=
  ⟨h.grows.trans h'.grows, h'.sound⟩

/-- Only the store and the variables of a session hold values. -/
theorem Session.Keeps.congr (h : s.Keeps P t) (hstore : u.store = t.store)
    (hscope : u.scope = t.scope) : s.Keeps P u := by
  refine ⟨?_, ?_, ?_⟩
  · rw [hstore]
    exact h.grows
  · rw [hstore]
    exact h.sound.store
  · rw [hstore, hscope]
    exact h.sound.scope

theorem ValueInvariant.keeps_setStore (hP : ValueInvariant P) (hs : s.Sound P) {t : Store}
    (hk : Keeps P s.store t) : s.Keeps P { s with store := t } :=
  ⟨hk.grows, hk.sound, fun p hp => hP.grows hk.grows (hs.scope p hp)⟩

theorem ValueInvariant.sound_build (hP : ValueInvariant P) (hs : s.Sound P) (e : Expr) :
    s.Keeps P (s.build e).2 ∧ P (s.build e).2.store (s.build e).1 := by
  obtain ⟨hk, hv⟩ := hP.build e hs.store hs.scope
  exact ⟨hP.keeps_setStore hs hk, hv⟩

/-! ## The values in an answer -/

/-- The value that an outcome gives or fails with. -/
def outcomeValues : Except Failure Value → List Value
  | .ok v => [v]
  | .error f => f.value?.toList

theorem OutcomeHolds.of_mem {P : Value → Prop} {o : Except Failure Value} (h : OutcomeHolds P o)
    {v : Value} (hv : v ∈ outcomeValues o) : P v := by
  cases o with
  | ok w =>
    obtain rfl := List.mem_singleton.1 hv
    exact h
  | error f => exact h v (Option.mem_toList.1 hv)

theorem mem_outcomeValues {o : Except Failure Value} {v : Value} (h : o.toOption = some v) :
    v ∈ outcomeValues o := by
  cases o with
  | ok w =>
    cases h
    exact List.mem_singleton_self v
  | error f => cases h

namespace Answer

/-- All values in an answer. -/
def values : Answer → List Value
  | value v => [v]
  | property o => outcomeValues o
  | called o _ => outcomeValues o
  | walked o _ => outcomeValues (o.map .text)
  | entries es => es.map Prod.snd
  | text s => [.text s]
  | inspection i => [i.primitive]
  | _ => []

/-- What a step binds stands in its answer. -/
theorem mem_values_of_outcome? {a : Answer} {v : Value} (h : a.outcome? = some v) :
    v ∈ a.values := by
  cases a with
  | value w =>
    cases h
    exact List.mem_singleton_self v
  | text s =>
    cases h
    exact List.mem_singleton_self (Value.text s)
  | property o => exact mem_outcomeValues (by cases o <;> exact h)
  | called o calls => exact mem_outcomeValues (by cases o <;> exact h)
  | walked o calls => exact mem_outcomeValues (by cases o <;> exact h)
  | _ => cases h

end Answer

/-- An answer leaves the session sound, and the values in it have the property. -/
theorem ValueInvariant.sound_answer (hP : ValueInvariant P) (hs : s.Sound P) (q : Request) :
    s.Keeps P (s.answer q).2 ∧ ∀ v ∈ (s.answer q).1.values, P (s.answer q).2.store v := by
  cases q with
  | value e =>
    obtain ⟨hb, hv⟩ := hP.sound_build hs e
    refine ⟨hb, fun w hw => ?_⟩
    obtain rfl := List.mem_singleton.1 hw
    exact hv
  | drop name =>
    refine ⟨⟨.refl _, hs.store, fun p hp => ?_⟩, fun _ hw => nomatch hw⟩
    exact hs.scope p (List.mem_filter.1 hp).1
  | property e name =>
    obtain ⟨hb, hv⟩ := hP.sound_build hs e
    refine ⟨hb, fun w hw => ?_⟩
    have hget := Record.outcomeHolds_get (fun p hp => hP.asRecord_entry hv hp) name
    exact hget.of_mem hw
  | call e =>
    obtain ⟨hb, -⟩ := hP.sound_build hs e
    obtain ⟨hk, ho⟩ := hP.keeps_invoke.call (s.build e).1 hb.sound.store
    exact ⟨(hb.trans (hP.keeps_setStore hb.sound hk)).congr rfl rfl, fun w hw => ho.of_mem hw⟩
  | walk e =>
    obtain ⟨hb, hv⟩ := hP.sound_build hs e
    obtain ⟨hk, ho⟩ := hP.walkNames hP.keeps_invoke (s.build e).1.asRecord.names "" hb.sound.store
      fun p hp => hP.asRecord_entry hv hp
    exact ⟨(hb.trans (hP.keeps_setStore hb.sound hk)).congr rfl rfl, fun w hw => ho.of_mem hw⟩
  | size e => exact ⟨(hP.sound_build hs e).1, fun _ hw => nomatch hw⟩
  | entries e =>
    obtain ⟨hb, hv⟩ := hP.sound_build hs e
    refine ⟨hb, fun w hw => ?_⟩
    obtain ⟨p, hp, rfl⟩ := List.mem_map.1 hw
    exact hP.asRecord_entry hv hp
  | same e e' =>
    have hb := (hP.sound_build hs e).1
    exact ⟨hb.trans (hP.sound_build hb.sound e').1, fun _ hw => nomatch hw⟩
  | start e name => exact ⟨(hP.sound_build hs e).1.congr rfl rfl, fun _ hw => nomatch hw⟩
  | next name => exact ⟨(Session.Keeps.refl hs).congr rfl rfl, fun _ hw => nomatch hw⟩
  | rest name => exact ⟨(Session.Keeps.refl hs).congr rfl rfl, fun _ hw => nomatch hw⟩
  | append name e =>
    refine ⟨(hP.sound_build hs e).1.congr rfl rfl, fun w hw => ?_⟩
    obtain rfl := List.mem_singleton.1 hw
    exact hP.plain rfl
  | compare e e' =>
    have hb := (hP.sound_build hs e).1
    exact ⟨hb.trans (hP.sound_build hb.sound e').1, fun _ hw => nomatch hw⟩
  | inspect e =>
    refine ⟨(hP.sound_build hs e).1, fun w hw => ?_⟩
    obtain rfl := List.mem_singleton.1 hw
    exact hP.plain (Value.isObject_toPrimitive _)

/-! ## Steps and runs -/

namespace Session

/-- A step is its answer, and perhaps a variable bound to the outcome. -/
theorem step_cases (s : Session) (p : Step) :
    s.step p = s.answer p.request ∨
      ∃ name, ∃ v ∈ (s.answer p.request).1.outcome?,
        s.step p = ((s.answer p.request).1,
          { (s.answer p.request).2 with scope := (s.answer p.request).2.scope.bind name v }) := by
  unfold step
  rcases s.answer p.request with ⟨a, t⟩
  dsimp only
  split
  next name v _ hv => exact .inr ⟨name, v, hv, rfl⟩
  next => exact .inl rfl

@[simp] theorem step_fst (s : Session) (p : Step) : (s.step p).1 = (s.answer p.request).1 := by
  rcases s.step_cases p with h | ⟨_, _, _, h⟩ <;> rw [h]

theorem run_cons (s : Session) (p : Step) (ps : List Step) :
    (s.run (p :: ps)).2 = ((s.step p).2.run ps).2 := rfl

theorem run_append (s : Session) (ps qs : List Step) :
    (s.run (ps ++ qs)).2 = ((s.run ps).2.run qs).2 := by
  induction ps generalizing s with
  | nil => rfl
  | cons p ps ih => exact ih _

end Session

theorem ValueInvariant.keeps_step (hP : ValueInvariant P) (hs : s.Sound P) (p : Step) :
    s.Keeps P (s.step p).2 ∧ ∀ v ∈ (s.step p).1.values, P (s.step p).2.store v := by
  obtain ⟨ha, hvalues⟩ := hP.sound_answer hs p.request
  rcases s.step_cases p with h | ⟨name, v, hv, h⟩
  · rw [h]
    exact ⟨ha, hvalues⟩
  · rw [h]
    refine ⟨⟨ha.grows, ha.sound.store, fun q hq => ?_⟩, hvalues⟩
    rcases List.mem_cons.1 hq with rfl | hq
    · exact hvalues v (Answer.mem_values_of_outcome? hv)
    · exact ha.sound.scope q (List.mem_filter.1 hq).1

/-- **Every value in a session has the property**, if it held of the session that the run began
with, and so has every value in the answers of the run. -/
theorem ValueInvariant.keeps_run (hP : ValueInvariant P) (ps : List Step) :
    ∀ {s : Session}, s.Sound P → s.Keeps P (s.run ps).2 ∧
      ∀ a ∈ (s.run ps).1, ∀ v ∈ a.values, P (s.run ps).2.store v := by
  induction ps with
  | nil => exact fun hs => ⟨.refl hs, fun _ ha => nomatch ha⟩
  | cons p ps ih =>
    intro s hs
    obtain ⟨hstep, hvalues⟩ := hP.keeps_step hs p
    obtain ⟨hrun, hrest⟩ := ih hstep.sound
    refine ⟨hstep.trans hrun, fun a ha v hv => ?_⟩
    rcases List.mem_cons.1 ha with rfl | ha
    · exact hP.grows hrun.grows (hvalues v hv)
    · exact hrest a ha v hv

theorem ValueInvariant.sound_run (hP : ValueInvariant P) (ps : List Step) (hs : s.Sound P) :
    (s.run ps).2.Sound P :=
  (hP.keeps_run ps hs).1.sound

end RecordWalk
