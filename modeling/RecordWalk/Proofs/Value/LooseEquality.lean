import RecordWalk.Proofs.Double.Read
import RecordWalk.Proofs.Session.Identity

/-!
# Loose equality

Loose equality converts one operand at a time and starts again. Its result can be told in one go
(`directEq`): undefined and null stand apart, records and functions compare by identity among
themselves, and otherwise both operands become primitive at once and compare as texts or as numbers.

Each conversion leaves `directEq` as it is, so the two agree by induction along the conversions.
What is left to know is how records and functions meet numbers. Their display texts begin with `[`
or `f`, as no numeral does, so they read as NaN.

**Theorem (`looseEq_direct`).** Loose equality is `directEq`. It is symmetric and agrees with strict
equality on operands of one kind, and no record or function equals a number or a boolean.

**Theorem (`looseEq_trans`).** Loose equality is transitive but for two texts around a number or a
boolean, and for two objects around a text. There it may fail.
-/

namespace RecordWalk

/-! ## Numeric equality -/

namespace Double

protected theorem eq_comm (x y : Double) : x.eq y = y.eq x := by
  cases x with
  | nan => cases y <;> rfl
  | signed s m =>
    cases y with
    | nan => rfl
    | signed t n => grind [eq]

protected theorem eq_trans {x y z : Double} (hxy : x.eq y = true) (hyz : y.eq z = true) :
    x.eq z = true := by
  cases x with
  | nan => cases hxy
  | signed s m =>
    cases y with
    | nan => cases hxy
    | signed t n =>
      cases z with
      | nan => cases hyz
      | signed u k => grind [eq]

@[simp] theorem eq_nan_left (x : Double) : nan.eq x = false := rfl

theorem eq_ofBool (p q : Bool) : (ofBool p).eq (ofBool q) = (p == q) := by
  cases p <;> cases q <;> decide +kernel

end Double

theorem Kind.eq_of_code_eq {k l : Kind} (h : k.code = l.code) : k = l := by
  cases k <;> cases l <;> first | rfl | cases h

/-! ## Display texts of objects -/

/-- A numeral begins with a digit, a point, the letter of `Infinity` or a sign. -/
theorem Numeral.Accepted.head_cases {c : Char} {t : List Char} (h : Accepted t)
    (hc : t.head? = some c) : c.isDigit = true ∨ c ∈ ['.', 'I', '+', '-'] := by
  cases h with
  | blank => cases hc
  | radix hr =>
    cases hr
    obtain rfl := Option.some.inj hc
    exact Or.inl rfl
  | signed hsign hbody =>
    cases hsign with
    | absent =>
      obtain ⟨d, rest, rfl, hd⟩ := hbody.eq_cons
      obtain rfl : d = c := Option.some.inj hc
      rcases hd with hd | rfl | rfl
      · exact Or.inl hd
      · simp
      · simp
    | plus =>
      obtain rfl := Option.some.inj hc
      simp
    | minus =>
      obtain rfl := Option.some.inj hc
      simp

namespace Value

/-- Between its ends the display text of an object may hold anything, as function names may. -/
theorem exists_display_eq {v : Value} (h : v.isObject = true) :
    ∃ first middle last, v.display.toList = first :: (middle ++ [last]) ∧
      (first = '[' ∨ first = 'f') ∧ (last = ']' ∨ last = '\x7d') := by
  cases v with
  | record r =>
    exact ⟨'[', "object Object".toList, ']', by simp [display], Or.inl rfl, Or.inl rfl⟩
  | function f =>
    refine ⟨'f', "unction ".toList ++ ((f.name.getD "").toList ++ "() \x7b [native code] ".toList),
      '\x7d', ?_, Or.inr rfl, Or.inr rfl⟩
    simp [display]
  | _ => cases h

theorem read_display_of_isObject {v : Value} (h : v.isObject = true) :
    Double.read v.display = .nan := by
  obtain ⟨first, middle, last, htext, hfirst, hlast⟩ := exists_display_eq h
  have hopen : isBlank first = false := by rcases hfirst with rfl | rfl <;> rfl
  have hclose : isBlank last = false := by rcases hlast with rfl | rfl <;> rfl
  have hnumeral : ¬ (first.isDigit = true ∨ first ∈ ['.', 'I', '+', '-']) := by
    rcases hfirst with rfl | rfl <;> decide
  have htrimmed : IsTrimmed v.display.toList (first :: (middle ++ [last])) := by
    refine ⟨[], [], by simp [htext], by simp, by simp, fun c hc => ?_, fun c hc => ?_⟩
    · obtain rfl := Option.some.inj hc
      exact isBlank_eq_false_iff.1 hopen
    · rw [← List.cons_append, List.getLast?_concat] at hc
      obtain rfl := Option.some.inj hc
      exact isBlank_eq_false_iff.1 hclose
  by_contra hread
  have haccepted := (Double.read_ne_nan_iff htrimmed).1 hread
  exact hnumeral (haccepted.head_cases rfl)

/-! ## The result in one go -/

/-- Whether two values are one record or one function. -/
def sameObject : Value → Value → Bool
  | record r, record s => r.same s
  | function f, function g => f.id == g.id
  | _, _ => false

/-- Equality of primitive values: by their characters if both are texts, else as numbers. -/
def primitiveEq : Value → Value → Bool
  | text s, text t => s == t
  | p, q => p.toNumber.eq q.toNumber

/-- Loose equality without one conversion after the other. -/
def directEq (a b : Value) : Bool :=
  if a.isNullish || b.isNullish then a.isNullish && b.isNullish
  else if a.isObject && b.isObject then sameObject a b
  else primitiveEq a.toPrimitive b.toPrimitive

@[simp] theorem isNullish_toPrimitive (v : Value) : v.toPrimitive.isNullish = v.isNullish := by
  cases v <;> rfl

theorem toPrimitive_of_isObject_eq_false {v : Value} (h : v.isObject = false) :
    v.toPrimitive = v := by
  cases v with
  | record r => cases h
  | function f => cases h
  | _ => rfl

theorem directEq_bool_left (p : Bool) (b : Value) :
    directEq (bool p) b = directEq (number (.ofBool p)) b := by
  cases b <;> rfl

theorem directEq_bool_right (a : Value) (q : Bool) :
    directEq a (bool q) = directEq a (number (.ofBool q)) := by
  cases a <;> rfl

theorem directEq_toPrimitive_left (a : Value) {b : Value} (hb : b.isObject = false) :
    directEq a.toPrimitive b = directEq a b := by
  simp [directEq, hb, toPrimitive_of_isObject_eq_false (isObject_toPrimitive a)]

theorem directEq_toPrimitive_right {a : Value} (ha : a.isObject = false) (b : Value) :
    directEq a b.toPrimitive = directEq a b := by
  simp [directEq, ha, toPrimitive_of_isObject_eq_false (isObject_toPrimitive b)]

theorem directEq_of_kind_eq {a b : Value} (h : a.kind = b.kind) : directEq a b = strictEq a b := by
  cases a <;> cases b <;> cases h
  case bool.bool.refl p q => exact Double.eq_ofBool p q
  all_goals rfl

theorem isNullish_of_isObject {v : Value} (h : v.isObject = true) : v.isNullish = false := by
  cases v with
  | undefined => cases h
  | null => cases h
  | _ => rfl

theorem directEq_of_isObject {a b : Value} (ha : a.isObject = true) (hb : b.isObject = true) :
    directEq a b = sameObject a b := by
  simp [directEq, isNullish_of_isObject ha, isNullish_of_isObject hb, ha, hb]

theorem strictEq_of_isObject {a : Value} (ha : a.isObject = true) (b : Value) :
    strictEq a b = sameObject a b := by
  cases a with
  | record r => cases b <;> rfl
  | function f => cases b <;> rfl
  | _ => cases ha

/-- **Loose equality is `directEq`.** The induction is along the conversions that loose equality
makes; none of them changes `directEq`. -/
theorem looseEq_eq_directEq (a b : Value) : looseEq a b = directEq a b := by
  fun_induction looseEq a b with
  | case1 b => cases b <;> rfl
  | case2 b => cases b <;> rfl
  | case3 a => cases a <;> simp_all [directEq, isNullish]
  | case4 a => cases a <;> simp_all [directEq, isNullish]
  | case5 x s => rfl
  | case6 s y => rfl
  | case7 p b _ _ ih => rw [ih, directEq_bool_left]
  | case8 a q _ _ _ ih => rw [ih, directEq_bool_right]
  | case9 a b _ _ _ _ _ _ _ _ ha hb => rw [directEq_of_isObject ha hb, strictEq_of_isObject ha]
  | case10 a b _ _ _ _ _ _ _ _ _ hb ih =>
    rw [ih, directEq_toPrimitive_left a (Bool.eq_false_iff.2 hb)]
  | case11 a b _ _ _ _ _ _ _ _ ha _ ih =>
    rw [ih, directEq_toPrimitive_right (Bool.eq_false_iff.2 ha) b]
  | case12 a b =>
    -- Two numbers or two texts are left.
    rw [directEq_of_kind_eq]
    cases a <;> cases b <;> simp_all [isObject, kind]

/-! ## Symmetry, and objects against primitive values -/

theorem sameObject_comm (a b : Value) : sameObject a b = sameObject b a := by
  cases a <;> cases b
  case record.record r s => exact BEq.comm
  case function.function f g => exact BEq.comm
  all_goals rfl

theorem exists_eq_text {v : Value} (h : v.kind = .text) : ∃ s, v = text s := by
  cases v with
  | text s => exact ⟨s, rfl⟩
  | _ => cases h

theorem primitiveEq_of_kind_ne {p q : Value} (h : ¬ (p.kind = .text ∧ q.kind = .text)) :
    primitiveEq p q = p.toNumber.eq q.toNumber := by
  unfold primitiveEq
  split
  · exact absurd ⟨rfl, rfl⟩ h
  · rfl

theorem primitiveEq_comm (p q : Value) : primitiveEq p q = primitiveEq q p := by
  by_cases h : p.kind = .text ∧ q.kind = .text
  · obtain ⟨s, rfl⟩ := exists_eq_text h.1
    obtain ⟨t, rfl⟩ := exists_eq_text h.2
    exact BEq.comm
  · rw [primitiveEq_of_kind_ne h, primitiveEq_of_kind_ne (mt And.symm h), Double.eq_comm]

theorem looseEq_comm (a b : Value) : looseEq a b = looseEq b a := by
  rw [looseEq_eq_directEq, looseEq_eq_directEq, directEq, directEq, Bool.or_comm a.isNullish,
    Bool.and_comm a.isNullish, Bool.and_comm a.isObject, sameObject_comm a, primitiveEq_comm]

theorem toPrimitive_of_isObject {v : Value} (h : v.isObject = true) :
    v.toPrimitive = text v.display := by
  cases v with
  | record r => rfl
  | function f => rfl
  | _ => cases h

/-- An object equals no primitive value but its display text. -/
theorem looseEq_iff_eq_display {v w : Value} (hv : v.isObject = true) (hw : w.isObject = false) :
    looseEq v w = true ↔ w = text v.display := by
  rw [looseEq_eq_directEq, ← directEq_toPrimitive_left v hw, toPrimitive_of_isObject hv]
  have hnan := read_display_of_isObject hv
  cases w with
  | record r => cases hw
  | function f => cases hw
  | text t =>
    have hdirect : directEq (text v.display) (text t) = (v.display == t) := rfl
    rw [hdirect, beq_iff_eq, text.injEq, Eq.comm]
  | _ => simp [directEq, isNullish, isObject, toPrimitive, primitiveEq, toNumber, hnan]

/-- **Loose equality in one go.** Undefined and null equal each other and nothing else, records and
functions compare by identity among themselves, and otherwise the primitive values of both operands
compare, by their characters if both are texts and as numbers if not. So loose equality is
symmetric, it is strict equality for operands of one kind, and a record or a function, whatever its
name is, equals no number and no boolean. -/
theorem looseEq_direct (a b : Value) :
    looseEq a b = directEq a b ∧ looseEq a b = looseEq b a ∧
      (a.kind.code = b.kind.code → looseEq a b = strictEq a b) ∧
      (a.isObject = true → b.kind = .number ∨ b.kind = .bool →
        looseEq a b = false ∧ looseEq b a = false) := by
  refine ⟨looseEq_eq_directEq a b, looseEq_comm a b, fun hcode => ?_, fun ha hb => ?_⟩
  · rw [looseEq_eq_directEq, directEq_of_kind_eq (Kind.eq_of_code_eq hcode)]
  · have hprimitive : b.isObject = false := by
      cases b <;> first | rfl | simp [kind] at hb
    have hne : looseEq a b = false := by
      rw [← Bool.not_eq_true, looseEq_iff_eq_display ha hprimitive]
      rintro rfl
      simp [kind] at hb
    exact ⟨hne, looseEq_comm a b ▸ hne⟩

/-! ## Transitivity -/

/-- The primitive value of an object may stand for it, where the other operand is primitive. -/
theorem looseEq_toPrimitive_left (a : Value) {b : Value} (hb : b.isObject = false) :
    looseEq a.toPrimitive b = looseEq a b := by
  rw [looseEq_eq_directEq, looseEq_eq_directEq, directEq_toPrimitive_left a hb]

theorem looseEq_toPrimitive_right {a : Value} (ha : a.isObject = false) (b : Value) :
    looseEq a b.toPrimitive = looseEq a b := by
  rw [looseEq_eq_directEq, looseEq_eq_directEq, directEq_toPrimitive_right ha b]

theorem looseEq_of_isObject {a b : Value} (ha : a.isObject = true) (hb : b.isObject = true) :
    looseEq a b = sameObject a b := by
  rw [looseEq_eq_directEq, directEq_of_isObject ha hb]

theorem isNullish_eq_of_looseEq {a b : Value} (h : looseEq a b = true) :
    a.isNullish = b.isNullish := by
  rw [looseEq_eq_directEq, directEq] at h
  cases ha : a.isNullish <;> cases hb : b.isNullish <;> simp_all

theorem looseEq_of_isNullish {a b : Value} (ha : a.isNullish = true) (hb : b.isNullish = true) :
    looseEq a b = true := by
  simp [looseEq_eq_directEq, directEq, ha, hb]

theorem looseEq_of_primitive {a b : Value} (ha : a.isObject = false) (hb : b.isObject = false)
    (ha' : a.isNullish = false) (hb' : b.isNullish = false) : looseEq a b = primitiveEq a b := by
  simp [looseEq_eq_directEq, directEq, ha, ha', hb', toPrimitive_of_isObject_eq_false ha,
    toPrimitive_of_isObject_eq_false hb]

/-- Functions with one identity have one name. -/
def OneName (a b : Value) : Prop :=
  ∀ f g, a = function f → b = function g → f.id = g.id → f.name = g.name

theorem sameObject_eq_true_iff {a b : Value} :
    sameObject a b = true ↔ (∃ r s, a = record r ∧ b = record s ∧ r.id = s.id) ∨
      ∃ f g, a = function f ∧ b = function g ∧ f.id = g.id := by
  constructor
  · intro h
    cases a <;> cases b <;> first | cases h | skip
    case record.record r s => exact Or.inl ⟨r, s, rfl, rfl, beq_iff_eq.1 h⟩
    case function.function f g => exact Or.inr ⟨f, g, rfl, rfl, beq_iff_eq.1 h⟩
  · rintro (⟨r, s, rfl, rfl, h⟩ | ⟨f, g, rfl, rfl, h⟩)
    · exact beq_iff_eq.2 h
    · exact beq_iff_eq.2 h

theorem sameObject_trans {a b c : Value} (hab : sameObject a b = true)
    (hbc : sameObject b c = true) : sameObject a c = true := by
  rw [sameObject_eq_true_iff] at hab hbc ⊢
  rcases hab with ⟨r, s, rfl, rfl, h⟩ | ⟨f, g, rfl, rfl, h⟩
  · rcases hbc with ⟨_, t, hs, rfl, h'⟩ | ⟨_, _, hs, -⟩
    · cases hs
      exact Or.inl ⟨r, t, rfl, rfl, h.trans h'⟩
    · cases hs
  · rcases hbc with ⟨_, _, hg, -⟩ | ⟨_, k, hg, rfl, h'⟩
    · cases hg
    · cases hg
      exact Or.inr ⟨f, k, rfl, rfl, h.trans h'⟩

theorem toPrimitive_eq_of_sameObject {a b : Value} (hname : OneName a b)
    (h : sameObject a b = true) : a.toPrimitive = b.toPrimitive := by
  rcases sameObject_eq_true_iff.1 h with ⟨r, s, rfl, rfl, -⟩ | ⟨f, g, rfl, rfl, hid⟩
  · rfl
  · simp only [toPrimitive, display, hname f g rfl rfl hid]

/-- Only two texts may stand around what equals both and still differ. -/
theorem primitiveEq_trans {p q r : Value} (hpq : primitiveEq p q = true)
    (hqr : primitiveEq q r = true) :
    primitiveEq p r = true ∨ p.kind = .text ∧ r.kind = .text ∧ q.kind ≠ .text := by
  by_cases h : p.kind = .text ∧ q.kind = .text
  · obtain ⟨s, rfl⟩ := exists_eq_text h.1
    obtain ⟨t, rfl⟩ := exists_eq_text h.2
    obtain rfl : s = t := beq_iff_eq.1 hpq
    exact Or.inl hqr
  by_cases h' : q.kind = .text ∧ r.kind = .text
  · obtain ⟨s, rfl⟩ := exists_eq_text h'.1
    obtain ⟨t, rfl⟩ := exists_eq_text h'.2
    obtain rfl : s = t := beq_iff_eq.1 hqr
    exact Or.inl hpq
  by_cases hpr : p.kind = .text ∧ r.kind = .text
  · exact Or.inr ⟨hpr.1, hpr.2, fun hq => h ⟨hpr.1, hq⟩⟩
  · rw [primitiveEq_of_kind_ne h] at hpq
    rw [primitiveEq_of_kind_ne h'] at hqr
    exact Or.inl ((primitiveEq_of_kind_ne hpr).trans (Double.eq_trans hpq hqr))

/-- Two texts around a number or a boolean. -/
def TextsAround (a b c : Value) : Prop :=
  a.kind = .text ∧ c.kind = .text ∧ (b.kind = .number ∨ b.kind = .bool)

/-- Two objects around a text. -/
def ObjectsAround (a b c : Value) : Prop :=
  a.isObject = true ∧ c.isObject = true ∧ b.kind = .text

section

variable {a b c : Value} (hab : looseEq a b = true) (hbc : looseEq b c = true)
include hab hbc

/-- Nothing is lost across an object: what it equals is the object itself or its display text. -/
theorem looseEq_across_object (hb : b.isObject = true) (hname : OneName a b)
    (hname' : OneName b c) : looseEq a c = true := by
  cases hc : c.isObject with
  | true =>
    rw [looseEq_of_isObject hb hc] at hbc
    cases ha : a.isObject with
    | true =>
      rw [looseEq_of_isObject ha hb] at hab
      rw [looseEq_of_isObject ha hc]
      exact sameObject_trans hab hbc
    | false =>
      rw [← looseEq_toPrimitive_right ha c, ← toPrimitive_eq_of_sameObject hname' hbc,
        looseEq_toPrimitive_right ha b]
      exact hab
  | false =>
    have hprimitive : a.toPrimitive = b.toPrimitive := by
      cases ha : a.isObject with
      | true =>
        rw [looseEq_of_isObject ha hb] at hab
        exact toPrimitive_eq_of_sameObject hname hab
      | false =>
        rw [looseEq_comm, looseEq_iff_eq_display hb ha] at hab
        rw [toPrimitive_of_isObject hb, toPrimitive_of_isObject_eq_false ha, hab]
    rw [← looseEq_toPrimitive_left a hc, hprimitive, looseEq_toPrimitive_left b hc]
    exact hbc

theorem looseEq_across_primitive (ha : a.isObject = false) (hb : b.isObject = false)
    (hc : c.isObject = false) : looseEq a c = true ∨ TextsAround a b c := by
  have hnull := isNullish_eq_of_looseEq hab
  have hnull' := isNullish_eq_of_looseEq hbc
  cases hb' : b.isNullish with
  | true => exact Or.inl (looseEq_of_isNullish (hnull.trans hb') (hnull'.symm.trans hb'))
  | false =>
    have ha' := hnull.trans hb'
    have hc' := hnull'.symm.trans hb'
    rw [looseEq_of_primitive ha hb ha' hb'] at hab
    rw [looseEq_of_primitive hb hc hb' hc'] at hbc
    rw [looseEq_of_primitive ha hc ha' hc']
    refine (primitiveEq_trans hab hbc).imp_right fun ⟨hta, htc, htb⟩ => ⟨hta, htc, ?_⟩
    cases b with
    | number x => exact Or.inl rfl
    | bool p => exact Or.inr rfl
    | text s => exact absurd rfl htb
    | undefined => cases hb'
    | null => cases hb'
    | record r => cases hb
    | function f => cases hb

end

/-- Functions in one run with one identity have one name. -/
theorem oneName_of_comesUp {ps : List Step} {a b : Value} (ha : Session.ComesUp ps a)
    (hb : Session.ComesUp ps b) : OneName a b := by
  rintro f g rfl rfl hid
  obtain ⟨x, hx⟩ := (Session.kept_of_comesUp ha).getElem?_function
  obtain ⟨y, hy⟩ := (Session.kept_of_comesUp hb).getElem?_function
  rw [hid, hy] at hx
  cases hx
  rfl

/-- **Where loose equality is transitive.** What equals the same value is equal, unless it is two
texts that equal one number or boolean, or two objects that equal one text. In both cases there are
such values that are not equal.

A function is known by its identity, so functions with one identity are to have one name. In a run
all functions do. -/
theorem looseEq_trans :
    (∀ a b c : Value, OneName a b → OneName b c → looseEq a b = true → looseEq b c = true →
      looseEq a c = true ∨ TextsAround a b c ∨ ObjectsAround a b c) ∧
    (∀ (ps : List Step) (a b : Value), Session.ComesUp ps a → Session.ComesUp ps b →
      OneName a b) ∧
    (∃ a b c, TextsAround a b c ∧ looseEq a b = true ∧ looseEq b c = true ∧
      looseEq a c = false) ∧
    ∃ a b c, ObjectsAround a b c ∧ looseEq a b = true ∧ looseEq b c = true ∧
      looseEq a c = false := by
  refine ⟨fun a b c hname hname' hab hbc => ?_, fun ps a b => oneName_of_comesUp, ?_, ?_⟩
  · cases hb : b.isObject with
    | true => exact Or.inl (looseEq_across_object hab hbc hb hname hname')
    | false =>
      cases ha : a.isObject with
      | true =>
        -- What is in the middle is the display text of the first object.
        obtain rfl := (looseEq_iff_eq_display ha hb).1 hab
        cases hc : c.isObject with
        | true => exact Or.inr (Or.inr ⟨ha, hc, rfl⟩)
        | false =>
          rw [← looseEq_toPrimitive_left a hc, toPrimitive_of_isObject ha]
          exact Or.inl hbc
      | false =>
        cases hc : c.isObject with
        | true =>
          obtain rfl := (looseEq_iff_eq_display hc hb).1 (looseEq_comm b c ▸ hbc)
          rw [← looseEq_toPrimitive_right ha c, toPrimitive_of_isObject hc]
          exact Or.inl hab
        | false => exact (looseEq_across_primitive hab hbc ha hb hc).imp_right Or.inl
  · refine ⟨text "1", bool true, text "1.0", ⟨rfl, rfl, Or.inr rfl⟩, ?_⟩
    simp only [looseEq_eq_directEq]
    decide +kernel
  · refine ⟨record ⟨0, []⟩, text "[object Object]", record ⟨1, []⟩, ⟨rfl, rfl, rfl⟩, ?_⟩
    simp only [looseEq_eq_directEq]
    decide +kernel

/-- A number and a boolean around a text that reads as both. -/
theorem looseEq_trans_hexadecimal :
    let x : Value := number (.ofInt 1)
    let t : Value := text " 0x1 "
    (OneName x t ∧ OneName t (bool true) ∧ looseEq x t = true ∧ looseEq t (bool true) = true) ∧
      looseEq x (bool true) = true := by
  intro x t
  have hname : OneName x t := by simp [OneName, x]
  have hname' : OneName t (bool true) := by simp [OneName]
  have hxt : looseEq x t = true := by
    rw [looseEq_eq_directEq]
    decide +kernel
  have ht : looseEq t (bool true) = true := by
    rw [looseEq_eq_directEq]
    decide +kernel
  refine ⟨⟨hname, hname', hxt, ht⟩, ?_⟩
  rcases looseEq_trans.1 x t (bool true) hname hname' hxt ht with h | h | h
  · exact h
  · exact absurd h.1 (by decide)
  · exact absurd h.1 (by decide)

end Value

end RecordWalk
