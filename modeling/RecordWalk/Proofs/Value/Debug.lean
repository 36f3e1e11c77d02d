import Mathlib.Data.List.Forall2
import RecordWalk.Proofs.Double.Debug
import RecordWalk.Proofs.Text.Quoted
import RecordWalk.Value.Debug

/-!
# Debug texts are unambiguous

Names and texts may look like any part of a debug text, so the text cannot be cut at commas or
braces. It is read from the front instead: the first characters tell the kind, a number ends at its
parenthesis, a text and a name at their closing quote, and a record gives its size before its
entries. So the debug text of a value ends by itself, whatever follows it (`EndsDebug`); that is the
invariant of the induction on the value.

**Theorem (`debug_eq_iff`).** Two values without functions have the same debug text exactly if they
are built alike.
-/

namespace RecordWalk.Value

/-- A value with no function in it, at any depth. -/
inductive IsData : Value → Prop
  | undefined : IsData .undefined
  | null : IsData .null
  | bool (b : Bool) : IsData (.bool b)
  | number (x : Double) : IsData (.number x)
  | text (s : String) : IsData (.text s)
  | record {r : Record Value} : (∀ e ∈ r.entries, IsData e.2) → IsData (.record r)

/-- Two values are built alike: of the same kind, with the same content, and records with the same
names in the same order and values that are alike. All NaNs have the same bits. -/
inductive Alike : Value → Value → Prop
  | undefined : Alike .undefined .undefined
  | null : Alike .null .null
  | bool (b : Bool) : Alike (.bool b) (.bool b)
  | number {x y : Double} : x.toBits = y.toBits → Alike (.number x) (.number y)
  | text (s : String) : Alike (.text s) (.text s)
  | record {r s : Record Value} : r.names = s.names →
      List.Forall₂ Alike (r.entries.map Prod.snd) (s.entries.map Prod.snd) →
      Alike (.record r) (.record s)

theorem Alike.names_eq {r s : Record Value} (h : Alike (.record r) (.record s)) :
    r.names = s.names := by
  cases h with
  | record hnames _ => exact hnames

/-! ## The kind -/

/-- The kind of the value whose debug text begins here. -/
def kindOfDebug? : List Char → Option Kind
  | 'U' :: _ => some .undefined
  | 'N' :: 'u' :: 'l' :: _ => some .null
  | 't' :: _ => some .bool
  | 'f' :: _ => some .bool
  | 'N' :: 'u' :: 'm' :: _ => some .number
  | 'S' :: _ => some .text
  | 'O' :: _ => some .record
  | 'L' :: _ => some .function
  | _ => none

theorem kindOfDebug?_debugOnto (v : Value) (rest : List Char) :
    kindOfDebug? (v.debugOnto rest) = some v.kind := by
  cases v with
  | bool b => cases b <;> rfl
  | _ => rfl

theorem kind_eq_of_debugOnto_eq {v w : Value} {r s : List Char}
    (h : v.debugOnto r = w.debugOnto s) : v.kind = w.kind := by
  have hkind := congrArg kindOfDebug? h
  rw [kindOfDebug?_debugOnto, kindOfDebug?_debugOnto] at hkind
  exact Option.some.inj hkind

/-! ## Values -/

/-- The debug text of a value is told from what follows it. -/
def EndsDebug (v : Value) : Prop :=
  ∀ ⦃w : Value⦄, w.IsData → ∀ ⦃r s : List Char⦄, v.debugOnto r = w.debugOnto s →
    v.Alike w ∧ r = s

/-- The entries of a record are told from each other and from what follows them, once their number
is known. -/
theorem debugEntriesOnto_inj {es : List (String × Value)} (hes : ∀ e ∈ es, e.2.EndsDebug)
    {fs : List (String × Value)} (hfs : ∀ f ∈ fs, f.2.IsData) (hlength : es.length = fs.length)
    {r s : List Char} (h : debugEntriesOnto es r = debugEntriesOnto fs s) :
    es.map Prod.fst = fs.map Prod.fst ∧
      List.Forall₂ Alike (es.map Prod.snd) (fs.map Prod.snd) ∧ r = s := by
  induction es generalizing fs with
  | nil =>
    obtain rfl := List.length_eq_zero_iff.1 hlength.symm
    exact ⟨rfl, .nil, h⟩
  | cons e es ih =>
    cases fs with
    | nil => cases hlength
    | cons f fs =>
      obtain ⟨name, v⟩ := e
      obtain ⟨name', w⟩ := f
      have hv := hes _ List.mem_cons_self
      have hw := hfs _ List.mem_cons_self
      -- The text of the first entry and of what follows it, which is nothing but `r` for the last.
      have hfirst {t t' : List Char}
          (h : quoteChars name.toList ++ ':' :: ' ' :: v.debugOnto t =
            quoteChars name'.toList ++ ':' :: ' ' :: w.debugOnto t') :
          name = name' ∧ v.Alike w ∧ t = t' := by
        obtain ⟨hname, htail⟩ := eq_of_quoteChars_append h
        exact ⟨String.toList_inj.1 hname, hv hw (List.cons.inj (List.cons.inj htail).2).2⟩
      cases es with
      | nil =>
        obtain rfl := List.length_eq_zero_iff.1 (Nat.succ.inj hlength).symm
        obtain ⟨rfl, hsame, hrest⟩ := hfirst h
        exact ⟨rfl, .cons hsame .nil, hrest⟩
      | cons e es =>
        cases fs with
        | nil => cases hlength
        | cons f fs =>
          obtain ⟨rfl, hsame, htail⟩ := hfirst h
          obtain ⟨hnames, hvalues, hrest⟩ := ih (fun e he => hes e (.tail _ he))
            (fun f hf => hfs f (.tail _ hf)) (Nat.succ.inj hlength)
            (List.cons.inj (List.cons.inj htail).2).2
          exact ⟨congrArg (name :: ·) hnames, .cons hsame hvalues, hrest⟩

/-- **The debug text of data ends by itself.** -/
theorem endsDebug {v : Value} (hv : v.IsData) : v.EndsDebug := by
  induction hv with
  | undefined =>
    intro w hw r s h
    have hkind := kind_eq_of_debugOnto_eq h
    cases hw with
    | undefined => exact ⟨.undefined, List.append_cancel_left h⟩
    | _ => cases hkind
  | null =>
    intro w hw r s h
    have hkind := kind_eq_of_debugOnto_eq h
    cases hw with
    | null => exact ⟨.null, List.append_cancel_left h⟩
    | _ => cases hkind
  | bool b =>
    intro w hw r s h
    have hkind := kind_eq_of_debugOnto_eq h
    cases hw with
    | bool c =>
      cases b <;> cases c
      · exact ⟨.bool false, List.append_cancel_left h⟩
      · exact absurd (List.cons.inj h).1 (by decide)
      · exact absurd (List.cons.inj h).1 (by decide)
      · exact ⟨.bool true, List.append_cancel_left h⟩
    | _ => cases hkind
  | number x =>
    intro w hw r s h
    have hkind := kind_eq_of_debugOnto_eq h
    cases hw with
    | number y =>
      obtain ⟨hdebug, hrest⟩ := append_mark_inj x.paren_notMem_debug y.paren_notMem_debug
        (List.append_cancel_left h)
      obtain rfl := Double.debug_injective (String.toList_inj.1 hdebug)
      exact ⟨.number rfl, hrest⟩
    | _ => cases hkind
  | text t =>
    intro w hw r s h
    have hkind := kind_eq_of_debugOnto_eq h
    cases hw with
    | text u =>
      obtain ⟨htext, hrest⟩ := eq_of_quoteChars_append (List.append_cancel_left h)
      obtain rfl := String.toList_inj.1 htext
      exact ⟨.text t, (List.cons.inj hrest).2⟩
    | _ => cases hkind
  | record hentries ih =>
    intro w hw r s h
    have hkind := kind_eq_of_debugOnto_eq h
    cases hw with
    | record hentries' =>
      obtain ⟨hsize, htail⟩ := append_mark_inj (notMem_toDigits rfl) (notMem_toDigits rfl)
        (List.append_cancel_left h)
      obtain ⟨hnames, hvalues, hrest⟩ := debugEntriesOnto_inj ih hentries'
        (toDigits_injective (by decide) (by decide) hsize) (List.append_cancel_left htail)
      exact ⟨.record hnames hvalues, List.append_cancel_left hrest⟩
    | _ => cases hkind

/-! ## The other direction -/

theorem debugEntriesOnto_congr {es fs : List (String × Value)}
    (hes : ∀ e ∈ es, ∀ w, e.2.Alike w → ∀ r, e.2.debugOnto r = w.debugOnto r)
    (hnames : es.map Prod.fst = fs.map Prod.fst)
    (hvalues : List.Forall₂ Alike (es.map Prod.snd) (fs.map Prod.snd)) (r : List Char) :
    debugEntriesOnto es r = debugEntriesOnto fs r := by
  induction es generalizing fs with
  | nil =>
    cases fs with
    | nil => rfl
    | cons f fs => cases hnames
  | cons e es ih =>
    cases fs with
    | nil => cases hnames
    | cons f fs =>
      obtain ⟨name, v⟩ := e
      obtain ⟨name', w⟩ := f
      obtain ⟨hname, hrest⟩ := List.cons.inj hnames
      obtain rfl : name = name' := hname
      obtain ⟨hsame, hvalues⟩ := List.forall₂_cons.1 hvalues
      have htail := ih (fun e he => hes e (.tail _ he)) hrest hvalues
      have hv := hes _ List.mem_cons_self w hsame
      cases es with
      | nil =>
        obtain rfl := List.map_eq_nil_iff.1 hrest.symm
        exact congrArg (fun t => quoteChars name.toList ++ ':' :: ' ' :: t) (hv r)
      | cons e es =>
        cases fs with
        | nil => cases hrest
        | cons f fs =>
          show quoteChars name.toList ++ ':' :: ' ' :: v.debugOnto (',' :: ' ' :: _) =
            quoteChars name.toList ++ ':' :: ' ' :: w.debugOnto (',' :: ' ' :: _)
          rw [htail, hv]

/-- Values that are alike have the same debug text: it shows no identities. -/
theorem debugOnto_eq_of_alike {v : Value} (hv : v.IsData) :
    ∀ w, v.Alike w → ∀ r, v.debugOnto r = w.debugOnto r := by
  induction hv with
  | number x =>
    intro w h r
    cases h with
    | number hbits =>
      have heq := congrArg Double.ofBits hbits
      rw [Double.ofBits_toBits, Double.ofBits_toBits] at heq
      rw [heq]
  | @record a _ ih =>
    intro w h r
    cases h with
    | @record _ b hnames hvalues =>
      have hsize : a.entries.length = b.entries.length := by
        have hlength := congrArg List.length hnames
        simpa [Record.names] using hlength
      show "Object([size = ".toList ++ (Nat.toDigits 10 a.entries.length ++ (_ ++
          debugEntriesOnto a.entries _)) =
        "Object([size = ".toList ++ (Nat.toDigits 10 b.entries.length ++ (_ ++
          debugEntriesOnto b.entries _))
      rw [hsize, debugEntriesOnto_congr ih hnames hvalues]
  | _ =>
    intro w h r
    cases h
    rfl

/-- **Debug texts are unambiguous.** Two values without functions have the same debug text exactly
if they are alike: of the same kind, with the same text or the same bits of a number, and records
with the same names in the same order and values that are alike. -/
theorem debug_eq_iff {v w : Value} (hv : v.IsData) (hw : w.IsData) :
    v.debug = w.debug ↔ v.Alike w := by
  constructor
  · intro h
    exact (endsDebug hv hw (String.ofList_inj.1 h)).1
  · intro h
    exact congrArg String.ofList (debugOnto_eq_of_alike hv w h [])

/-- A record is alike to a copy with another identity, and its text is not that of a record with a
name that imitates two entries. -/
theorem debug_eq_iff_imitation :
    let v : Value := .record ⟨0, [("a", .text "x"), ("b", .number .nan)]⟩
    let copy : Value := .record ⟨1, [("a", .text "x"), ("b", .number .nan)]⟩
    let w : Value := .record ⟨2, [("a\": String(\"x\"), \"b", .number .nan)]⟩
    v.IsData ∧ copy.IsData ∧ w.IsData ∧
      v.debug = copy.debug ∧ v.Alike copy ∧ v.debug ≠ w.debug := by
  intro v copy w
  have hv : v.IsData := .record (by simp [IsData.text, IsData.number])
  have hcopy : copy.IsData := .record (by simp [IsData.text, IsData.number])
  have hw : w.IsData := .record (by simp [IsData.number])
  refine ⟨hv, hcopy, hw, rfl, (debug_eq_iff hv hcopy).1 rfl, fun h => ?_⟩
  have hnames := ((debug_eq_iff hv hw).1 h).names_eq
  simp [Record.names] at hnames

end RecordWalk.Value
