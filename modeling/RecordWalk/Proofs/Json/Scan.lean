import RecordWalk.Json.Token
import RecordWalk.Json.Write
import RecordWalk.Proofs.Digits

/-!
# Scanning written JSON

Writing puts tokens in a row, with blanks between them. Scanning takes a token or a blank at a time
off the front of a text, so a written value is scanned from left to right whatever follows it. Only
a number does not say where it ends: what follows must not go on with it (`Delimited`).

**Theorem (`scans_chars`).** The text of a plain value is scanned as the tokens of the value, in
every style whose lines and gaps are blank. Plain values (`Plain`) are those that hold natural
numbers and Unicode texts only; the program writes no others.

The number of steps is not fixed: a text is scanned in any number of steps that is at least its
length (`Scans`), so texts can be put together without counting.
-/

namespace RecordWalk.Json

/-! ## Tokens of a text -/

/-- A text has certain tokens, found in any number of steps that is not too small. -/
def Scans (cs : List Char) (ts : List Token) : Prop :=
  ∀ fuel, cs.length ≤ fuel → scanWithin? fuel cs = some ts

variable {cs rest : List Char} {c : Char} {ts : List Token} {t : Token}

theorem Scans.scan? (h : Scans cs ts) : scan? cs = some ts := h cs.length (Nat.le_refl _)

theorem Scans.nil : Scans [] [] := by
  intro fuel _
  rw [scanWithin?]

theorem Scans.space (h : Scans cs ts) (hc : isSpace c = true) : Scans (c :: cs) ts := by
  intro fuel hfuel
  cases fuel with
  | zero => cases hfuel
  | succ fuel =>
    rw [scanWithin?, if_pos hc]
    exact h fuel (Nat.le_of_succ_le_succ hfuel)

theorem Scans.spaces (h : Scans cs ts) {bs : List Char} (hbs : ∀ c ∈ bs, isSpace c = true) :
    Scans (bs ++ cs) ts := by
  induction bs with
  | nil => exact h
  | cons b bs ih =>
    exact (ih fun c hc => hbs c (List.mem_cons_of_mem b hc)).space (hbs b List.mem_cons_self)

theorem Scans.token (h : Scans rest ts) (hc : isSpace c = false)
    (ht : scanToken? (c :: cs) = some (t, rest)) (hlength : rest.length ≤ cs.length) :
    Scans (c :: cs) (t :: ts) := by
  intro fuel hfuel
  cases fuel with
  | zero => cases hfuel
  | succ fuel =>
    have hrest := h fuel (Nat.le_trans hlength (Nat.le_of_succ_le_succ hfuel))
    rw [scanWithin?, if_neg (Bool.eq_false_iff.1 hc), ht]
    simp only [hrest, Option.map_some]

/-- A token that is one mark. -/
theorem Scans.mark (h : Scans cs ts) (c : Char) (t : Token) (hc : isSpace c = false)
    (ht : scanToken? (c :: cs) = some (t, cs)) : Scans (c :: cs) (t :: ts) :=
  h.token hc ht (Nat.le_refl _)

theorem Scans.null (h : Scans cs ts) : Scans ("null".toList ++ cs) (.null :: ts) :=
  h.token rfl rfl (by simp; omega)

theorem Scans.bool (h : Scans cs ts) (b : Bool) :
    Scans ((if b then "true" else "false").toList ++ cs) (.bool b :: ts) := by
  cases b with
  | true => exact h.token rfl rfl (by simp; omega)
  | false => exact h.token rfl rfl (by simp; omega)

/-! ## Strings -/

theorem hexValue?_digitChar : ∀ n < 16, hexValue? (Nat.digitChar n) = some n := by decide

/-- A code unit is read back from its four digits. -/
theorem scanPieces?_unitEscape {n : Nat} (hn : n < 0x10000) (cs : List Char) :
    scanPieces? (unitEscape n ++ cs) =
      (scanPieces? cs).map fun (pieces, rest) => (unitPiece n :: pieces, rest) := by
  have hvalue : (n / 4096 % 16 * 16 + n / 256 % 16) * 256 + n / 16 % 16 * 16 + n % 16 = n := by
    omega
  have hdigits : hexValue4? (Nat.digitChar (n / 4096 % 16)) (Nat.digitChar (n / 256 % 16))
      (Nat.digitChar (n / 16 % 16)) (Nat.digitChar (n % 16)) = some n := by
    have hdigit (m : Nat) : hexValue? (Nat.digitChar (m % 16)) = some (m % 16) :=
      hexValue?_digitChar _ (Nat.mod_lt m (by decide))
    simp only [hexValue4?, hdigit, Option.bind_eq_bind, Option.bind_some, hvalue]
  simp only [unitEscape, List.cons_append, List.nil_append, scanPieces?, hdigits,
    Option.bind_eq_bind, Option.bind_some]
  cases scanPieces? cs <;> rfl

/-- A character is read back from its letter after a backslash. -/
theorem scanPieces?_letter {e : Char} (he : escaped? e = some c) (cs : List Char) :
    scanPieces? ('\\' :: e :: cs) =
      (scanPieces? cs).map fun (pieces, rest) => (.char c :: pieces, rest) := by
  have hu : e ≠ 'u' := by
    rintro rfl
    cases he
  rw [scanPieces?, he]
  · cases scanPieces? cs <;> rfl
  · exact fun _ _ _ _ _ h => absurd h hu

/-- A character is read back from what it is written as. -/
theorem scanPieces?_escapeChar (c : Char) (cs : List Char) :
    scanPieces? (escapeChar c ++ cs) =
      (scanPieces? cs).map fun (pieces, rest) => (.char c :: pieces, rest) := by
  unfold escapeChar
  split_ifs with hquote hslash hb hf hn hr ht hcontrol
  -- The first seven characters have a letter of their own.
  iterate 7 exact scanPieces?_letter (by subst c; rfl) cs
  · have hsurrogate :
        (JsonString.isHighSurrogate c.toNat || JsonString.isLowSurrogate c.toNat) = false := by
      simp only [JsonString.isHighSurrogate, JsonString.isLowSurrogate, Bool.or_eq_false_iff,
        Bool.and_eq_false_iff, decide_eq_false_iff_not]
      omega
    have hpiece : unitPiece c.toNat = .char c := by
      rw [unitPiece, hsurrogate, if_neg Bool.false_ne_true, Char.ofNat_toNat]
    rw [scanPieces?_unitEscape (by omega), hpiece]
  · rw [List.singleton_append, scanPieces?, if_neg hcontrol]
    · exact hquote
    · exact fun _ _ _ _ _ h => absurd h hslash
    · exact fun _ _ h => absurd h hslash

theorem scanPieces?_flatMap_escapeChar (s cs : List Char) :
    scanPieces? (s.flatMap escapeChar ++ '"' :: cs) = some (s.map .char, cs) := by
  induction s with
  | nil => rw [List.flatMap_nil, List.nil_append, scanPieces?, List.map_nil]
  | cons c s ih =>
    rw [List.flatMap_cons, List.append_assoc, scanPieces?_escapeChar, ih, Option.map_some,
      List.map_cons]

theorem Scans.text (h : Scans cs ts) (s : String) :
    Scans (stringText (.ofText s) ++ cs) (.string (.ofText s) :: ts) := by
  have hpieces : (JsonString.ofText s).flatMap escapePiece = s.toList.flatMap escapeChar := by
    rw [JsonString.ofText, List.flatMap_map]
    rfl
  rw [stringText, hpieces, List.cons_append, List.append_assoc, List.singleton_append]
  refine h.token rfl ?_ (by simp; omega)
  rw [scanToken?, scanPieces?_flatMap_escapeChar, Option.map_some, JsonString.ofText]

/-! ## Numbers -/

/-- A character goes on with a number that ends before it. -/
def continuesNumber (c : Char) : Bool := c.isDigit || c = '.' || c = 'e' || c = 'E'

/-- A text does not go on with a number that ends before it. -/
def Delimited (cs : List Char) : Prop := ∀ c ∈ cs.head?, continuesNumber c = false

theorem Delimited.nil : Delimited [] := fun _ h => nomatch h

theorem Delimited.cons (hc : continuesNumber c = false) (cs : List Char) : Delimited (c :: cs) := by
  intro d hd
  obtain rfl := Option.some.inj hd
  exact hc

theorem Delimited.spaces (h : Delimited cs) {bs : List Char}
    (hbs : ∀ c ∈ bs, isSpace c = true) : Delimited (bs ++ cs) := by
  cases bs with
  | nil => exact h
  | cons b bs =>
    have hspace := hbs b List.mem_cons_self
    simp only [isSpace, Bool.or_eq_true, decide_eq_true_eq] at hspace
    rcases hspace with ((rfl | rfl) | rfl) | rfl <;> exact .cons rfl _

theorem Delimited.takeWhile_isDigit (h : Delimited cs) : cs.takeWhile Char.isDigit = [] := by
  cases cs with
  | nil => rfl
  | cons c cs =>
    have hc := h c rfl
    simp only [continuesNumber, Bool.or_eq_false_iff] at hc
    rw [List.takeWhile_cons, hc.1.1.1, if_neg Bool.false_ne_true]

theorem scanWhole?_toDigits (n : Nat) (h : Delimited cs) :
    scanWhole? (Nat.toDigits 10 n ++ cs) = some (Nat.toDigits 10 n, cs) := by
  rcases Nat.eq_zero_or_pos n with rfl | hn
  · rfl
  · obtain ⟨c, ds, hds, -, hc⟩ := toDigits_eq_cons hn
    obtain ⟨htake, hdrop⟩ := split_digits (Nat.toDigits 10 n) cs
      (fun d hd => isDigit_of_mem_toDigits hd) h.takeWhile_isDigit
    have hscan : scanWhole? (Nat.toDigits 10 n ++ cs) = scanDigits? (Nat.toDigits 10 n ++ cs) := by
      rw [hds, List.cons_append, scanWhole?]
      exact fun _ h => hc (List.cons.inj h).1
    rw [hscan, scanDigits?, htake, hdrop, hds]
    rfl

theorem scanUnsigned?_toDigits (n : Nat) (h : Delimited cs) :
    scanUnsigned? (Nat.toDigits 10 n ++ cs) = some (Nat.toDigits 10 n, cs) := by
  have hfraction : scanFraction? cs = some ([], cs) := by
    rw [scanFraction?]
    rintro ds rfl
    cases h '.' rfl
  have hpower : scanPower? cs = some ([], cs) := by
    cases cs with
    | nil => rfl
    | cons c cs =>
      have hc := h c rfl
      simp only [continuesNumber, Bool.or_eq_false_iff, decide_eq_false_iff_not] at hc
      simp [scanPower?, hc.1.2, hc.2]
  simp only [scanUnsigned?, scanWhole?_toDigits n h, hfraction, hpower, Option.bind_eq_bind,
    Option.bind_some, List.append_nil]

theorem scanToken?_of_isDigit (hc : c.isDigit = true) (cs : List Char) :
    scanToken? (c :: cs) =
      (scanUnsigned? (c :: cs)).map fun (literal, rest) => (.number literal, rest) := by
  have hne {d : Char} (hd : d.isDigit = false) : c ≠ d := by
    rintro rfl
    rw [hc] at hd
    cases hd
  rw [scanToken?, scanNumber?]
  all_goals
    intro _ h
    exact hne rfl (List.cons.inj h).1

theorem Scans.nat (h : Scans cs ts) (n : Nat) (hcs : Delimited cs) :
    Scans (Nat.toDigits 10 n ++ cs) (.number (Nat.toDigits 10 n) :: ts) := by
  have hscan := scanUnsigned?_toDigits n hcs
  rcases hds : Nat.toDigits 10 n with _ | ⟨c, ds⟩
  · exact absurd hds Nat.toDigits_ne_nil
  · have hc : c.isDigit = true := isDigit_of_mem_toDigits (hds ▸ List.mem_cons_self)
    have hspace : isSpace c = false := by
      simp only [isSpace, Bool.or_eq_false_iff, decide_eq_false_iff_not]
      refine ⟨⟨⟨?_, ?_⟩, ?_⟩, ?_⟩ <;>
        (rintro rfl; cases hc)
    rw [hds, List.cons_append] at hscan
    refine h.token hspace ?_ (by simp)
    rw [List.append_eq, scanToken?_of_isDigit hc, hscan, Option.map_some]

/-! ## Values -/

mutual

/-- The tokens of a value. -/
def tokens : Json → List Token
  | null => [.null]
  | bool b => [.bool b]
  | number literal => [.number literal]
  | string s => [.string s]
  | array [] => [.openArray, .closeArray]
  | array (item :: items) => .openArray :: (tokens item ++ itemTokens items)
  | object [] => [.openObject, .closeObject]
  | object ((name, j) :: members) =>
    .openObject :: .string name :: .colon :: (tokens j ++ memberTokens members)

/-- The tokens of an array after an item. -/
def itemTokens : List Json → List Token
  | [] => [.closeArray]
  | item :: items => .comma :: (tokens item ++ itemTokens items)

/-- The tokens of an object after a member. -/
def memberTokens : List (JsonString × Json) → List Token
  | [] => [.closeObject]
  | (name, j) :: members =>
    .comma :: .string name :: .colon :: (tokens j ++ memberTokens members)

end

/-- All numbers in a value are natural, and all strings are texts. -/
inductive Plain : Json → Prop
  | null : Plain null
  | bool (b : Bool) : Plain (bool b)
  | ofNat (n : Nat) : Plain (ofNat n)
  | ofText (s : String) : Plain (ofText s)
  | array {items : List Json} : (∀ j ∈ items, Plain j) → Plain (array items)
  | object {members : List (JsonString × Json)} :
      (∀ m ∈ members, ∃ name, m.1 = .ofText name) → (∀ m ∈ members, Plain m.2) →
      Plain (object members)

/-- Nothing but blanks stands before an item and after a colon. -/
structure Style.Blank (style : Style) : Prop where
  line : ∀ level, ∀ c ∈ style.line level, isSpace c = true
  gap : ∀ c ∈ style.gap, isSpace c = true

theorem Style.compact_blank : Style.compact.Blank where
  line _ _ h := nomatch h
  gap _ h := nomatch h

theorem Style.pretty_blank : Style.pretty.Blank where
  line level c hc := by
    rcases List.mem_cons.1 hc with rfl | hc
    · rfl
    · rw [List.eq_of_mem_replicate hc]
      rfl
  gap c hc := by
    rw [List.mem_singleton.1 hc]
    rfl

section

variable {style : Style} (hstyle : style.Blank)

include hstyle

theorem delimited_itemChars (level : Nat) (items : List Json) (cs : List Char) :
    Delimited (itemChars style level items ++ cs) := by
  cases items with
  | nil =>
    rw [itemChars, List.append_assoc]
    exact (Delimited.cons rfl cs).spaces (hstyle.line level)
  | cons item items =>
    rw [itemChars]
    exact .cons rfl _

theorem delimited_memberChars (level : Nat) (members : List (JsonString × Json))
    (cs : List Char) : Delimited (memberChars style level members ++ cs) := by
  cases members with
  | nil =>
    rw [memberChars, List.append_assoc]
    exact (Delimited.cons rfl cs).spaces (hstyle.line level)
  | cons m members =>
    rw [memberChars]
    exact .cons rfl _

/-- A member of an object up to its value. -/
theorem Scans.member (h : Scans cs ts) (level : Nat) (name : String) :
    Scans (style.line level ++ (stringText (.ofText name) ++ ':' :: (style.gap ++ cs)))
      (.string (.ofText name) :: .colon :: ts) :=
  have hvalue := (h.spaces hstyle.gap).mark ':' .colon rfl rfl
  (hvalue.text name).spaces (hstyle.line level)

-- A value is followed by whatever does not go on with it. The rest of an array or object ends with
-- a mark, so anything may follow it.
mutual

theorem scans_chars (level : Nat) : ∀ (j : Json) {cs : List Char} {ts : List Token}, j.Plain →
    Delimited cs → Scans cs ts → Scans (j.chars style level ++ cs) (j.tokens ++ ts)
  | .null, _, _, _, _, h => by
    simp only [chars, leafText, tokens]
    exact h.null
  | .bool b, _, _, _, _, h => by
    simp only [chars, leafText, tokens]
    exact h.bool b
  | .number _, _, _, .ofNat n, hcs, h => by
    simp only [chars, leafText, tokens]
    exact h.nat n hcs
  | .string _, _, _, .ofText s, _, h => by
    simp only [chars, leafText, tokens]
    exact h.text s
  | .array [], _, _, _, _, h => by
    simp only [chars, leafText, tokens]
    exact (h.mark ']' .closeArray rfl rfl).mark '[' .openArray rfl rfl
  | .array (item :: items), _, _, .array hitems, _, h => by
    have hrest := scans_itemChars level items (fun j hj => hitems j (.tail _ hj)) h
    have hitem := scans_chars (level + 1) item (hitems item (.head _))
      (delimited_itemChars hstyle level items _) hrest
    have hline := hitem.spaces (hstyle.line (level + 1))
    simp only [chars, tokens, List.cons_append, List.append_assoc]
    exact hline.mark '[' .openArray rfl rfl
  | .object [], _, _, _, _, h => by
    simp only [chars, leafText, tokens]
    exact (h.mark '\x7d' .closeObject rfl rfl).mark '\x7b' .openObject rfl rfl
  | .object ((_, j) :: members), _, _, .object hnames hmembers, _, h => by
    obtain ⟨name, rfl⟩ := hnames _ (.head _)
    have hrest := scans_memberChars level members (fun m hm => hnames m (.tail _ hm))
      (fun m hm => hmembers m (.tail _ hm)) h
    have hvalue := scans_chars (level + 1) j (hmembers _ (.head _))
      (delimited_memberChars hstyle level members _) hrest
    simp only [chars, tokens, List.cons_append, List.append_assoc]
    exact (hvalue.member hstyle (level + 1) name).mark '\x7b' .openObject rfl rfl

theorem scans_itemChars (level : Nat) : ∀ (items : List Json) {cs : List Char} {ts : List Token},
    (∀ j ∈ items, j.Plain) → Scans cs ts →
    Scans (itemChars style level items ++ cs) (itemTokens items ++ ts)
  | [], _, _, _, h => by
    simp only [itemChars, itemTokens, List.append_assoc]
    exact (h.mark ']' .closeArray rfl rfl).spaces (hstyle.line level)
  | item :: items, _, _, hitems, h => by
    have hrest := scans_itemChars level items (fun j hj => hitems j (.tail _ hj)) h
    have hitem := scans_chars (level + 1) item (hitems item (.head _))
      (delimited_itemChars hstyle level items _) hrest
    have hline := hitem.spaces (hstyle.line (level + 1))
    simp only [itemChars, itemTokens, List.cons_append, List.append_assoc]
    exact hline.mark ',' .comma rfl rfl

theorem scans_memberChars (level : Nat) :
    ∀ (members : List (JsonString × Json)) {cs : List Char} {ts : List Token},
      (∀ m ∈ members, ∃ name, m.1 = .ofText name) → (∀ m ∈ members, m.2.Plain) → Scans cs ts →
      Scans (memberChars style level members ++ cs) (memberTokens members ++ ts)
  | [], _, _, _, _, h => by
    simp only [memberChars, memberTokens, List.append_assoc]
    exact (h.mark '\x7d' .closeObject rfl rfl).spaces (hstyle.line level)
  | (_, j) :: members, _, _, hnames, hmembers, h => by
    obtain ⟨name, rfl⟩ := hnames _ (.head _)
    have hrest := scans_memberChars level members (fun m hm => hnames m (.tail _ hm))
      (fun m hm => hmembers m (.tail _ hm)) h
    have hvalue := scans_chars (level + 1) j (hmembers _ (.head _))
      (delimited_memberChars hstyle level members _) hrest
    simp only [memberChars, memberTokens, List.cons_append, List.append_assoc]
    exact (hvalue.member hstyle (level + 1) name).mark ',' .comma rfl rfl

end

end

end RecordWalk.Json
