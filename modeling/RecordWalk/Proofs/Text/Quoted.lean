import RecordWalk.Proofs.Digits
import RecordWalk.Text.Quoted

/-!
# Quoted texts end by themselves

A text that is written among others has to be told from what follows it. Some texts end at a mark
that they do not contain. A quoted text ends at its closing quote although quotes may stand in it:
each of these has a backslash in front, and what follows a backslash is read as part of an escape.

**Theorem (`eq_of_quoteChars_append`).** If two quoted texts are followed by something and the whole
is the same, then the texts are the same, and so is what follows them.
-/

namespace RecordWalk

/-! ## Marks -/

/-- The first mark ends a text that has none in it. -/
theorem append_mark_inj {mark : Char} {l m r s : List Char} (hl : mark ∉ l) (hm : mark ∉ m)
    (h : l ++ mark :: r = m ++ mark :: s) : l = m ∧ r = s := by
  induction l generalizing m with
  | nil =>
    cases m with
    | nil => exact ⟨rfl, (List.cons.inj h).2⟩
    | cons c m => exact absurd ((List.cons.inj h).1 ▸ List.mem_cons_self) hm
  | cons c l ih =>
    cases m with
    | nil => exact absurd ((List.cons.inj h).1 ▸ List.mem_cons_self) hl
    | cons d m =>
      obtain ⟨rfl, htail⟩ := List.cons.inj h
      obtain ⟨rfl, hrest⟩ := ih (fun e => hl (.tail c e)) (fun e => hm (.tail c e)) htail
      exact ⟨rfl, hrest⟩

/-! ## Escapes -/

theorem eq_of_escapeCodePoint_append {c d : Char} {r s : List Char}
    (h : escapeCodePoint c ++ r = escapeCodePoint d ++ s) : c = d ∧ r = s := by
  have hmark (e : Char) : '\x7d' ∉ Nat.toDigits 16 e.toNat := by
    intro hmem
    obtain ⟨digit, hlt, hbrace⟩ := exists_digit_of_mem_toDigits (by decide) hmem
    have hall : ∀ digit < 16, Nat.digitChar digit ≠ '\x7d' := by decide
    exact hall digit hlt hbrace.symm
  simp only [escapeCodePoint, List.cons_append, List.append_assoc, List.nil_append,
    List.cons.injEq, true_and] at h
  obtain ⟨hdigits, hrest⟩ := append_mark_inj (hmark c) (hmark d) h
  exact ⟨Char.toNat_inj.1 (toDigits_injective (by decide) (by decide) hdigits), hrest⟩

/-- The characters that are escaped by a letter. -/
def letterEscapes : List (Char × Char) :=
  [('"', '"'), ('\\', '\\'), ('\n', 'n'), ('\r', 'r'), ('\t', 't'), ('\x00', '0')]

/-- A character is escaped by a letter or by its code point, or stands for itself. -/
theorem escapeChar_cases (c : Char) :
    (∃ letter, (c, letter) ∈ letterEscapes ∧ escapeChar c = ['\\', letter]) ∨
      escapeChar c = escapeCodePoint c ∨ c ≠ '"' ∧ c ≠ '\\' ∧ escapeChar c = [c] := by
  unfold escapeChar
  split_ifs with hquote hslash hline hreturn htab hnull hmark
  · exact .inl ⟨'"', by simp [letterEscapes, hquote], rfl⟩
  · exact .inl ⟨'\\', by simp [letterEscapes, hslash], rfl⟩
  · exact .inl ⟨'n', by simp [letterEscapes, hline], rfl⟩
  · exact .inl ⟨'r', by simp [letterEscapes, hreturn], rfl⟩
  · exact .inl ⟨'t', by simp [letterEscapes, htab], rfl⟩
  · exact .inl ⟨'0', by simp [letterEscapes, hnull], rfl⟩
  · exact .inr (.inl rfl)
  · exact .inr (.inr ⟨hquote, hslash, rfl⟩)

theorem letterEscapes_ne_u {c letter : Char} (h : (c, letter) ∈ letterEscapes) : letter ≠ 'u' := by
  rintro rfl
  simp [letterEscapes] at h

theorem letterEscapes_inj {c d letter : Char} (hc : (c, letter) ∈ letterEscapes)
    (hd : (d, letter) ∈ letterEscapes) : c = d := by
  simp only [letterEscapes, List.mem_cons, Prod.mk.injEq, List.not_mem_nil, or_false] at hc hd
  rcases hc with ⟨rfl, rfl⟩ | ⟨rfl, rfl⟩ | ⟨rfl, rfl⟩ | ⟨rfl, rfl⟩ | ⟨rfl, rfl⟩ | ⟨rfl, rfl⟩ <;>
    simp_all

/-- No escape is the beginning of another one. -/
theorem eq_of_escapeChar_append {c d : Char} {r s : List Char}
    (h : escapeChar c ++ r = escapeChar d ++ s) : c = d ∧ r = s := by
  -- The first character tells the characters that stand for themselves, the second one the letters.
  rcases escapeChar_cases c with ⟨k, hk, hc⟩ | hc | ⟨-, hslash, hc⟩ <;>
    rcases escapeChar_cases d with ⟨l, hl, hd⟩ | hd | ⟨-, hslash', hd⟩ <;>
    rw [hc, hd] at h <;>
    obtain ⟨hfirst, htail⟩ := List.cons.inj h
  · obtain ⟨rfl, hrest⟩ := List.cons.inj htail
    exact ⟨letterEscapes_inj hk hl, hrest⟩
  · exact absurd (List.cons.inj htail).1 (letterEscapes_ne_u hk)
  · exact absurd hfirst.symm hslash'
  · exact absurd (List.cons.inj htail).1.symm (letterEscapes_ne_u hl)
  · exact eq_of_escapeCodePoint_append h
  · exact absurd hfirst.symm hslash'
  · exact absurd hfirst hslash
  · exact absurd hfirst hslash
  · exact ⟨hfirst, htail⟩

/-- No escape begins with a quote. -/
theorem escapeChar_append_ne_quote (c : Char) (r s : List Char) :
    escapeChar c ++ r ≠ '"' :: s := by
  intro h
  rcases escapeChar_cases c with ⟨k, -, hc⟩ | hc | ⟨hquote, -, hc⟩ <;> rw [hc] at h
  · simp at h
  · simp [escapeCodePoint] at h
  · exact hquote (List.cons.inj h).1

/-- **A quoted text ends by itself:** it is told from what follows it. -/
theorem eq_of_quoteChars_append {cs ds r s : List Char}
    (h : quoteChars cs ++ r = quoteChars ds ++ s) : cs = ds ∧ r = s := by
  simp only [quoteChars, List.cons_append, List.append_assoc, List.nil_append, List.cons.injEq,
    true_and] at h
  induction cs generalizing ds with
  | nil =>
    cases ds with
    | nil => exact ⟨rfl, (List.cons.inj h).2⟩
    | cons d ds =>
      rw [List.flatMap_cons, List.append_assoc] at h
      exact absurd h.symm (escapeChar_append_ne_quote d _ r)
  | cons c cs ih =>
    rw [List.flatMap_cons, List.append_assoc] at h
    cases ds with
    | nil => exact absurd h (escapeChar_append_ne_quote c _ s)
    | cons d ds =>
      rw [List.flatMap_cons, List.append_assoc] at h
      obtain ⟨rfl, htail⟩ := eq_of_escapeChar_append h
      obtain ⟨rfl, hrest⟩ := ih htail
      exact ⟨rfl, hrest⟩

end RecordWalk
