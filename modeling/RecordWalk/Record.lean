/-!
# Records

A record is an ordered list of named properties with an identity. It is built once, from a list of
name and value pairs, the way an object literal is evaluated: a repeated name keeps its first
position and takes its last value. Two records are the same only if one building step made both,
which is what the identity says.

A *cursor* is one pass over the names of a record. It holds the names, so it goes on when the
record is no longer reachable, and passes do not disturb each other.
-/

namespace RecordWalk

/-- Named properties in order, with an identity. -/
structure Record (α : Type) where
  id : Nat
  entries : List (String × α)

/-- One pass over a list of names. -/
structure Cursor where
  names : List String
  position : Nat
deriving DecidableEq

namespace Record

variable {α : Type}

/-- Give a property a value: in place if the name is there, else at the end. -/
def define (name : String) (value : α) : List (String × α) → List (String × α)
  | [] => [(name, value)]
  | (n, v) :: rest =>
    if n = name then (n, value) :: rest else (n, v) :: define name value rest

/-- The record of a list of pairs, defined from left to right. -/
def build (id : Nat) (pairs : List (String × α)) : Record α :=
  ⟨id, pairs.foldl (fun entries p => define p.1 p.2 entries) []⟩

/-- Defining a property adds its name at the end, unless it is there. -/
theorem names_define (name : String) (value : α) (entries : List (String × α)) :
    (define name value entries).map Prod.fst =
      if name ∈ entries.map Prod.fst then entries.map Prod.fst
      else entries.map Prod.fst ++ [name] := by
  induction entries with
  | nil => simp [define]
  | cons p rest ih =>
    obtain ⟨n, v⟩ := p
    by_cases h : n = name
    · simp [define, h]
    · have hn : name ≠ n := fun e => h e.symm
      rw [define, if_neg h, List.map_cons, ih, List.map_cons]
      by_cases hr : name ∈ rest.map Prod.fst
      · rw [if_pos hr, if_pos (List.mem_cons_of_mem _ hr)]
      · rw [if_neg hr, if_neg fun e => (List.mem_cons.1 e).elim hn hr, List.cons_append]

/-- Defining a property changes the value under its name and no other. -/
theorem lookup_define (name n : String) (value : α) (entries : List (String × α)) :
    (define name value entries).lookup n =
      if n = name then some value else entries.lookup n := by
  induction entries with
  | nil =>
    by_cases h : n = name
    · simp [define, h]
    · simp [define, List.lookup_cons, h, beq_eq_false_iff_ne.2 h]
  | cons p rest ih =>
    obtain ⟨m, v⟩ := p
    by_cases h : m = name
    · rw [define, if_pos h, List.lookup_cons, List.lookup_cons]
      by_cases hn : n = name
      · simp [h, hn]
      · simp [h, hn, beq_eq_false_iff_ne.2 hn]
    · rw [define, if_neg h, List.lookup_cons, List.lookup_cons, ih]
      by_cases hn : n = m
      · simp [hn, h]
      · simp [beq_eq_false_iff_ne.2 hn]

def names (r : Record α) : List String := r.entries.map Prod.fst

def size (r : Record α) : Nat := r.entries.length

def isEmpty (r : Record α) : Bool := r.entries.isEmpty

/-- The value of a property. -/
def get? (r : Record α) (name : String) : Option α := r.entries.lookup name

/-- Whether two records are one and the same. -/
def same (r s : Record α) : Bool := r.id == s.id

/-- A pass over the names, at its start. -/
def cursor (r : Record α) : Cursor := ⟨r.names, 0⟩

end Record

namespace Cursor

/-- The number of names still to come. -/
def remaining (c : Cursor) : Nat := c.names.length - c.position

/-- The next name, if there is one, and the cursor behind it. -/
def next (c : Cursor) : Option String × Cursor :=
  match c.names[c.position]? with
  | some name => (some name, ⟨c.names, c.position + 1⟩)
  | none => (none, c)

/-- All names still to come, and the cursor at its end. -/
def rest (c : Cursor) : List String × Cursor :=
  (c.names.drop c.position, ⟨c.names, max c.position c.names.length⟩)

@[simp] theorem next_fst (c : Cursor) : c.next.1 = c.names[c.position]? := by
  unfold next
  split <;> simp_all

@[simp] theorem names_next (c : Cursor) : c.next.2.names = c.names := by
  unfold next
  split <;> rfl

/-- A step leaves one name less to come. -/
@[simp] theorem remaining_next (c : Cursor) : c.next.2.remaining = c.remaining - 1 := by
  unfold next remaining
  split
  next h => simp only; omega
  next h =>
    have := List.getElem?_eq_none_iff.1 h
    simp only; omega

@[simp] theorem remaining_rest (c : Cursor) : c.rest.2.remaining = 0 := by
  simp only [rest, remaining]
  omega

@[simp] theorem length_rest (c : Cursor) : c.rest.1.length = c.remaining := by
  simp [rest, remaining]

end Cursor

end RecordWalk
