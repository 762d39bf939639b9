import Mathlib.Data.List.Basic
import Mathlib.Tactic.SplitIfs

/-!
# Quotes and brackets

What is left of a text when only its quotes, backslashes and brackets count: whether its end
is inside of a quotation, and how many brackets are open there. Texts that end where they
begin, whatever the beginning, can be put together; such a text never ends a quotation, or
closes a bracket, that was open before it.
-/
namespace Nesting

/-- What counts about a character. -/
inductive Mark where
  | quote | backslash | opening | closing | plain
deriving DecidableEq, Repr

/-- `"`, a backslash, `[` and `{`, `]` and `}`. -/
def mark (code : ℕ) : Mark :=
  if code = 0x22 then .quote
  else if code = 0x5C then .backslash
  else if code = 0x5B ∨ code = 0x7B then .opening
  else if code = 0x5D ∨ code = 0x7D then .closing
  else .plain

theorem mark_of_le {code : ℕ} (h : 0x80 ≤ code) : mark code = .plain := by
  unfold mark
  split_ifs <;> first | rfl | omega

/-- Where a reader is that has passed the first bracket. With no bracket open the text is at
its end, and in a quotation, or with a quotation opened or a bracket met where none can be,
it is not. -/
inductive Place where
  | outside (depth : ℕ)
  | inside (depth : ℕ)
  | escaped (depth : ℕ)
  | broken
deriving DecidableEq, Repr

namespace Place

def next : Place → Mark → Place
  | outside depth, .plain => outside depth
  | outside (depth + 1), .quote => inside (depth + 1)
  | outside (depth + 1), .opening => outside (depth + 2)
  | outside (depth + 1), .closing => outside depth
  | outside _, _ => broken
  | inside depth, .quote => outside depth
  | inside depth, .backslash => escaped depth
  | inside depth, _ => inside depth
  | escaped depth, _ => inside depth
  | broken, _ => broken

/-- In a quotation, or lost. -/
def Astray : Place → Prop
  | inside _ | broken => True
  | outside _ | escaped _ => False

/-- Not in a quotation. -/
def Outer : Place → Prop
  | outside _ | broken => True
  | inside _ | escaped _ => False

variable {p : Place} {m : Mark}

@[simp] theorem next_broken (m : Mark) : broken.next m = broken := by
  cases m <;> rfl

@[simp] theorem next_escaped (depth : ℕ) (m : Mark) : (escaped depth).next m = inside depth := by
  cases m <;> rfl

@[simp] theorem next_inside_plain (depth : ℕ) : (inside depth).next .plain = inside depth := rfl

@[simp] theorem next_outside_plain (depth : ℕ) : (outside depth).next .plain = outside depth := by
  cases depth <;> rfl

theorem Outer.next (h : p.Outer) (hm : m ≠ .quote) : (p.next m).Outer := by
  cases p with
  | outside depth =>
      cases m with
      | quote => exact absurd rfl hm
      | _ => cases depth <;> trivial
  | broken => cases m <;> trivial
  | _ => exact h.elim

/-- A quote ends what seemed to be between two quotations. -/
theorem Outer.next_quote (h : p.Outer) : (p.next .quote).Astray := by
  cases p with
  | outside depth => cases depth <;> trivial
  | broken => trivial
  | _ => exact h.elim

theorem Outer.next_backslash (h : p.Outer) : p.next .backslash = broken := by
  cases p with
  | outside depth => cases depth <;> rfl
  | broken => rfl
  | _ => exact h.elim

theorem Astray.next (h : p.Astray) (hm : m = .plain ∨ m = .opening ∨ m = .closing) :
    (p.next m).Astray := by
  cases p with
  | inside depth => rcases hm with rfl | rfl | rfl <;> trivial
  | broken => cases m <;> trivial
  | _ => exact h.elim

/-- A quote starts a quotation, or what seems to be the end of one. -/
theorem Astray.next_quote (h : p.Astray) : (p.next .quote).Outer := by
  cases p with
  | inside depth => trivial
  | broken => trivial
  | _ => exact h.elim

/-- At a plain character, reading it again makes no difference. -/
theorem next_plain_plain (p : Place) : (p.next .plain).next .plain = p.next .plain := by
  cases p <;> simp

/-! ## Texts -/

def read (p : Place) (codes : List ℕ) : Place := codes.foldl (fun p code => p.next (mark code)) p

variable {xs ys : List ℕ} {x y : ℕ}

@[simp] theorem read_nil (p : Place) : p.read [] = p := rfl

@[simp] theorem read_cons (p : Place) (x : ℕ) (xs : List ℕ) :
    p.read (x :: xs) = (p.next (mark x)).read xs := rfl

@[simp] theorem read_append (p : Place) (xs ys : List ℕ) :
    p.read (xs ++ ys) = (p.read xs).read ys := List.foldl_append

@[simp] theorem read_broken (xs : List ℕ) : broken.read xs = broken := by
  induction xs with
  | nil => rfl
  | cons x xs ih => rw [read_cons, next_broken, ih]

/-- Plain characters change nothing. -/
theorem read_outside_plain (h : ∀ x ∈ xs, mark x = .plain) (depth : ℕ) :
    (outside depth).read xs = outside depth := by
  induction xs with
  | nil => rfl
  | cons x xs ih =>
      rw [read_cons, h x (by simp), next_outside_plain]
      exact ih fun y hy => h y (by simp [hy])

theorem read_inside_plain (h : ∀ x ∈ xs, mark x = .plain) (depth : ℕ) :
    (inside depth).read xs = inside depth := by
  induction xs with
  | nil => rfl
  | cons x xs ih =>
      rw [read_cons, h x (by simp), next_inside_plain]
      exact ih fun y hy => h y (by simp [hy])

/-- Several plain characters are like one. -/
theorem read_plain (h : ∀ y ∈ x :: xs, mark y = .plain) (p : Place) :
    p.read (x :: xs) = p.next .plain := by
  rw [read_cons, h x (by simp)]
  induction xs with
  | nil => rfl
  | cons y xs ih =>
      rw [read_cons, h y (by simp), next_plain_plain]
      exact ih fun z hz => h z (by
        rcases List.mem_cons.mp hz with rfl | hz
        · simp
        · simp [hz])

end Place

open Place

/-! ## Texts that end where they begin -/

/-- Between brackets the text ends where it begins, and it ends astray where it begins so. -/
structure Neutral (xs : List ℕ) : Prop where
  level : ∀ depth, (outside (depth + 1)).read xs = outside (depth + 1)
  astray : ∀ p : Place, p.Astray → (p.read xs).Astray

/-- A part of a quotation: it does not end one, and no quote in it is bare. -/
structure Quoted (xs : List ℕ) : Prop where
  within : ∀ depth, (inside depth).read xs = inside depth
  outer : ∀ p : Place, p.Outer → (p.read xs).Outer

variable {xs ys : List ℕ} {x y : ℕ}

theorem neutral_nil : Neutral [] := ⟨fun _ => rfl, fun _ h => h⟩

theorem Neutral.append (hx : Neutral xs) (hy : Neutral ys) : Neutral (xs ++ ys) where
  level depth := by rw [read_append, hx.level, hy.level]
  astray p hp := by
    rw [read_append]
    exact hy.astray _ (hx.astray p hp)

theorem neutral_plain (h : ∀ x ∈ xs, mark x = .plain) : Neutral xs where
  level depth := read_outside_plain h _
  astray p hp := by
    cases p with
    | inside depth =>
        rw [read_inside_plain h]
        trivial
    | broken =>
        rw [read_broken]
        trivial
    | _ => exact hp.elim

theorem Neutral.cons_plain (hx : Neutral xs) (h : mark x = .plain) : Neutral (x :: xs) := by
  have hfirst : Neutral [x] := neutral_plain (by simpa using h)
  exact hfirst.append hx

/-- Brackets around such a text. -/
theorem Neutral.bracketed (hxs : Neutral xs) (hx : mark x = .opening) (hy : mark y = .closing) :
    Neutral (x :: (xs ++ [y])) where
  level depth := by
    rw [read_cons, hx, read_append]
    change (((outside (depth + 2)).read xs).read [y]) = _
    rw [hxs.level, read_cons, hy]
    rfl
  astray p hp := by
    rw [read_cons, hx, read_append, read_cons, hy]
    exact (hxs.astray _ (hp.next (by simp))).next (by simp)

theorem quoted_nil : Quoted [] := ⟨fun _ => rfl, fun _ h => h⟩

theorem Quoted.append (hx : Quoted xs) (hy : Quoted ys) : Quoted (xs ++ ys) where
  within depth := by rw [read_append, hx.within, hy.within]
  outer p hp := by
    rw [read_append]
    exact hy.outer _ (hx.outer p hp)

/-- A character that need not be escaped. -/
theorem quoted_single (hquote : mark x ≠ .quote) (hbackslash : mark x ≠ .backslash) :
    Quoted [x] where
  within depth := by
    rw [read_cons]
    cases h : mark x with
    | quote => exact absurd h hquote
    | backslash => exact absurd h hbackslash
    | _ => rfl
  outer p hp := hp.next hquote

/-- A backslash, the character that it escapes, and plain characters. -/
theorem quoted_escape (hx : mark x = .backslash) (hys : ∀ z ∈ ys, mark z = .plain) :
    Quoted (x :: y :: ys) where
  within depth := by
    rw [read_cons, read_cons, hx]
    change (((escaped depth).next (mark y)).read ys) = _
    rw [next_escaped, read_inside_plain hys]
  outer p hp := by
    rw [read_cons, hx, hp.next_backslash, read_broken]
    trivial

/-- A quotation. -/
theorem Quoted.neutral (hxs : Quoted xs) (hx : mark x = .quote) (hy : mark y = .quote) :
    Neutral (x :: (xs ++ [y])) where
  level depth := by
    rw [read_cons, hx, read_append]
    change (((inside (depth + 1)).read xs).read [y]) = _
    rw [hxs.within, read_cons, hy]
    rfl
  astray p hp := by
    rw [read_cons, hx, read_append, read_cons, hy]
    exact (hxs.outer _ hp.next_quote).next_quote

/-- Behind a first part, a neutral text in brackets never brings a reader to the end. -/
theorem read_ne_end (hxs : Neutral (x :: xs)) (hx : mark x = .opening) (p : Place) :
    p.read (x :: xs) ≠ .outside 0 := by
  intro hend
  cases p with
  | outside depth =>
      cases depth with
      | zero =>
          rw [read_cons, hx] at hend
          change broken.read xs = _ at hend
          rw [read_broken] at hend
          cases hend
      | succ depth =>
          rw [hxs.level] at hend
          cases hend
  | escaped depth =>
      -- the bracket is escaped: from here on as inside of the quotation
      have hinside : (escaped depth).read (x :: xs) = (Place.inside depth).read (x :: xs) := by
        rw [read_cons, read_cons, hx]
        rfl
      have hastray := hxs.astray (Place.inside depth) trivial
      rw [← hinside, hend] at hastray
      exact hastray
  | inside depth =>
      have hastray := hxs.astray (Place.inside depth) trivial
      rw [hend] at hastray
      exact hastray
  | broken =>
      rw [read_broken] at hend
      cases hend

end Nesting
