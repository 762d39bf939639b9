import Mathlib.Data.List.DropRight
import Mathlib.Tactic.Common

/-!
# Cutting a stream into pieces

A stream is cut at every occurrence of a terminator, and what follows the last one has
to wait for more. A scanner makes something of each piece, or drops it, and may stop at
a piece. A reader that puts what is left of one read in front of the next one finds the
same pieces however the stream is split into reads.
-/
namespace LineFraming

variable {α β : Type} [DecidableEq α]

/-- The terminated pieces of a stream, without their terminators. -/
def pieces (t : α) (s : List α) : List (List α) := (s.splitOn t).dropLast

/-- What follows the last terminator. -/
def remainder (t : α) (s : List α) : List α := s.rtakeWhile fun x => decide (x ≠ t)

/-- A stream has no terminator, or it begins with a piece. -/
theorem stream_induction {P : List α → Prop} (t : α) (rest : ∀ s, t ∉ s → P s)
    (piece : ∀ l s, t ∉ l → P s → P (l ++ t :: s)) (s : List α) : P s := by
  induction h : s.length using Nat.strong_induction_on generalizing s with
  | _ n ih =>
      by_cases ht : t ∈ s
      · obtain ⟨l, s', rfl, hl⟩ := List.eq_append_cons_of_mem ht
        apply piece l s' hl
        apply ih s'.length _ s' rfl
        simp only [List.length_append, List.length_cons] at h
        omega
      · exact rest s ht

theorem pieces_of_notMem {t : α} {s : List α} (h : t ∉ s) : pieces t s = [] := by
  simp [pieces, List.splitOn_eq_singleton h]

theorem pieces_append_cons {t : α} {l : List α} (h : t ∉ l) (s : List α) :
    pieces t (l ++ t :: s) = l :: pieces t s := by
  have hne : s.splitOn t ≠ [] := List.splitOn_ne_nil t s
  rw [pieces, List.splitOn_append_cons_self_of_not_mem h, List.dropLast_cons_of_ne_nil hne, pieces]

theorem remainder_of_notMem {t : α} {s : List α} (h : t ∉ s) : remainder t s = s := by
  apply List.rtakeWhile_eq_self_iff.mpr
  intro x hx
  have hne : x ≠ t := fun he => h (he ▸ hx)
  exact decide_eq_true hne

theorem notMem_remainder (t : α) (s : List α) : t ∉ remainder t s := by
  intro h
  have := List.mem_rtakeWhile_imp h
  simp at this

theorem remainder_append_cons (t : α) (l s : List α) :
    remainder t (l ++ t :: s) = remainder t s := by
  induction s using List.reverseRecOn with
  | nil => simp [remainder]
  | append_singleton s x ih =>
      have happend : l ++ t :: (s ++ [x]) = (l ++ t :: s) ++ [x] := by simp
      unfold remainder at ih ⊢
      rw [happend, List.rtakeWhile_concat, List.rtakeWhile_concat, ih]

theorem pieces_append (t : α) (s r : List α) :
    pieces t (s ++ r) = pieces t s ++ pieces t (remainder t s ++ r) := by
  induction s using stream_induction t with
  | rest s h => rw [pieces_of_notMem h, remainder_of_notMem h, List.nil_append]
  | piece l s h ih =>
      rw [List.append_assoc, List.cons_append, pieces_append_cons h, pieces_append_cons h,
        remainder_append_cons, ih, List.cons_append]

theorem remainder_append (t : α) (s r : List α) :
    remainder t (s ++ r) = remainder t (remainder t s ++ r) := by
  induction s using stream_induction t with
  | rest s h => rw [remainder_of_notMem h]
  | piece l s h ih =>
      rw [List.append_assoc, List.cons_append, remainder_append_cons, remainder_append_cons, ih]

/-- The pieces of a stream that was written piece by piece. -/
theorem pieces_flatMap {t : α} {ls : List (List α)} (h : ∀ l ∈ ls, t ∉ l) :
    pieces t (ls.flatMap fun l => l ++ [t]) = ls := by
  induction ls with
  | nil => simp [pieces]
  | cons l ls ih =>
      have hls : pieces t (ls.flatMap fun l => l ++ [t]) = ls :=
        ih fun m hm => h m (List.mem_cons_of_mem l hm)
      rw [List.flatMap_cons, List.append_assoc, List.singleton_append,
        pieces_append_cons (h l List.mem_cons_self), hls]

theorem remainder_flatMap (t : α) (ls : List (List α)) :
    remainder t (ls.flatMap fun l => l ++ [t]) = [] := by
  induction ls with
  | nil => simp [remainder]
  | cons l ls ih =>
      rw [List.flatMap_cons, List.append_assoc, List.singleton_append, remainder_append_cons, ih]

/-! ## A terminator of two characters -/

/-- A piece without one `r` at its end. -/
def chomp (r : α) : List α → List α
  | [] => []
  | [x] => if x = r then [] else [x]
  | x :: y :: l => x :: chomp r (y :: l)

@[simp] theorem chomp_concat_self (r : α) (l : List α) : chomp r (l ++ [r]) = l := by
  induction l with
  | nil => simp [chomp]
  | cons x l ih =>
      cases l with
      | nil => simp [chomp]
      | cons y l => rw [List.cons_append, List.cons_append, chomp, ← List.cons_append, ih]

theorem chomp_of_not_suffix {r : α} {l : List α} (h : ¬ [r] <:+ l) : chomp r l = l := by
  induction l with
  | nil => rfl
  | cons x l ih =>
      cases l with
      | nil =>
          have hx : x ≠ r := fun hx => h (hx ▸ List.suffix_rfl)
          simp [chomp, hx]
      | cons y l =>
          have hl : ¬ [r] <:+ y :: l := fun hl => h (hl.trans (List.suffix_cons x _))
          rw [chomp, ih hl]

/-- What is left of a piece: either the piece ended with `r`, or it is left as it is. -/
theorem chomp_eq_iff {r : α} {l l' : List α} :
    chomp r l = l' ↔ l = l' ++ [r] ∨ ¬ [r] <:+ l ∧ l = l' := by
  constructor
  · intro h
    by_cases hr : [r] <:+ l
    · obtain ⟨front, rfl⟩ := hr
      rw [chomp_concat_self] at h
      exact .inl (by rw [h])
    · exact .inr ⟨hr, by rw [← h, chomp_of_not_suffix hr]⟩
  · intro h
    rcases h with rfl | ⟨hr, rfl⟩
    · exact chomp_concat_self r l'
    · exact chomp_of_not_suffix hr

/-! ## Scanning -/

/-- The items through the first one that stops. -/
def through (stop : β → Bool) : List β → List β
  | [] => []
  | x :: xs => if stop x then [x] else x :: through stop xs

theorem through_eq_self {stop : β → Bool} {xs : List β} (h : xs.any stop = false) :
    through stop xs = xs := by
  induction xs with
  | nil => rfl
  | cons x xs ih =>
      simp only [List.any_cons, Bool.or_eq_false_iff] at h
      simp [through, h.1, ih h.2]

theorem through_append (stop : β → Bool) (xs ys : List β) :
    through stop (xs ++ ys) =
      if xs.any stop then through stop xs else xs ++ through stop ys := by
  induction xs with
  | nil => simp
  | cons x xs ih =>
      by_cases hx : stop x = true
      · simp [through, hx]
      · by_cases hxs : xs.any stop = true
        · simp [through, hx, hxs, ih]
        · simp [through, hx, hxs, ih]

/-- What the pieces of a stream are made into. -/
def items (t : α) (make : List α → Option β) (s : List α) : List β := (pieces t s).filterMap make

/-- The items found in a stream and what is kept of it; nothing is kept after a stop. -/
def scan (t : α) (make : List α → Option β) (stop : β → Bool) (s : List α) :
    List β × Option (List α) :=
  (through stop (items t make s),
    if (items t make s).any stop then none else some (remainder t s))

/-- Read after read, each behind what the reader kept of the one before. -/
def feed (read : List α → List β × Option (List α)) :
    List α → List (List α) → List β × Option (List α)
  | kept, [] => ([], some kept)
  | kept, r :: reads =>
      match (read (kept ++ r)).2 with
      | none => ((read (kept ++ r)).1, none)
      | some kept' =>
          ((read (kept ++ r)).1 ++ (feed read kept' reads).1, (feed read kept' reads).2)

section Scan
variable {t : α} {make : List α → Option β} {stop : β → Bool}

theorem items_append_cons {l : List α} (h : t ∉ l) (s : List α) :
    items t make (l ++ t :: s) = (make l).toList ++ items t make s := by
  rw [items, pieces_append_cons h]
  cases hl : make l <;> simp [items, hl]

theorem items_append (s r : List α) :
    items t make (s ++ r) = items t make s ++ items t make (remainder t s ++ r) := by
  rw [items, pieces_append, List.filterMap_append, items, items]

theorem scan_of_notMem {s : List α} (h : t ∉ s) : scan t make stop s = ([], some s) := by
  simp [scan, items, pieces_of_notMem h, remainder_of_notMem h, through]

theorem scan_of_dropped {l : List α} (h : t ∉ l) (hl : make l = none) (s : List α) :
    scan t make stop (l ++ t :: s) = scan t make stop s := by
  simp [scan, items_append_cons h, hl, remainder_append_cons]

theorem scan_of_stop {l : List α} {x : β} (h : t ∉ l) (hl : make l = some x)
    (hx : stop x = true) (s : List α) : scan t make stop (l ++ t :: s) = ([x], none) := by
  simp [scan, items_append_cons h, hl, through, hx]

theorem scan_of_item {l : List α} {x : β} (h : t ∉ l) (hl : make l = some x)
    (hx : stop x = false) (s : List α) :
    scan t make stop (l ++ t :: s) = (x :: (scan t make stop s).1, (scan t make stop s).2) := by
  simp [scan, items_append_cons h, hl, through, hx, remainder_append_cons]

/-- A scanner does not see how its stream is split into reads. -/
theorem feed_scan {kept : List α} (h : t ∉ kept) (reads : List (List α)) :
    feed (scan t make stop) kept reads = scan t make stop (kept ++ reads.flatten) := by
  induction reads generalizing kept with
  | nil => simp [feed, scan_of_notMem h]
  | cons r reads ih =>
      have hitems : items t make (kept ++ (r :: reads).flatten) =
          items t make (kept ++ r) ++ items t make (remainder t (kept ++ r) ++ reads.flatten) := by
        rw [List.flatten_cons, ← List.append_assoc, items_append]
      have hremainder : remainder t (kept ++ (r :: reads).flatten) =
          remainder t (remainder t (kept ++ r) ++ reads.flatten) := by
        rw [List.flatten_cons, ← List.append_assoc, remainder_append]
      by_cases hstop : (items t make (kept ++ r)).any stop = true
      · have hread : scan t make stop (kept ++ r) =
            (through stop (items t make (kept ++ r)), none) := by simp [scan, hstop]
        rw [feed, hread, scan, hitems, through_append, List.any_append]
        simp [hstop]
      · have hnone : (items t make (kept ++ r)).any stop = false := by simpa using hstop
        have hread : scan t make stop (kept ++ r) =
            (items t make (kept ++ r), some (remainder t (kept ++ r))) := by
          simp [scan, hnone, through_eq_self hnone]
        rw [feed, hread]
        dsimp only
        rw [ih (notMem_remainder t _)]
        simp only [scan]
        rw [hitems, hremainder, through_append, List.any_append, hnone]
        simp

end Scan

/-- Without stops every item is found and the remainder is kept. -/
theorem scan_never (t : α) (make : List α → Option β) (s : List α) :
    scan t make (fun _ => false) s = (items t make s, some (remainder t s)) := by
  have h : (items t make s).any (fun _ => false) = false := by simp
  simp [scan, through_eq_self h]

end LineFraming
