import ChatCluster.Library.LineFraming

/-!
# Reading lines into a buffer

A stream from which lines are read into a buffer of limited size, as C++ does it: a read
that finds nothing, or no room for the whole line, puts the stream into a failed state,
and in that state nothing is read any more.
-/
namespace LineReading
open LineFraming

variable {α : Type} [DecidableEq α]

/-- The lines of a text; the last of them may lack its terminator. -/
def lines (t : α) (s : List α) : List (List α) :=
  if remainder t s = [] then pieces t s else pieces t s ++ [remainder t s]

@[simp] theorem lines_nil (t : α) : lines t [] = [] := by simp [lines, pieces, remainder]

theorem lines_of_notMem {t : α} {s : List α} (h : t ∉ s) (hne : s ≠ []) : lines t s = [s] := by
  simp [lines, pieces_of_notMem h, remainder_of_notMem h, hne]

theorem lines_append_cons {t : α} {l : List α} (h : t ∉ l) (s : List α) :
    lines t (l ++ t :: s) = l :: lines t s := by
  unfold lines
  rw [remainder_append_cons, pieces_append_cons h]
  split_ifs
  · rfl
  · rfl

/-- A text begins with a line that a terminator ends, or is one line. -/
theorem exists_line {t : α} {s : List α} (hne : s ≠ []) :
    ∃ l tail rest, s = l ++ tail ∧ t ∉ l ∧ lines t s = l :: lines t rest ∧
      (tail = t :: rest ∨ tail = [] ∧ rest = []) := by
  by_cases h : t ∈ s
  · obtain ⟨l, rest, rfl, hl⟩ := List.eq_append_cons_of_mem h
    exact ⟨l, t :: rest, rest, rfl, hl, lines_append_cons hl rest, .inl rfl⟩
  · exact ⟨s, [], [], by simp, h, by simp [lines_of_notMem h hne], .inr ⟨rfl, rfl⟩⟩

theorem ne_nil_of_lines {t : α} {s l : List α} {ls : List (List α)} (h : lines t s = l :: ls) :
    s ≠ [] := by
  intro hnil
  simp [hnil] at h

/-- A stream: what has not been read yet, and the bits of its state. -/
structure Istream (α : Type) where
  rest : List α
  eofbit : Bool
  failbit : Bool

namespace Istream

/-- Neither bit is set. -/
def Good (cin : Istream α) : Prop := cin.eofbit = false ∧ cin.failbit = false

instance (cin : Istream α) : Decidable cin.Good := inferInstanceAs (Decidable (_ ∧ _))

/-- The loop of `getline` with room for `room` more characters: what it stores, and the
stream after it. It tests the end of the input first, then the terminator, then the room. -/
def extract (t : α) : ℕ → List α → List α × Istream α
  | _, [] => ([], ⟨[], true, false⟩)
  | 0, c :: rest =>
      if c = t then ([], ⟨rest, false, false⟩) else ([], ⟨c :: rest, false, true⟩)
  | room + 1, c :: rest =>
      if c = t then ([], ⟨rest, false, false⟩)
      else (c :: (extract t room rest).1, (extract t room rest).2)

/-- `getline` with a buffer of `n` characters, the last of which is the NUL. -/
def getline (t : α) (n : ℕ) (cin : Istream α) : List α × Istream α :=
  if cin.Good then
    if cin.rest = [] then ([], ⟨[], true, true⟩) else extract t (n - 1) cin.rest
  else ([], { cin with failbit := true })

/-- No line can be read from it any more. -/
def Exhausted (cin : Istream α) : Prop := ¬ cin.Good ∨ cin.rest = []

/-- What `getline` does with a stream at which it finds nothing. -/
theorem getline_exhausted {t : α} {n : ℕ} {cin : Istream α} (h : cin.Exhausted) :
    (cin.getline t n).1 = [] ∧ (cin.getline t n).2.rest = cin.rest ∧
      (cin.getline t n).2.Exhausted := by
  unfold getline
  split_ifs with hgood hrest
  · simp [hrest, Exhausted]
  · exact absurd h (by simp [Exhausted, hgood, hrest])
  · simp [Exhausted, Good]

theorem extract_line {t : α} {room : ℕ} {l : List α} (ht : t ∉ l) (hroom : l.length ≤ room)
    (rest : List α) : extract t room (l ++ t :: rest) = (l, ⟨rest, false, false⟩) := by
  induction l generalizing room with
  | nil => cases room <;> simp [extract]
  | cons c l ih =>
      cases room with
      | zero => simp at hroom
      | succ room =>
          have hc : c ≠ t := fun h => ht (h ▸ List.mem_cons_self)
          have hl : t ∉ l := fun h => ht (List.mem_cons_of_mem c h)
          have hlen : l.length ≤ room := by simpa using hroom
          simp [extract, hc, ih hl hlen]

theorem extract_last {t : α} {room : ℕ} {l : List α} (ht : t ∉ l) (hroom : l.length ≤ room) :
    extract t room l = (l, ⟨[], true, false⟩) := by
  induction l generalizing room with
  | nil => cases room <;> simp [extract]
  | cons c l ih =>
      cases room with
      | zero => simp at hroom
      | succ room =>
          have hc : c ≠ t := fun h => ht (h ▸ List.mem_cons_self)
          have hl : t ∉ l := fun h => ht (List.mem_cons_of_mem c h)
          have hlen : l.length ≤ room := by simpa using hroom
          simp [extract, hc, ih hl hlen]

theorem extract_long {t : α} {room : ℕ} {l : List α} (ht : t ∉ l) (hroom : room < l.length)
    (tail : List α) :
    extract t room (l ++ tail) = (l.take room, ⟨l.drop room ++ tail, false, true⟩) := by
  induction l generalizing room with
  | nil => simp at hroom
  | cons c l ih =>
      have hc : c ≠ t := fun h => ht (h ▸ List.mem_cons_self)
      have hl : t ∉ l := fun h => ht (List.mem_cons_of_mem c h)
      cases room with
      | zero => simp [extract, hc]
      | succ room =>
          have hlen : room < l.length := by simpa using hroom
          simp [extract, hc, ih hl hlen]

section Line
variable {t : α} {n : ℕ} {cin : Istream α} {l : List α} {ls : List (List α)}

/-- A line that fits is read as a whole, and the next one can be read if there is one. -/
theorem getline_fits (hgood : cin.Good) (hlines : lines t cin.rest = l :: ls)
    (hfits : l.length < n) :
    (cin.getline t n).1 = l ∧ lines t (cin.getline t n).2.rest = ls ∧
      (cin.getline t n).2.rest.length < cin.rest.length ∧
      ((cin.getline t n).2.Good ∨ (cin.getline t n).2.rest = []) := by
  have hne := ne_nil_of_lines hlines
  obtain ⟨l', tail, rest, hrest, hl, hl', htail⟩ := exists_line (t := t) hne
  obtain ⟨rfl, rfl⟩ := List.cons.inj (hlines.symm.trans hl')
  have hroom : l.length ≤ n - 1 := by omega
  rw [getline, if_pos hgood, if_neg hne, hrest]
  obtain rfl | ⟨rfl, rfl⟩ := htail
  · have hlen : rest.length < (l ++ t :: rest).length := by
      rw [List.length_append, List.length_cons]
      omega
    rw [extract_line hl hroom]
    simpa [Good] using hlen
  · have hpos : 0 < l.length := by
      rw [hrest] at hne
      exact List.length_pos_iff.mpr (by simpa using hne)
    rw [List.append_nil, extract_last hl hroom]
    simp [hpos]

/-- The terminator needs no room. -/
example : (Istream.getline 0 4 ⟨[1, 2, 3, 0, 5], false, false⟩).1 = [1, 2, 3] ∧
    (Istream.getline 0 4 ⟨[1, 2, 3, 0, 5], false, false⟩).2.Good := by decide

/-- A line that does not fit is cut, and nothing can be read behind it. -/
theorem getline_cut (hgood : cin.Good) (hlines : lines t cin.rest = l :: ls)
    (hcut : n ≤ l.length) (hn : 0 < n) :
    (cin.getline t n).1.length < l.length ∧ ¬ (cin.getline t n).2.Good := by
  have hne := ne_nil_of_lines hlines
  obtain ⟨l', tail, rest, hrest, hl, hl', -⟩ := exists_line (t := t) hne
  obtain ⟨rfl, -⟩ := List.cons.inj (hlines.symm.trans hl')
  have hroom : n - 1 < l.length := by omega
  rw [getline, if_pos hgood, if_neg hne, hrest, extract_long hl hroom]
  constructor
  · rw [List.length_take]
    omega
  · simp [Good]

end Line

end Istream
end LineReading
