import Mathlib.Order.Lattice
import Mathlib.Data.List.Basic
import Mathlib.Tactic.Common

/-!
# Tables with a primary key

The rows of a table are kept in ascending key order and no key occurs twice; the
proof of this is a field of the table. Insertion refuses a key in use. An update
rewrites the rows that satisfy a condition and must not touch their keys. Reading
is filtering, so that a query ordered by the key needs no sorting step.
-/
namespace KeyedTable

structure Table {κ ρ : Type} [LinearOrder κ] (key : ρ → κ) where
  rows : List ρ
  sorted : rows.Pairwise fun a b => key a < key b

namespace Table
variable {κ ρ : Type} [LinearOrder κ] {key : ρ → κ}

def empty : Table key := ⟨[], .nil⟩

/-- A table is determined by its rows. -/
theorem eq_of_rows {t t' : Table key} (h : t.rows = t'.rows) : t = t' := by
  cases t
  cases t'
  cases h
  rfl

def find? (t : Table key) (k : κ) : Option ρ := t.rows.find? fun r => decide (key r = k)

/-- Place a row before the first row with a greater key. -/
def place (key : ρ → κ) (r : ρ) : List ρ → List ρ
  | [] => [r]
  | x :: xs => if key r < key x then r :: x :: xs else x :: place key r xs

theorem mem_place {r x : ρ} {xs : List ρ} : x ∈ place key r xs ↔ x = r ∨ x ∈ xs := by
  induction xs with
  | nil => simp [place]
  | cons y ys ih =>
      unfold place
      split_ifs
      · simp
      · simp only [List.mem_cons, ih]
        tauto

theorem place_sorted {r : ρ} {xs : List ρ} (h : xs.Pairwise fun a b => key a < key b)
    (hr : ∀ x ∈ xs, key x ≠ key r) : (place key r xs).Pairwise fun a b => key a < key b := by
  induction xs with
  | nil => exact List.pairwise_singleton _ _
  | cons y ys ih =>
      rw [List.pairwise_cons] at h
      unfold place
      split_ifs with hlt
      · refine List.pairwise_cons.mpr ⟨fun z hz => ?_, List.pairwise_cons.mpr h⟩
        rcases List.mem_cons.mp hz with rfl | hz
        · exact hlt
        · exact lt_trans hlt (h.1 z hz)
      · have hy : key y < key r :=
          lt_of_le_of_ne (not_lt.mp hlt) (hr y List.mem_cons_self)
        refine List.pairwise_cons.mpr
          ⟨fun z hz => ?_, ih h.2 fun x hx => hr x (List.mem_cons_of_mem _ hx)⟩
        rcases mem_place.mp hz with rfl | hz
        · exact hy
        · exact h.1 z hz

/-- A duplicate key is refused. -/
def insert (t : Table key) (r : ρ) : Option (Table key) :=
  if h : ∀ x ∈ t.rows, key x ≠ key r then some ⟨place key r t.rows, place_sorted t.sorted h⟩
  else none

/-- Rewrite the rows satisfying `p`; the rewriting keeps the key. -/
def update (t : Table key) (p : ρ → Bool) (f : ρ → ρ) (hf : ∀ r, key (f r) = key r) :
    Table key where
  rows := t.rows.map fun r => if p r then f r else r
  sorted := by
    refine List.pairwise_map.mpr (t.sorted.imp fun h => ?_)
    have hk : ∀ r, key (if p r then f r else r) = key r := fun r => by
      split_ifs
      · exact hf r
      · rfl
    rwa [hk, hk]

/-- The rows satisfying `p`, in key order. -/
def select (t : Table key) (p : ρ → Bool) : List ρ := t.rows.filter p

theorem key_injOn (t : Table key) {a b : ρ} (ha : a ∈ t.rows) (hb : b ∈ t.rows)
    (h : key a = key b) : a = b := by
  refine List.Pairwise.forall_of_forall_of_flip (R := fun a b => key a = key b → a = b)
    (fun _ _ _ => rfl) ?_ ?_ ha hb h
  · exact t.sorted.imp fun hlt he => absurd he (ne_of_lt hlt)
  · exact t.sorted.imp fun hlt he => absurd he.symm (ne_of_lt hlt)

theorem nodup (t : Table key) : t.rows.Nodup :=
  t.sorted.imp fun h he => absurd (congrArg key he) (ne_of_lt h)

theorem find?_eq_some {t : Table key} {k : κ} {r : ρ} :
    t.find? k = some r ↔ r ∈ t.rows ∧ key r = k := by
  constructor
  · intro h
    exact ⟨List.mem_of_find?_eq_some h, by simpa using List.find?_some h⟩
  · intro h
    rcases h with ⟨hr, rfl⟩
    cases hf : t.find? (key r) with
    | none =>
        have := List.find?_eq_none.mp hf r hr
        simp at this
    | some x =>
        have hx : key x = key r := by simpa using List.find?_some hf
        rw [t.key_injOn (List.mem_of_find?_eq_some hf) hr hx]

theorem find?_eq_none {t : Table key} {k : κ} :
    t.find? k = none ↔ ∀ r ∈ t.rows, key r ≠ k := by
  simp [find?, List.find?_eq_none]

theorem mem_insert {t t' : Table key} {r x : ρ} (h : t.insert r = some t') :
    x ∈ t'.rows ↔ x = r ∨ x ∈ t.rows := by
  unfold insert at h
  split_ifs at h with hr
  obtain rfl := Option.some.inj h
  exact mem_place

/-- An insertion that succeeded found its key unused. -/
theorem fresh_of_insert {t t' : Table key} {r : ρ} (h : t.insert r = some t') :
    ∀ x ∈ t.rows, key x ≠ key r := by
  unfold insert at h
  split_ifs at h with hr
  exact hr

theorem insert_of_find?_some {t : Table key} {r x : ρ} (h : t.find? (key r) = some x) :
    t.insert r = none := by
  obtain ⟨hx, hkey⟩ := find?_eq_some.mp h
  exact dif_neg fun hfresh => hfresh x hx hkey

theorem exists_insert_of_find?_none {t : Table key} {r : ρ} (h : t.find? (key r) = none) :
    ∃ t', t.insert r = some t' :=
  ⟨_, dif_pos (find?_eq_none.mp h)⟩

theorem mem_update {t : Table key} {p : ρ → Bool} {f : ρ → ρ} {hf : ∀ r, key (f r) = key r}
    {x : ρ} : x ∈ (t.update p f hf).rows ↔ ∃ r ∈ t.rows, (if p r then f r else r) = x := by
  simp [update]

theorem find?_update {t : Table key} {p : ρ → Bool} {f : ρ → ρ}
    {hf : ∀ r, key (f r) = key r} {k : κ} :
    (t.update p f hf).find? k = (t.find? k).map fun r => if p r then f r else r := by
  cases h : t.find? k with
  | none =>
      rw [find?_eq_none] at h
      rw [Option.map_none, find?_eq_none]
      intro x hx
      obtain ⟨r, hr, rfl⟩ := mem_update.mp hx
      split_ifs
      · rw [hf]; exact h r hr
      · exact h r hr
  | some r =>
      rw [find?_eq_some] at h
      rw [Option.map_some, find?_eq_some]
      refine ⟨mem_update.mpr ⟨r, h.1, rfl⟩, ?_⟩
      split_ifs
      · rw [hf]; exact h.2
      · exact h.2

theorem find?_insert {t t' : Table key} {r : ρ} (h : t.insert r = some t') (k : κ) :
    t'.find? k = if key r = k then some r else t.find? k := by
  split_ifs with hk
  · exact find?_eq_some.mpr ⟨(mem_insert h).mpr (.inl rfl), hk⟩
  · ext x
    rw [find?_eq_some, find?_eq_some, mem_insert h]
    constructor
    · intro h
      rcases h with ⟨rfl | hx, hxk⟩
      · exact absurd hxk hk
      · exact ⟨hx, hxk⟩
    · exact fun hx => ⟨.inr hx.1, hx.2⟩

@[simp] theorem mem_select {t : Table key} {p : ρ → Bool} {r : ρ} :
    r ∈ t.select p ↔ r ∈ t.rows ∧ p r = true := List.mem_filter

theorem select_sorted (t : Table key) (p : ρ → Bool) :
    (t.select p).Pairwise fun a b => key a < key b := t.sorted.filter p

/-! ## Tables that have kept their rows -/

section Extends
variable {R : ρ → ρ → Prop} {t t₁ t₂ t₃ : Table key}

/-- Each row of `t` still has a row in `t'`, to which it is related by `R`. -/
def Extends (R : ρ → ρ → Prop) (t t' : Table key) : Prop := ∀ r ∈ t.rows, ∃ r' ∈ t'.rows, R r r'

theorem Extends.refl (hR : ∀ r, R r r) (t : Table key) : t.Extends R t :=
  fun r hr => ⟨r, hr, hR r⟩

theorem Extends.trans (h : t₁.Extends R t₂) (hR : ∀ {r₁ r₂ r₃}, R r₁ r₂ → R r₂ r₃ → R r₁ r₃)
    (h' : t₂.Extends R t₃) : t₁.Extends R t₃ := by
  intro r₁ hr₁
  obtain ⟨r₂, hr₂, h₁₂⟩ := h r₁ hr₁
  obtain ⟨r₃, hr₃, h₂₃⟩ := h' r₂ hr₂
  exact ⟨r₃, hr₃, hR h₁₂ h₂₃⟩

theorem Extends.insert (hR : ∀ r, R r r) {r : ρ} {t' : Table key} (h : t.insert r = some t') :
    t.Extends R t' :=
  fun x hx => ⟨x, (mem_insert h).mpr (.inr hx), hR x⟩

/-- An insertion that leaves the table as it is when the key is in use. -/
theorem Extends.insertIgnore (hR : ∀ r, R r r) {r : ρ} :
    t.Extends R ((t.insert r).getD t) := by
  cases h : t.insert r with
  | none => exact .refl hR t
  | some t' => exact .insert hR h

theorem Extends.update (hR : ∀ r, R r r) {p : ρ → Bool} {f : ρ → ρ}
    (hRf : ∀ r, R r (f r)) (hf : ∀ r, key (f r) = key r) : t.Extends R (t.update p f hf) := by
  intro r hr
  refine ⟨_, mem_update.mpr ⟨r, hr, rfl⟩, ?_⟩
  split_ifs
  · exact hRf r
  · exact hR r

end Extends

end Table
end KeyedTable
