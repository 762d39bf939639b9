import ChatCluster.JsonParse
import Mathlib.Data.String.Basic

/-!
# Reading back what was dumped

The text that `dump` writes for a value is read back as that value: every value that the
parser can return, and every object that the program makes from such values, comes back as
it was. For a double this is what the serializer and `strtod` promise each other.
-/
namespace ChatCluster

/-- The keys of an object are in order, and `strtod` reads the text of a double back. -/
inductive Json.Normal [Strtod] : Json → Prop
  | null : Json.null.Normal
  | boolean (b : Bool) : (Json.boolean b).Normal
  | integer (v : JsonInt) : (Json.integer v).Normal
  | float {x : JsonFloat} : Strtod.strtod (Json.dumpFloat x) = some x → (Json.float x).Normal
  | string (s : String) : (Json.string s).Normal
  | array {xs : List Json} : (∀ x ∈ xs, x.Normal) → (Json.array xs).Normal
  | object {fields : List (String × Json)} : (fields.Pairwise fun f g => f.1 < g.1) →
      (∀ f ∈ fields, f.2.Normal) → (Json.object fields).Normal

namespace Lexer
open Json

/-! ## Strings -/

theorem hexValue?_hexDigit (n : ℕ) : hexValue? (hexDigit n) = some (n % 16) := by
  have h : ∀ m < 16, hexValue? (Nat.digitChar m) = some m := by decide
  exact h _ (Nat.mod_lt _ (by decide))

theorem getCodepoint_hexDigit {n : ℕ} (h : n < 256) :
    getCodepoint '0' '0' (hexDigit (n / 16)) (hexDigit n) = some n := by
  have hzero : hexValue? '0' = some 0 := by decide
  simp only [getCodepoint, hzero, hexValue?_hexDigit, Option.bind_eq_bind, Option.bind_some,
    Option.pure_def, Option.some.injEq]
  omega

theorem scanString_plain {current : Char} (tokenBuffer rest : List Char) (hquote : current ≠ '"')
    (hbackslash : current ≠ '\\') (hcontrol : ¬ current.toNat ≤ 0x1F) :
    scanString tokenBuffer (current :: rest) = scanString (tokenBuffer ++ [current]) rest := by
  rw [scanString.eq_def]
  simp only [if_neg hquote, if_neg hbackslash, if_neg hcontrol]

theorem scanString_escape {escape c : Char} (tokenBuffer rest : List Char)
    (h : escaped? escape = some c) :
    scanString tokenBuffer ('\\' :: escape :: rest) = scanString (tokenBuffer ++ [c]) rest := by
  have hu : escape ≠ 'u' := by
    rintro rfl
    have hnone : escaped? 'u' = none := by decide
    rw [hnone] at h
    cases h
  rw [scanString.eq_def]
  simp only [if_neg (show ('\\' : Char) ≠ '"' by decide), if_pos]
  split
  · next heq => exact absurd (List.cons.inj heq).1 hu
  · next heq =>
      obtain ⟨rfl, rfl⟩ := List.cons.inj heq
      simp [h]
  · next heq => cases heq

theorem scanString_codepoint {c₁ c₂ c₃ c₄ : Char} {codepoint : ℕ} (tokenBuffer rest : List Char)
    (h : getCodepoint c₁ c₂ c₃ c₄ = some codepoint) (hhigh : ¬ IsHighSurrogate codepoint)
    (hlow : ¬ IsLowSurrogate codepoint) :
    scanString tokenBuffer ('\\' :: 'u' :: c₁ :: c₂ :: c₃ :: c₄ :: rest) =
      scanString (tokenBuffer ++ [Char.ofNat codepoint]) rest := by
  rw [scanString.eq_def]
  simp [h, hhigh, hlow]

theorem eq_ofNat_of_toNat {c : Char} {n : ℕ} (h : c.toNat = n) : c = Char.ofNat n := by
  rw [← h, Char.ofNat_toNat]

/-- Escaping is undone, one character at a time. -/
theorem scanString_escapeChar (tokenBuffer rest : List Char) (c : Char) :
    scanString tokenBuffer (escapeChar c ++ rest) = scanString (tokenBuffer ++ [c]) rest := by
  unfold escapeChar
  split_ifs with h₁ h₂ h₃ h₄ h₅ h₆ h₇ h₈
  · exact scanString_escape _ _ (by rw [eq_ofNat_of_toNat h₁]; decide)
  · exact scanString_escape _ _ (by rw [eq_ofNat_of_toNat h₂]; decide)
  · exact scanString_escape _ _ (by rw [eq_ofNat_of_toNat h₃]; decide)
  · exact scanString_escape _ _ (by rw [eq_ofNat_of_toNat h₄]; decide)
  · exact scanString_escape _ _ (by rw [eq_ofNat_of_toNat h₅]; decide)
  · exact scanString_escape _ _ (by rw [eq_ofNat_of_toNat h₆]; decide)
  · exact scanString_escape _ _ (by rw [eq_ofNat_of_toNat h₇]; decide)
  · have hcodepoint := getCodepoint_hexDigit (n := c.toNat) (by omega)
    have hscan := scanString_codepoint tokenBuffer rest hcodepoint
      (by unfold IsHighSurrogate; omega) (by unfold IsLowSurrogate; omega)
    rw [Char.ofNat_toNat] at hscan
    exact hscan
  · refine scanString_plain _ _ ?_ ?_ h₈
    · rintro rfl
      exact h₆ rfl
    · rintro rfl
      exact h₇ rfl

theorem scanString_dumped (tokenBuffer cs rest : List Char) :
    scanString tokenBuffer (cs.flatMap escapeChar ++ '"' :: rest) =
      some (tokenBuffer ++ cs, rest) := by
  induction cs generalizing tokenBuffer with
  | nil =>
      rw [scanString.eq_def]
      simp
  | cons c cs ih =>
      rw [List.flatMap_cons, List.append_assoc, scanString_escapeChar, ih]
      simp

/-! ## Numbers -/

/-- What follows a value in a dumped text. -/
def Boundary (rest : List Char) : Prop :=
  ∀ c ∈ rest.head?, c = ',' ∨ c = ']' ∨ c = '\x7d'

theorem digit_cases {P : Char → Prop} (h : ∀ d < 10, P (Nat.digitChar d)) {c : Char}
    (hc : c.isDigit = true) : P c := by
  simp only [Char.isDigit, Bool.and_eq_true, decide_eq_true_eq] at hc
  have hlow : 48 ≤ c.toNat := hc.1
  have hhigh : c.toNat ≤ 57 := hc.2
  have hchar : ∀ d < 10, Nat.digitChar d = Char.ofNat (d + 48) := by decide
  have hd := h (c.toNat - 48) (by omega)
  rwa [hchar _ (by omega), Nat.sub_add_cancel hlow, Char.ofNat_toNat] at hd

namespace NumberState

/-- The labels that these characters lead through. -/
def path : NumberState → NumberType → List Char → Option (NumberState × NumberType)
  | state, numberType, [] => some (state, numberType)
  | state, numberType, current :: rest =>
      match state.next current with
      | some state' => path state' (state'.typeAt numberType) rest
      | none => none

theorem path_append {state state' : NumberState} {numberType numberType' : NumberType}
    {cs : List Char} (h : state.path numberType cs = some (state', numberType')) (ds : List Char) :
    state.path numberType (cs ++ ds) = state'.path numberType' ds := by
  induction cs generalizing state numberType with
  | nil =>
      simp only [path, Option.some.injEq, Prod.mk.injEq] at h
      rw [h.1, h.2, List.nil_append]
  | cons c cs ih =>
      simp only [path, List.cons_append] at h ⊢
      split at h
      · next hnext => exact ih h
      · simp at h

/-- Digits that lead back to where they were read. -/
theorem path_digits {state : NumberState} {numberType : NumberType}
    (hnext : ∀ c : Char, c.isDigit = true → state.next c = some state)
    (htype : state.typeAt numberType = numberType) {ds : List Char}
    (hds : ∀ c ∈ ds, c.isDigit = true) :
    state.path numberType ds = some (state, numberType) := by
  induction ds with
  | nil => rfl
  | cons c ds ih =>
      simp only [path, hnext c (hds c (by simp)), htype]
      exact ih fun d hd => hds d (by simp [hd])

theorem path_any1 {numberType : NumberType} {ds : List Char} (hds : ∀ c ∈ ds, c.isDigit = true) :
    any1.path numberType ds = some (any1, numberType) :=
  path_digits (fun c hc => by simp [next, hc]) rfl hds

theorem path_decimal2 {numberType : NumberType} {ds : List Char}
    (hds : ∀ c ∈ ds, c.isDigit = true) :
    decimal2.path numberType ds = some (decimal2, numberType) :=
  path_digits (fun c hc => by simp [next, hc]) rfl hds

theorem path_any2 {numberType : NumberType} {ds : List Char} (hds : ∀ c ∈ ds, c.isDigit = true) :
    any2.path numberType ds = some (any2, numberType) :=
  path_digits (fun c hc => by simp [next, hc]) rfl hds

/-- A fraction. -/
theorem path_fraction {state : NumberState} (hstate : state = zero ∨ state = any1)
    {numberType : NumberType} {ds : List Char} (hne : ds ≠ []) (hds : ∀ c ∈ ds, c.isDigit = true) :
    state.path numberType ('.' :: ds) = some (decimal2, .float) := by
  have hdot : state.next '.' = some decimal1 := by
    rcases hstate with rfl | rfl <;> decide
  cases ds with
  | nil => exact absurd rfl hne
  | cons d ds =>
      have hd : decimal1.next d = some decimal2 := by simp [next, hds d (by simp)]
      simp only [path, hdot, hd, typeAt]
      exact path_decimal2 fun c hc => hds c (by simp [hc])

/-- An exponent. -/
theorem path_exponent {state : NumberState} (hstate : state = any1 ∨ state = decimal2)
    {numberType : NumberType} (e : ℤ) :
    state.path numberType ('e' :: dumpExponent e) = some (any2, .float) := by
  have he : state.next 'e' = some exponent := by
    rcases hstate with rfl | rfl <;> decide
  have hsign : ∀ c ds, c = '+' ∨ c = '-' → ds ≠ [] → (∀ d ∈ ds, d.isDigit = true) →
      exponent.path .float (c :: ds) = some (any2, .float) := by
    intro c ds hc hne hds
    have hnext : exponent.next c = some sign := by simp [next, hc]
    cases ds with
    | nil => exact absurd rfl hne
    | cons d ds =>
        have hd : sign.next d = some any2 := by simp [next, hds d (by simp)]
        simp only [path, hnext, hd, typeAt]
        exact path_any2 fun c hc => hds c (by simp [hc])
  have hdigits : ∀ d ∈ (if e.natAbs < 10 then ['0'] else []) ++ Nat.toDigits 10 e.natAbs,
      d.isDigit = true := by
    intro d hd
    rcases List.mem_append.mp hd with hd | hd
    · split_ifs at hd <;> simp_all
    · exact Nat.isDigit_of_mem_toDigits (by decide) (by decide) hd
  rw [path, he]
  unfold dumpExponent
  rw [List.append_assoc]
  split_ifs at hdigits ⊢ <;> exact hsign _ _ (by simp) (by simp) hdigits

end NumberState

open NumberState

theorem scanNumberFrom_path {state state' : NumberState} {numberType numberType' : NumberType}
    {cs : List Char} (h : state.path numberType cs = some (state', numberType'))
    (tokenBuffer rest : List Char) :
    scanNumberFrom state numberType tokenBuffer (cs ++ rest) =
      scanNumberFrom state' numberType' (tokenBuffer ++ cs) rest := by
  induction cs generalizing state numberType tokenBuffer with
  | nil =>
      simp only [path, Option.some.injEq, Prod.mk.injEq] at h
      simp [h.1, h.2]
  | cons c cs ih =>
      simp only [path] at h
      split at h
      · next hnext =>
          rw [List.cons_append, scanNumberFrom, hnext]
          simp only [ih h, List.append_assoc, List.singleton_append]
      · simp at h

theorem next_boundary {c : Char} (h : c = ',' ∨ c = ']' ∨ c = '\x7d') (state : NumberState) :
    state.next c = none := by
  rcases h with rfl | rfl | rfl <;> cases state <;> decide

theorem scanNumberFrom_stop {state : NumberState} (hstate : state.accepts = true)
    (numberType : NumberType) (tokenBuffer : List Char) {rest : List Char} (hrest : Boundary rest) :
    scanNumberFrom state numberType tokenBuffer rest = some (numberType, tokenBuffer, rest) := by
  cases rest with
  | nil => simp [scanNumberFrom, hstate]
  | cons c rest => simp [scanNumberFrom, next_boundary (hrest c (by simp)), hstate]

def signChars (negative : Bool) : List Char := if negative then ['-'] else []

def signType (negative : Bool) : NumberType := if negative then .integer else .unsigned

section
variable [Strtod]

theorem scanOther_number {c : Char} (rest : List Char)
    (h : (c = '-' ∨ c.isDigit = true) ∧ c ∉ ['t', 'f', 'n', '"']) :
    scanOther c rest = scanNumber c rest := by
  obtain ⟨hc, hne⟩ := h
  simp only [List.mem_cons, not_or] at hne
  unfold scanOther
  rw [if_neg hne.1, if_neg hne.2.1, if_neg hne.2.2.1, if_neg hne.2.2.2.1, if_pos hc]

theorem scan_cons {c : Char} (rest : List Char) (hspace : isWhitespace c = false)
    (hstructural : structural? c = none) : scan (c :: rest) = scanOther c rest := by
  rw [scan, List.dropWhile_cons_of_neg (by simp [hspace]), scanToken, hstructural]

theorem scan_numberChar {c : Char} (rest : List Char) (hc : c = '-' ∨ c.isDigit = true) :
    scan (c :: rest) = scanNumber c rest := by
  have hdigit : ∀ d < 10, isWhitespace (Nat.digitChar d) = false ∧
      structural? (Nat.digitChar d) = none ∧ Nat.digitChar d ∉ ['t', 'f', 'n', '"'] := by decide
  have hchar : isWhitespace c = false ∧ structural? c = none ∧ c ∉ ['t', 'f', 'n', '"'] := by
    rcases hc with rfl | hc
    · decide
    · exact digit_cases (P := fun c => isWhitespace c = false ∧ structural? c = none ∧
        c ∉ ['t', 'f', 'n', '"']) hdigit hc
  rw [scan_cons rest hchar.1 hchar.2.1, scanOther_number rest ⟨hc, hchar.2.2⟩]

/-- A number in front of a boundary is read as a whole. -/
theorem scan_number (negative : Bool) {c : Char} {ds rest : List Char} {state : NumberState}
    {numberType : NumberType} (hc : c.isDigit = true)
    (hpath : (init c).path (signType negative) ds = some (state, numberType))
    (hstate : state.accepts = true) (hrest : Boundary rest) :
    scan (signChars negative ++ c :: ds ++ rest) =
      (numberToken (signChars negative ++ c :: ds) numberType, rest) := by
  have hdigit : ∀ d < 10, init (Nat.digitChar d) ≠ minus ∧
      next (Nat.digitChar d) minus = some (init (Nat.digitChar d)) ∧
      (init (Nat.digitChar d)).typeAt .integer = .integer ∧
      (init (Nat.digitChar d)).typeAt .unsigned = .unsigned := by decide
  obtain ⟨hinit, hnext, hinteger, hunsigned⟩ := digit_cases (P := fun c => init c ≠ minus ∧
    next c minus = some (init c) ∧ (init c).typeAt .integer = .integer ∧
    (init c).typeAt .unsigned = .unsigned) hdigit hc
  cases negative with
  | false =>
      have hscan := scanNumberFrom_path hpath [c] rest
      rw [scanNumberFrom_stop hstate numberType _ hrest] at hscan
      simp only [signChars, signType, Bool.false_eq_true, if_false, List.nil_append,
        List.cons_append] at hscan ⊢
      rw [scan_numberChar _ (.inr hc), scanNumber]
      simp only [hunsigned, hscan]
  | true =>
      have hfirst : minus.path .integer (c :: ds) = some (state, numberType) := by
        simp only [path, hnext, hinteger]
        exact hpath
      have hscan := scanNumberFrom_path hfirst ['-'] rest
      rw [scanNumberFrom_stop hstate numberType _ hrest] at hscan
      simp only [signChars, if_true, List.cons_append, List.nil_append] at hscan ⊢
      rw [scan_numberChar _ (.inl rfl), scanNumber]
      simp only [show init '-' = minus from rfl, show minus.typeAt .unsigned = .integer from rfl,
        hscan]

end

/-- The digits of a positive number start with one of 1 to 9. -/
theorem exists_toDigits {n : ℕ} (hn : 0 < n) : ∃ c ds, Nat.toDigits 10 n = c :: ds ∧
    c.isDigit = true ∧ init c = any1 ∧ ∀ d ∈ ds, d.isDigit = true := by
  induction n using Nat.strongRecOn with
  | ind n ih =>
      rcases Nat.lt_or_ge n 10 with hlt | hge
      · have hdigit : ∀ m < 10, 0 < m → (Nat.digitChar m).isDigit = true ∧
            init (Nat.digitChar m) = any1 := by decide
        obtain ⟨hc, hinit⟩ := hdigit n hlt hn
        exact ⟨_, [], Nat.toDigits_of_lt_base hlt, hc, hinit, by simp⟩
      · obtain ⟨c, ds, hdigits, hc, hinit, hds⟩ := ih (n / 10) (by omega) (by omega)
        have hlast : (Nat.digitChar (n % 10)).isDigit = true := by
          have hdigit : ∀ m < 10, (Nat.digitChar m).isDigit = true := by decide
          exact hdigit _ (Nat.mod_lt _ (by decide))
        refine ⟨c, ds ++ [Nat.digitChar (n % 10)], ?_, hc, hinit, ?_⟩
        · rw [Nat.toDigits_of_base_le (by decide) hge, hdigits, List.cons_append]
        · intro d hd
          rcases List.mem_append.mp hd with hd | hd
          · exact hds d hd
          · rw [List.mem_singleton.mp hd]
            exact hlast

/-- The digits of a number are an integer for the scanner. -/
theorem path_toDigits (n : ℕ) (numberType : NumberType) : ∃ c ds, Nat.toDigits 10 n = c :: ds ∧
    c.isDigit = true ∧ ∃ state, (init c).path numberType ds = some (state, numberType) ∧
      state.accepts = true := by
  rcases Nat.eq_zero_or_pos n with rfl | hn
  · exact ⟨'0', [], rfl, rfl, zero, rfl, rfl⟩
  · obtain ⟨c, ds, hdigits, hc, hinit, hds⟩ := exists_toDigits hn
    exact ⟨c, ds, hdigits, hc, any1, hinit ▸ path_any1 hds, rfl⟩

theorem strtoull_toDigits (n : ℕ) : strtoull (Nat.toDigits 10 n) = n :=
  Nat.ofDigitChars_ten_toDigits

section
variable [Strtod]

theorem scan_dumpInt (v : JsonInt) : ∃ t, Parser.scalar? t = some (.integer v) ∧
    ∀ rest, Boundary rest → scan (dumpInt v.value ++ rest) = (t, rest) := by
  have hupper := v.upper
  have hlower := v.lower
  have hdump : dumpInt v.value =
      signChars (decide (v.value < 0)) ++ Nat.toDigits 10 v.value.natAbs := by
    simp [dumpInt, signChars]
  have hvalue := strtoull_toDigits v.value.natAbs
  rcases lt_or_ge v.value 0 with hneg | hpos
  · obtain ⟨c, ds, hdigits, hc, state, hpath, hstate⟩ := path_toDigits v.value.natAbs .integer
    have hread : integer? (signChars true ++ c :: ds) = some v := by
      rw [hdigits] at hvalue
      have htail : (signChars true ++ c :: ds).tail = c :: ds := rfl
      unfold integer?
      rw [dif_pos (by rw [htail, hvalue]; omega)]
      have heq : -(strtoull (signChars true ++ c :: ds).tail : ℤ) = v.value := by
        rw [htail, hvalue]
        omega
      simp only [heq]
    refine ⟨.valueInteger v, rfl, fun rest hrest => ?_⟩
    rw [hdump, decide_eq_true hneg, hdigits, scan_number true hc hpath hstate hrest, numberToken,
      hread]
    rfl
  · obtain ⟨c, ds, hdigits, hc, state, hpath, hstate⟩ := path_toDigits v.value.natAbs .unsigned
    have hread : unsigned? (signChars false ++ c :: ds) = some v := by
      rw [hdigits] at hvalue
      have htail : signChars false ++ c :: ds = c :: ds := rfl
      unfold unsigned?
      rw [dif_pos (by rw [htail, hvalue]; omega)]
      have heq : (strtoull (signChars false ++ c :: ds) : ℤ) = v.value := by
        rw [htail, hvalue]
        omega
      simp only [heq]
    refine ⟨.valueUnsigned v, rfl, fun rest hrest => ?_⟩
    rw [hdump, decide_eq_false (not_lt.mpr hpos), hdigits,
      scan_number false hc hpath hstate hrest, numberToken, hread]
    rfl

end

theorem isDigit_append {xs ys : List Char} (hxs : ∀ d ∈ xs, d.isDigit = true)
    (hys : ∀ d ∈ ys, d.isDigit = true) : ∀ d ∈ xs ++ ys, d.isDigit = true := by
  intro d hd
  rcases List.mem_append.mp hd with hd | hd
  · exact hxs d hd
  · exact hys d hd

theorem isDigit_replicate (n : ℕ) : ∀ d ∈ List.replicate n '0', d.isDigit = true := by
  intro d hd
  rw [List.eq_of_mem_replicate hd]
  rfl

/-! The four layouts of `format_buffer`, after the first digit. -/

theorem path_whole {numberType : NumberType} {ds : List Char} (hds : ∀ d ∈ ds, d.isDigit = true)
    (n : ℕ) : any1.path numberType (ds ++ (List.replicate n '0' ++ ['.', '0'])) =
      some (decimal2, .float) := by
  rw [← List.append_assoc, path_append (path_any1 (isDigit_append hds (isDigit_replicate n)))]
  exact path_fraction (.inr rfl) (by simp) (isDigit_replicate 1)

theorem path_split {numberType : NumberType} {ds : List Char} (hds : ∀ d ∈ ds, d.isDigit = true)
    {n : ℕ} (hn : n < ds.length) : any1.path numberType (ds.take n ++ '.' :: ds.drop n) =
      some (decimal2, .float) := by
  rw [path_append (path_any1 fun d hd => hds d (List.mem_of_mem_take hd))]
  refine path_fraction (.inr rfl) ?_ fun d hd => hds d (List.mem_of_mem_drop hd)
  rw [ne_eq, List.drop_eq_nil_iff]
  omega

theorem path_small {numberType : NumberType} {ds : List Char} (hne : ds ≠ [])
    (hds : ∀ d ∈ ds, d.isDigit = true) (n : ℕ) :
    zero.path numberType ('.' :: (List.replicate n '0' ++ ds)) = some (decimal2, .float) :=
  path_fraction (.inl rfl) (by simp [hne]) (isDigit_append (isDigit_replicate n) hds)

theorem path_scientific {numberType : NumberType} {ds : List Char}
    (hds : ∀ d ∈ ds, d.isDigit = true) (e : ℤ) :
    any1.path numberType ((if ds = [] then [] else '.' :: ds) ++ 'e' :: dumpExponent e) =
      some (any2, .float) := by
  split_ifs with hnil
  · exact path_exponent (.inl rfl) e
  · rw [path_append (path_fraction (.inr rfl) hnil hds)]
    exact path_exponent (.inr rfl) e

/-- The text of a double after its sign has a fraction or an exponent. -/
theorem path_dumpFloat (x : JsonFloat) (numberType : NumberType) : ∃ c ds state,
    dumpFloat x = signChars x.negative ++ c :: ds ∧ c.isDigit = true ∧
      (init c).path numberType ds = some (state, .float) ∧ state.accepts = true := by
  have hsign : (if x.negative = true then ['-'] else []) = signChars x.negative := rfl
  simp only [dumpFloat, hsign]
  generalize signChars x.negative = sign
  rcases Nat.eq_zero_or_pos x.digits with hzero | hpos
  · rw [if_pos hzero]
    have hds : ['0'] ≠ [] := by simp
    exact ⟨'0', ['.', '0'], decimal2, rfl, rfl,
      path_fraction (.inl rfl) hds (isDigit_replicate 1), rfl⟩
  obtain ⟨c, ds, hdigits, hc, hinit, hds⟩ := exists_toDigits hpos
  have hlength : (c :: ds).length = 1 ↔ ds = [] := by simp
  simp only [if_neg hpos.ne', hdigits, hlength]
  split
  · next hwhole =>
      exact ⟨c, _, decimal2, by rw [List.append_assoc, List.cons_append], hc,
        hinit ▸ path_whole hds _, rfl⟩
  split
  · next hwhole hsplit =>
      obtain ⟨n, hn⟩ : ∃ n : ℕ, ((c :: ds).length : ℤ) + x.exponent = (n + 1 : ℕ) :=
        ⟨(((c :: ds).length : ℤ) + x.exponent - 1).toNat, by omega⟩
      have hlt : n < ds.length := by
        simp only [List.length_cons] at hwhole hsplit hn
        omega
      rw [hn, Int.toNat_natCast]
      exact ⟨c, _, decimal2, by simp, hc, hinit ▸ path_split hds hlt, rfl⟩
  split
  · have hall : ∀ d ∈ c :: ds, d.isDigit = true := by simpa using ⟨hc, hds⟩
    exact ⟨'0', _, decimal2, rfl, rfl, path_small (by simp) hall _, rfl⟩
  · exact ⟨c, _, any2, rfl, hc, hinit ▸ path_scientific hds _, rfl⟩

section
variable [Strtod]

theorem scan_dumpFloat (x : JsonFloat) {rest : List Char} (hrest : Boundary rest) :
    scan (dumpFloat x ++ rest) = (.valueFloat (Strtod.strtod (dumpFloat x)), rest) := by
  obtain ⟨c, ds, state, hdump, hc, hpath, hstate⟩ := path_dumpFloat x (signType x.negative)
  rw [hdump, scan_number x.negative hc hpath hstate hrest]
  rfl

theorem scan_dumpString (s : String) (rest : List Char) :
    scan (dumpString s ++ rest) = (.valueString s, rest) := by
  have hscan : scanOther '"' (s.toList.flatMap escapeChar ++ '"' :: rest) =
      (.valueString s, rest) := by
    unfold scanOther
    simp [scanString_dumped]
  rw [dumpString, List.cons_append, List.append_assoc, List.singleton_append,
    scan_cons _ (by decide) (by decide), hscan]

theorem scan_literal {c : Char} {literalText : List Char} {t : Token}
    (hspace : isWhitespace c = false) (hstructural : structural? c = none)
    (h : ∀ rest, scanOther c rest = scanLiteral literalText t rest) (rest : List Char) :
    scan (c :: literalText ++ rest) = (t, rest) := by
  rw [List.cons_append, scan_cons _ hspace hstructural, h, scanLiteral,
    if_pos (List.prefix_append literalText rest), List.drop_left]

end

end Lexer

namespace Parser
open Json Lexer

/-! ## Values -/

section
variable [Strtod]

/-- In front of a boundary the text is read as a phrase of the grammar. -/
def Prints (cs : List Char) (p : Phrase) : Prop :=
  ∃ ts, Derives ts p ∧ ∀ rest, Boundary rest → Reads (cs ++ rest) ts rest

theorem reads_single {cs rest : List Char} {t : Token} (h : scan cs = (t, rest)) :
    Reads cs [t] rest := by
  rw [reads_cons, reads_nil, h]
  exact ⟨rfl, rfl⟩

theorem prints_scalar {cs : List Char} {t : Token} {v : Json} (hv : scalar? t = some v)
    (h : ∀ rest, Boundary rest → scan (cs ++ rest) = (t, rest)) : Prints cs (.value v) :=
  ⟨[t], .scalar hv, fun rest hrest => reads_single (h rest hrest)⟩

/-- The text of the items after the first. -/
def printTail {β : Type} (print : List β → List Char) (xs : List β) : List Char :=
  if xs.isEmpty then [] else ',' :: print xs

omit [Strtod] in
theorem boundary_printTail {β : Type} (print : List β → List Char) (xs : List β)
    {rest : List Char} (hrest : Boundary rest) : Boundary (printTail print xs ++ rest) := by
  unfold printTail
  split_ifs
  · exact hrest
  · simp [Boundary]

/-- Items with commas between them. `Before` says what the tokens of the items so far are. -/
theorem reads_sequence {β : Type} {text : β → List Char} {print : List β → List Char}
    {all : List β} (Item : List Token → β → Prop) (Before : List Token → List β → Prop)
    (hne : all ≠ []) (hprint : ∀ x xs, print (x :: xs) = text x ++ printTail print xs)
    (hitem : ∀ x ∈ all, ∃ ts, Item ts x ∧ ∀ rest, Boundary rest → Reads (text x ++ rest) ts rest)
    (hone : ∀ ts x, Item ts x → Before ts [x])
    (hmore : ∀ ts us xs x, xs ++ [x] <+: all → Before ts xs → Item us x →
      Before (ts ++ .valueSeparator :: us) (xs ++ [x])) :
    ∃ ts, Before ts all ∧ ∀ rest, Boundary rest → Reads (print all ++ rest) ts rest := by
  have htail : ∀ xs ys ts, ys ++ xs = all → Before ts ys → ∃ us, Before (ts ++ us) all ∧
      ∀ rest, Boundary rest → Reads (printTail print xs ++ rest) us rest := by
    intro xs
    induction xs with
    | nil =>
        intro ys ts hall hbefore
        rw [List.append_nil] at hall
        exact ⟨[], by rwa [List.append_nil, ← hall], fun rest _ => .nil rest⟩
    | cons x xs ih =>
        intro ys ts hall hbefore
        obtain ⟨us, hx, hreads⟩ := hitem x (by simp [← hall])
        have hsplit : (ys ++ [x]) ++ xs = all := by simpa using hall
        have hnext := hmore ts us ys x ⟨xs, hsplit⟩ hbefore hx
        obtain ⟨vs, hafter, hrest⟩ := ih (ys ++ [x]) _ hsplit hnext
        refine ⟨.valueSeparator :: us ++ vs, by simpa using hafter, fun rest hboundary => ?_⟩
        have hcomma : printTail print (x :: xs) ++ rest =
            ',' :: (text x ++ (printTail print xs ++ rest)) := by
          simp [printTail, hprint x xs]
        rw [hcomma, List.cons_append, reads_cons]
        have hmiddle := hreads _ (boundary_printTail print xs hboundary)
        exact ⟨rfl, hmiddle.append (hrest rest hboundary)⟩
  cases all with
  | nil => exact absurd rfl hne
  | cons x xs =>
      obtain ⟨ts, hx, hreads⟩ := hitem x (by simp)
      obtain ⟨us, hbefore, hrest⟩ := htail xs [x] ts rfl (hone ts x hx)
      refine ⟨ts ++ us, hbefore, fun rest hboundary => ?_⟩
      rw [hprint, List.append_assoc]
      exact (hreads _ (boundary_printTail print xs hboundary)).append (hrest rest hboundary)

omit [Strtod] in
/-- A key beyond all others is put at the end. -/
theorem setField_of_lt {fields : List (String × Json)} {key : String} (v : Json)
    (h : ∀ f ∈ fields, f.1 < key) : setField key v fields = fields ++ [(key, v)] := by
  induction fields with
  | nil => rfl
  | cons f fields ih =>
      have hlt := h f (by simp)
      rw [setField, if_neg hlt.ne', if_neg hlt.asymm, ih fun g hg => h g (by simp [hg])]
      rfl

theorem prints_elements {xs : List Json} (hne : xs ≠ [])
    (h : ∀ x ∈ xs, Prints x.dumpChars (.value x)) : Prints (dumpElements xs) (.elements xs) :=
  reads_sequence (fun ts x => Derives ts (.value x)) (fun ts xs => Derives ts (.elements xs)) hne
    (fun _ _ => rfl) h (fun _ _ hx => .element hx) fun _ _ _ _ _ hxs hx => .elements hxs hx

theorem prints_members {fields : List (String × Json)} (hne : fields ≠ [])
    (hsorted : fields.Pairwise fun f g => f.1 < g.1)
    (h : ∀ f ∈ fields, Prints f.2.dumpChars (.value f.2)) :
    Prints (dumpFields fields) (.members fields) := by
  refine reads_sequence (fun ts f => ∃ us, ts = .valueString f.1 :: .nameSeparator :: us ∧
    Derives us (.value f.2)) (fun ts fs => Derives ts (.members fs)) hne (fun _ _ => rfl) ?_ ?_ ?_
  · intro f hf
    obtain ⟨us, hus, hreads⟩ := h f hf
    refine ⟨_, ⟨us, rfl, hus⟩, fun rest hrest => ?_⟩
    rw [dumpField, List.append_assoc, reads_cons, scan_dumpString, List.cons_append, reads_cons]
    exact ⟨rfl, rfl, hreads rest hrest⟩
  · rintro ts f ⟨us, rfl, hus⟩
    exact .member f.1 hus
  · rintro ts us fs f hsplit hfs ⟨vs, rfl, hvs⟩
    have hlt : ∀ g ∈ fs, g.1 < f.1 := by
      have hpairs := hsorted.sublist hsplit.sublist
      rw [List.pairwise_append] at hpairs
      exact fun g hg => hpairs.2.2 g hg f (by simp)
    have hderives := Derives.members f.1 hfs hvs
    rwa [setField_of_lt f.2 hlt] at hderives

theorem prints_dumpChars {js : Json} (h : js.Normal) : Prints js.dumpChars (.value js) := by
  induction h with
  | null =>
      exact prints_scalar (t := .literalNull) rfl fun rest _ =>
        scan_literal (by decide) (by decide) (fun _ => rfl) rest
  | boolean b =>
      cases b with
      | false =>
          exact prints_scalar (t := .literalFalse) rfl fun rest _ =>
            scan_literal (by decide) (by decide) (fun _ => rfl) rest
      | true =>
          exact prints_scalar (t := .literalTrue) rfl fun rest _ =>
            scan_literal (by decide) (by decide) (fun _ => rfl) rest
  | integer v =>
      obtain ⟨t, ht, hscan⟩ := scan_dumpInt v
      exact prints_scalar ht hscan
  | @float x hx =>
      refine prints_scalar (t := .valueFloat (some x)) rfl fun rest hrest => ?_
      rw [← hx]
      exact scan_dumpFloat x hrest
  | string s =>
      exact prints_scalar (t := .valueString s) rfl fun rest _ => scan_dumpString s rest
  | @array xs hxs ih =>
      rcases eq_or_ne xs [] with rfl | hne
      · exact ⟨_, .emptyArray, fun rest _ => reads_cons.mpr ⟨rfl, reads_single rfl⟩⟩
      · obtain ⟨ts, hts, hreads⟩ := prints_elements hne ih
        refine ⟨_, .array hts, fun rest _ => ?_⟩
        rw [dumpChars, List.cons_append, List.append_assoc, reads_cons]
        exact ⟨rfl, (hreads _ (by simp [Boundary])).append (reads_single rfl)⟩
  | @object fields hsorted hfields ih =>
      rcases eq_or_ne fields [] with rfl | hne
      · exact ⟨_, .emptyObject, fun rest _ => reads_cons.mpr ⟨rfl, reads_single rfl⟩⟩
      · obtain ⟨ts, hts, hreads⟩ := prints_members hne hsorted ih
        refine ⟨_, .object hts, fun rest _ => ?_⟩
        rw [dumpChars, List.cons_append, List.append_assoc, reads_cons]
        exact ⟨rfl, (hreads _ (by simp [Boundary])).append (reads_single rfl)⟩

omit [Strtod] in
theorem skipBom_of_ne {cs : List Char} (h : ∀ rest, cs ≠ Char.ofNat 0xFEFF :: rest) :
    skipBom cs = cs := by
  cases cs with
  | nil => rfl
  | cons c cs =>
      rw [skipBom, if_neg]
      rintro rfl
      exact h cs rfl

/-- No value starts with a byte order mark. -/
theorem skipBom_dumpChars {js : Json} {ts : List Token} (hts : Derives ts (.value js))
    (hreads : Reads js.dumpChars ts []) : skipBom js.dumpChars = js.dumpChars := by
  refine skipBom_of_ne fun rest hbom => ?_
  obtain ⟨t, us, rfl, -, hne⟩ := hts.head
  rw [hbom, reads_cons] at hreads
  exact hne hreads.1.symm

/-- What `json::parse` reads from the text of a value is the value. -/
theorem parse_dump_of_normal {js : Json} (h : js.Normal) : parse js.dump = some js := by
  obtain ⟨ts, hts, hreads⟩ := prints_dumpChars h
  have htext := hreads [] (by simp [Boundary])
  rw [List.append_nil] at htext
  refine parse_of_denotes ⟨ts, [], ?_, hts, rfl⟩
  rw [dump, String.toList_ofList, skipBom_dumpChars hts htext]
  exact htext

/-! ## The values that are parsed -/

/-- The serializer writes a double such that `strtod` reads the same double. -/
class LawfulStrtod [Strtod] : Prop where
  strtod_dumpFloat (cs : List Char) (x : JsonFloat) : Strtod.strtod cs = some x →
    Strtod.strtod (dumpFloat x) = some x

end

/-- `strtod` for texts without doubles. -/
abbrev noDoubles : Strtod where
  strtod := fun _ => none

/-- `strtod` for texts whose only double is `0.5`. -/
abbrev halves : Strtod where
  strtod := fun cs => if cs = ['0', '.', '5'] then some ⟨false, 5, -1⟩ else none

instance : @LawfulStrtod noDoubles :=
  let _ := noDoubles
  ⟨by simp⟩

instance : @LawfulStrtod halves :=
  let _ := halves
  ⟨fun cs x h => by
    change (if cs = ['0', '.', '5'] then some (⟨false, 5, -1⟩ : JsonFloat) else none) = some x at h
    split_ifs at h
    obtain rfl := Option.some.inj h
    rfl⟩

section
variable [Strtod]

/-- Every double of a text has been read by `strtod`. -/
def FromStrtod (ts : List Token) : Prop :=
  ∀ x, Token.valueFloat (some x) ∈ ts → ∃ cs, Strtod.strtod cs = some x

theorem FromStrtod.mono {ts us : List Token} (h : FromStrtod ts) (hsub : us ⊆ ts) :
    FromStrtod us := fun x hx => h x (hsub hx)

theorem numberToken_float {tokenBuffer : List Char} {numberType : NumberType} {x : JsonFloat}
    (h : numberToken tokenBuffer numberType = .valueFloat (some x)) :
    Strtod.strtod tokenBuffer = some x := by
  unfold numberToken at h
  cases numberType with
  | unsigned =>
      cases hu : unsigned? tokenBuffer with
      | none => simpa [hu] using h
      | some v => simp [hu] at h
  | integer =>
      cases hi : integer? tokenBuffer with
      | none => simpa [hi] using h
      | some v => simp [hi] at h
  | float => simpa using h

theorem scanOther_float {c : Char} {rest : List Char} {x : JsonFloat}
    (h : (scanOther c rest).1 = .valueFloat (some x)) : ∃ cs, Strtod.strtod cs = some x := by
  have hliteral : ∀ literalText t, t ≠ .valueFloat (some x) →
      (scanLiteral literalText t rest).1 ≠ .valueFloat (some x) := by
    intro literalText t ht
    unfold scanLiteral
    split_ifs
    · exact ht
    · simp
  unfold scanOther at h
  split_ifs at h
  · exact absurd h (hliteral _ _ (by simp))
  · exact absurd h (hliteral _ _ (by simp))
  · exact absurd h (hliteral _ _ (by simp))
  · split at h <;> simp at h
  · simp only [scanNumber] at h
    split at h
    · exact ⟨_, numberToken_float h⟩
    · simp at h

theorem scan_float {input : List Char} {x : JsonFloat}
    (h : (scan input).1 = .valueFloat (some x)) : ∃ cs, Strtod.strtod cs = some x := by
  unfold scan at h
  cases hinput : input.dropWhile isWhitespace with
  | nil => simp [hinput, scanToken] at h
  | cons c rest =>
      rw [hinput, scanToken] at h
      cases hc : structural? c with
      | none =>
          rw [hc] at h
          exact scanOther_float h
      | some t =>
          rw [hc] at h
          unfold structural? at hc
          split_ifs at hc <;> simp_all

theorem Reads.fromStrtod {input rest : List Char} {ts : List Token} (h : Reads input ts rest) :
    FromStrtod ts := by
  induction h with
  | nil => simp [FromStrtod]
  | cons _ ih =>
      intro x hx
      rcases List.mem_cons.mp hx with hx | hx
      · exact scan_float hx.symm
      · exact ih x hx

omit [Strtod] in
theorem mem_keys_setField {key : String} {v : Json} {fields : List (String × Json)}
    {f : String × Json} (h : f ∈ setField key v fields) : f = (key, v) ∨ f ∈ fields := by
  induction fields with
  | nil => simpa [setField] using h
  | cons g fields ih =>
      unfold setField at h
      split_ifs at h <;> rcases List.mem_cons.mp h with rfl | h <;> try simp [*]
      rcases ih h with h | h <;> simp [h]

omit [Strtod] in
theorem sorted_setField {fields : List (String × Json)}
    (h : fields.Pairwise fun f g => f.1 < g.1) (key : String) (v : Json) :
    (setField key v fields).Pairwise fun f g => f.1 < g.1 := by
  induction fields with
  | nil => simp [setField]
  | cons g fields ih =>
      obtain ⟨hg, hfields⟩ := List.pairwise_cons.mp h
      unfold setField
      split_ifs with heq hlt
      · subst heq
        exact List.pairwise_cons.mpr ⟨hg, hfields⟩
      · refine List.pairwise_cons.mpr ⟨fun f hf => ?_, h⟩
        rcases List.mem_cons.mp hf with rfl | hf
        · exact hlt
        · exact hlt.trans (hg f hf)
      · refine List.pairwise_cons.mpr ⟨fun f hf => ?_, ih hfields⟩
        rcases mem_keys_setField hf with rfl | hf
        · exact lt_of_le_of_ne (not_lt.mp hlt) (Ne.symm heq)
        · exact hg f hf

theorem normal_setField {fields : List (String × Json)} (h : (Json.object fields).Normal)
    (key : String) {v : Json} (hv : v.Normal) : (Json.object (setField key v fields)).Normal := by
  cases h with
  | object hsorted hfields =>
      refine .object (sorted_setField hsorted key v) fun f hf => ?_
      rcases mem_keys_setField hf with rfl | hf
      · exact hv
      · exact hfields f hf

/-- Assigning a field keeps a value readable. -/
theorem normal_set {js : Json} (h : js.Normal) (key : String) {v : Json} (hv : v.Normal) :
    (js.set key v).Normal := by
  cases js with
  | object fields => exact normal_setField h key hv
  | null => exact .object (by simp) (by simpa using hv)
  | _ => exact h

/-- What the grammar derives from what the scanner reads. -/
theorem normal_of_derives [LawfulStrtod] {ts : List Token} {p : Phrase} (h : Derives ts p)
    (hts : FromStrtod ts) :
    match p with
    | .value v => v.Normal
    | .elements xs => ∀ x ∈ xs, x.Normal
    | .members fields => (Json.object fields).Normal := by
  induction h with
  | @scalar t v hscalar =>
      cases t with
      | valueFloat x =>
          obtain ⟨y, rfl, rfl⟩ := Option.map_eq_some_iff.mp hscalar
          obtain ⟨cs, hcs⟩ := hts y (by simp)
          exact .float (LawfulStrtod.strtod_dumpFloat cs y hcs)
      | literalTrue | literalFalse =>
          obtain rfl := Option.some.inj hscalar
          exact .boolean _
      | literalNull =>
          obtain rfl := Option.some.inj hscalar
          exact .null
      | valueString s =>
          obtain rfl := Option.some.inj hscalar
          exact .string s
      | valueUnsigned v | valueInteger v =>
          obtain rfl := Option.some.inj hscalar
          exact .integer v
      | _ => simp [scalar?] at hscalar
  | emptyArray => exact .array (by simp)
  | array _ ih => exact .array (ih (hts.mono fun t ht => by simp [ht]))
  | emptyObject => exact .object (by simp) (by simp)
  | object _ ih => exact ih (hts.mono fun t ht => by simp [ht])
  | element _ ih => simpa using ih hts
  | elements _ _ ihxs ihv =>
      intro x hx
      rcases List.mem_append.mp hx with hx | hx
      · exact ihxs (hts.mono fun t ht => by simp [ht]) x hx
      · rw [List.mem_singleton.mp hx]
        exact ihv (hts.mono fun t ht => by simp [ht])
  | member key _ ih =>
      have hv := ih (hts.mono fun t ht => by simp [ht])
      exact .object (by simp) (by simpa using hv)
  | members key _ _ ihfields ihv =>
      have hfields := ihfields (hts.mono fun t ht => by simp [ht])
      exact normal_setField hfields key (ihv (hts.mono fun t ht => by simp [ht]))

/-- Every value that `json::parse` returns is read back from its text. -/
theorem normal_of_parse [LawfulStrtod] {text : String} {js : Json} (h : parse text = some js) :
    js.Normal := by
  obtain ⟨ts, rest, hreads, hts, -⟩ := denotes_of_parse h
  exact normal_of_derives hts hreads.fromStrtod

end

end Parser

/-- The parser of the frames is the vendored one. -/
instance [Strtod] : JsonParser where
  parse := Parser.parse

/-- A value comes back from its text exactly when it is one that a text can have. -/
theorem parse_dump_iff [Strtod] [Parser.LawfulStrtod] (js : Json) :
    JsonParser.parse js.dump = some js ↔ js.Normal :=
  ⟨Parser.normal_of_parse, Parser.parse_dump_of_normal⟩

/-- An object with a double in it. -/
theorem parse_dump_half : (letI : Strtod := Parser.halves
    let js := Json.object [("a", .array [.null, .int (-5)]), ("x", .float ⟨false, 5, -1⟩)]
    JsonParser.parse js.dump = some js) := by
  let _ := Parser.halves
  have hkeys : "a" < "x" := String.lt_iff_toList_lt.mpr (by decide)
  refine (parse_dump_iff _).mpr (.object (List.pairwise_pair.mpr hkeys) ?_)
  simp only [List.mem_cons, List.not_mem_nil, or_false, forall_eq_or_imp, forall_eq]
  refine ⟨.array ?_, .float rfl⟩
  simp only [List.mem_cons, List.not_mem_nil, or_false, forall_eq_or_imp, forall_eq]
  exact ⟨.null, .integer _⟩

end ChatCluster
