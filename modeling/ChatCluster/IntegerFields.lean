import ChatCluster.Request

/-!
# What an integer field denotes

`getInt` and `getLongLong` against the value that a field has by itself. A JSON
integer denotes its mathematical value, a string the value of the numeral that it
consists of. The code reads an integer through `long long` and a string through
`char *`.
-/
namespace ChatCluster

/-- A base-10 numeral in the syntax of `strtol`, and its value. -/
def Numeral (cs : List Char) (n : ℤ) : Prop :=
  ∃ space sign digits : List Char, cs = space ++ (sign ++ digits) ∧
    (∀ c ∈ space, isSpace c = true) ∧ digits ≠ [] ∧ (∀ c ∈ digits, c.isDigit = true) ∧
    ((sign = [] ∨ sign = ['+']) ∧ n = digitsValue digits ∨
      sign = ['-'] ∧ n = -(digitsValue digits : ℤ))

theorem not_isSpace_of_isDigit {c : Char} (h : c.isDigit = true) : isSpace c = false := by
  simp only [Char.isDigit, Bool.and_eq_true, decide_eq_true_eq] at h
  have hlower : '0'.toNat ≤ c.toNat := h.1
  have hspace : c ≠ ' ' := by
    intro heq
    subst heq
    exact absurd hlower (by decide)
  have hupper : ¬ c ≤ '\r' := by
    intro hc
    have hle : c.toNat ≤ '\r'.toNat := hc
    exact absurd (le_trans hlower hle) (by decide)
  simp [isSpace, hspace, hupper]

theorem takeSign_of_isDigit {c : Char} (h : c.isDigit = true) (cs : List Char) :
    takeSign (c :: cs) = (false, c :: cs) := by
  unfold takeSign
  split
  · next heq => cases heq; cases h
  · next heq => cases heq; cases h
  · rfl

theorem takeSign_spec (cs : List Char) :
    ∃ sign, cs = sign ++ (takeSign cs).2 ∧
      ((sign = [] ∨ sign = ['+']) ∧ (takeSign cs).1 = false ∨
        sign = ['-'] ∧ (takeSign cs).1 = true) := by
  unfold takeSign
  split
  · exact ⟨['-'], rfl, .inr ⟨rfl, rfl⟩⟩
  · exact ⟨['+'], rfl, .inl ⟨.inr rfl, rfl⟩⟩
  · exact ⟨[], rfl, .inl ⟨.inl rfl, rfl⟩⟩

theorem dropWhile_append_of_head {p : Char → Bool} {xs ys : List Char}
    (hxs : ∀ c ∈ xs, p c = true) (hys : ∀ c ∈ ys.head?, p c = false) :
    (xs ++ ys).dropWhile p = ys := by
  induction xs with
  | nil =>
      cases ys with
      | nil => rfl
      | cons y ys => simp [hys y rfl]
  | cons x xs ih =>
      simp only [List.mem_cons, forall_eq_or_imp] at hxs
      rw [List.cons_append, List.dropWhile_cons_of_pos hxs.1]
      exact ih hxs.2

/-- The whole of a C string is a numeral exactly when `strtol` stops at its end. -/
theorem strtol_eq_some_nil {cs : List Char} {n : ℤ} :
    strtol cs = some (n, []) ↔ Numeral cs n := by
  constructor
  · intro h
    have hsplit := List.takeWhile_append_dropWhile (p := isSpace) (l := cs)
    have hspace : ∀ c ∈ cs.takeWhile isSpace, isSpace c = true :=
      fun c hc => List.mem_takeWhile_imp hc
    generalize cs.takeWhile isSpace = space at hsplit hspace
    simp only [strtol] at h
    generalize cs.dropWhile isSpace = rest at h hsplit
    have hempty : ¬ ((takeSign rest).2.takeWhile Char.isDigit).isEmpty = true := by
      intro he
      rw [if_pos he] at h
      cases h
    rw [if_neg hempty] at h
    simp only [Option.some.injEq, Prod.mk.injEq] at h
    obtain ⟨hn, hend⟩ := h
    have hdigits : ∀ c ∈ (takeSign rest).2, c.isDigit = true := by
      simpa [List.dropWhile_eq_nil_iff] using hend
    have hall : (takeSign rest).2.takeWhile Char.isDigit = (takeSign rest).2 :=
      List.takeWhile_eq_self_iff.mpr hdigits
    rw [hall] at hempty hn
    have hne : (takeSign rest).2 ≠ [] := by simpa using hempty
    obtain ⟨sign, hrest, hsign⟩ := takeSign_spec rest
    refine ⟨space, sign, (takeSign rest).2, ?_, hspace, hne, hdigits, ?_⟩
    · rw [← hrest]
      exact hsplit.symm
    · rcases hsign with ⟨hs, hpos⟩ | ⟨hs, hneg⟩
      · rw [hpos] at hn
        exact .inl ⟨hs, hn.symm⟩
      · rw [hneg] at hn
        exact .inr ⟨hs, hn.symm⟩
  · intro h
    rcases h with ⟨space, sign, digits, rfl, hspace, hne, hdigits, hsign⟩
    obtain ⟨d, ds, rfl⟩ := List.exists_cons_of_ne_nil hne
    have hd : d.isDigit = true := hdigits d List.mem_cons_self
    have hhead : ∀ c ∈ (sign ++ d :: ds).head?, isSpace c = false := by
      rcases hsign with ⟨rfl | rfl, -⟩ | ⟨rfl, -⟩ <;> simp [not_isSpace_of_isDigit hd] <;> decide
    have htake : (d :: ds).takeWhile Char.isDigit = d :: ds :=
      List.takeWhile_eq_self_iff.mpr hdigits
    have hdrop : (d :: ds).dropWhile Char.isDigit = [] := by
      simpa [List.dropWhile_eq_nil_iff] using hdigits
    rw [strtol, dropWhile_append_of_head hspace hhead]
    rcases hsign with ⟨rfl | rfl, rfl⟩ | ⟨rfl, rfl⟩
    · simp only [List.nil_append, takeSign_of_isDigit hd, htake, hdrop]
      rfl
    · simp only [List.cons_append, List.nil_append, takeSign, htake, hdrop]
      rfl
    · simp only [List.cons_append, List.nil_append, takeSign, htake, hdrop]
      rfl

theorem readNumeral_eq_some {raw : String} {n : ℤ} :
    readNumeral raw = some n ↔
      Numeral (cStr raw).toList n ∧ LLONG_MIN ≤ n ∧ n ≤ LLONG_MAX := by
  rw [← strtol_eq_some_nil]
  unfold readNumeral
  split_ifs with hempty
  · subst hempty
    have hnone : strtol (cStr "").toList = none := by decide
    simp [hnone]
  · split
    · next m hm =>
      rw [hm]
      split_ifs with hrange
      · simp only [Option.some.injEq, Prod.mk.injEq, and_true, false_iff]
        intro h
        rcases h with ⟨rfl, hlower, hupper⟩
        omega
      · simp only [Option.some.injEq, Prod.mk.injEq, and_true]
        constructor
        · intro heq
          subst heq
          exact ⟨rfl, by omega, by omega⟩
        · exact And.left
    · next hother =>
      constructor
      · intro h
        cases h
      · intro h
        exact absurd h.1 (hother n)

/-- The value of a field as an integer between `lo` and `hi`. -/
def Denotes (lo hi : ℤ) (field : Option Json) (n : ℤ) : Prop :=
  lo ≤ n ∧ n ≤ hi ∧
    match field with
    | some (.integer v) => v.value = n
    | some (.string raw) => Numeral raw.toList n
    | _ => False

/-- What the code makes of a field. -/
def ReadsAs (lo hi : ℤ) (field : Option Json) (n : ℤ) : Prop :=
  lo ≤ n ∧ n ≤ hi ∧
    match field with
    | some (.integer v) => v.toLongLong = n
    | some (.string raw) => Numeral (cStr raw).toList n
    | _ => False

/-- An unsigned integer whose wrapped value is in range, or a string that is a numeral
in range up to a NUL. -/
def Misread (lo hi : ℤ) (field : Option Json) : Prop :=
  match field with
  | some (.integer v) => LLONG_MAX < v.value ∧ lo ≤ v.value - 2 ^ 64
  | some (.string raw) =>
      '\x00' ∈ raw.toList ∧ ∃ n, Numeral (cStr raw).toList n ∧ lo ≤ n ∧ n ≤ hi
  | _ => False

theorem narrow_eq_some {m n : ℤ} : narrow m = some n ↔ m = n ∧ INT_MIN ≤ n ∧ n ≤ INT_MAX := by
  constructor
  · intro h
    exact ⟨narrow_eq h, narrow_range h⟩
  · intro h
    rcases h with ⟨rfl, hlower, hupper⟩
    rw [narrow, if_neg (by omega)]

theorem getInt_eq_some {js : Json} {key : String} {n : ℤ} :
    getInt js key = some n ↔ ReadsAs INT_MIN INT_MAX (js.find? key) n := by
  have hlower : LLONG_MIN ≤ INT_MIN := by decide
  have hupper : INT_MAX ≤ LLONG_MAX := by decide
  unfold getInt ReadsAs
  cases js.find? key with
  | none => simp
  | some value =>
      cases value with
      | integer v =>
          simp only [narrow_eq_some]
          tauto
      | string raw =>
          simp only [Option.bind_eq_some_iff, readNumeral_eq_some, narrow_eq_some]
          constructor
          · intro h
            rcases h with ⟨m, ⟨hm, -, -⟩, rfl, hrange⟩
            exact ⟨hrange.1, hrange.2, hm⟩
          · intro h
            rcases h with ⟨hl, hu, hn⟩
            exact ⟨n, ⟨hn, by omega, by omega⟩, rfl, hl, hu⟩
      | _ => simp

theorem JsonInt.toLongLong_range (v : JsonInt) :
    LLONG_MIN ≤ v.toLongLong ∧ v.toLongLong ≤ LLONG_MAX := by
  have hlower := Int.le_bmod (x := v.value) (m := 2 ^ 64) (by decide)
  have hupper := Int.bmod_lt (x := v.value) (m := 2 ^ 64) (by decide)
  unfold LLONG_MIN LLONG_MAX JsonInt.toLongLong
  omega

theorem getLongLong_eq_some {js : Json} {key : String} {n : ℤ} :
    getLongLong js key = some n ↔ ReadsAs LLONG_MIN LLONG_MAX (js.find? key) n := by
  unfold getLongLong ReadsAs
  cases js.find? key with
  | none => simp
  | some value =>
      cases value with
      | integer v =>
          simp only [Option.some.injEq]
          constructor
          · intro heq
            subst heq
            exact ⟨v.toLongLong_range.1, v.toLongLong_range.2, rfl⟩
          · exact fun h => h.2.2
      | string raw =>
          rw [readNumeral_eq_some]
          tauto
      | _ => simp

/-- The wrapped value differs exactly beyond the signed range. -/
theorem JsonInt.toLongLong_eq (v : JsonInt) :
    v.toLongLong = if LLONG_MAX < v.value then v.value - 2 ^ 64 else v.value := by
  have hlower := v.lower
  have hupper := v.upper
  simp only [JsonInt.toLongLong, Int.bmod, LLONG_MAX]
  split_ifs <;> omega

theorem not_numeral_of_nul {cs : List Char} {n : ℤ} (h : '\x00' ∈ cs) : ¬ Numeral cs n := by
  intro h
  rcases h with ⟨space, sign, digits, rfl, hspace, -, hdigits, hsign⟩
  simp only [List.mem_append] at h
  rcases h with h | h | h
  · exact absurd (hspace _ h) (by decide)
  · rcases hsign with ⟨rfl | rfl, -⟩ | ⟨rfl, -⟩ <;> simp at h
  · exact absurd (hdigits _ h) (by decide)

theorem readsAs_iff_denotes {lo hi : ℤ} (hneg : -1 ≤ hi) (hhi : hi ≤ LLONG_MAX)
    (field : Option Json) :
    (∀ n, ReadsAs lo hi field n ↔ Denotes lo hi field n) ↔ ¬ Misread lo hi field := by
  unfold ReadsAs Denotes Misread
  split
  · next v =>
    have hupper := v.upper
    rw [v.toLongLong_eq]
    constructor
    · rintro h ⟨hbig, hlow⟩
      have hread := (h (v.value - 2 ^ 64)).mp ⟨hlow, by omega, by rw [if_pos hbig]⟩
      omega
    · intro h n
      split_ifs with hbig
      · constructor
        · intro h
          rcases h with ⟨hl, -, rfl⟩
          exact absurd ⟨hbig, hl⟩ h
        · intro h
          rcases h with ⟨-, hu, rfl⟩
          omega
      · rfl
  · next raw =>
    constructor
    · rintro h ⟨hnul, n, hn, hl, hu⟩
      exact not_numeral_of_nul hnul ((h n).mp ⟨hl, hu, hn⟩).2.2
    · intro h n
      by_cases hnul : '\x00' ∈ raw.toList
      · constructor
        · intro h
          rcases h with ⟨hl, hu, hn⟩
          exact absurd ⟨hnul, n, hn, hl, hu⟩ h
        · intro h
          rcases h with ⟨-, -, hn⟩
          exact absurd hn (not_numeral_of_nul hnul)
      · rw [cStr_eq_self fun c hc hzero => hnul (hzero ▸ hc)]
  · simp

/-- `getInt` and `getLongLong` return exactly the value that the field denotes, unless
the field is an unsigned integer that wraps into their range or a string that goes on
behind a NUL. -/
theorem integer_fields_exact_iff (js : Json) (key : String) :
    ((∀ n, getInt js key = some n ↔ Denotes INT_MIN INT_MAX (js.find? key) n) ↔
      ¬ Misread INT_MIN INT_MAX (js.find? key)) ∧
    ((∀ n, getLongLong js key = some n ↔ Denotes LLONG_MIN LLONG_MAX (js.find? key) n) ↔
      ¬ Misread LLONG_MIN LLONG_MAX (js.find? key)) := by
  constructor
  · simp only [getInt_eq_some]
    exact readsAs_iff_denotes (by decide) (by decide) _
  · simp only [getLongLong_eq_some]
    exact readsAs_iff_denotes (by decide) (by decide) _

/-- The unsigned integer `2 ^ 64 - 1` is read as the id `-1`. -/
theorem wrapped_id_read :
    ¬ ∀ n, getInt (.object [("id", .integer ⟨2 ^ 64 - 1, by decide, by decide⟩)]) "id" = some n ↔
      Denotes INT_MIN INT_MAX
        ((Json.object [("id", .integer ⟨2 ^ 64 - 1, by decide, by decide⟩)]).find? "id") n := by
  intro h
  have hread := (h (-1)).mp (by decide)
  have hvalue : (2 ^ 64 - 1 : ℤ) = -1 := hread.2.2
  omega

end ChatCluster
