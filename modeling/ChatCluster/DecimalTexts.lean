import ChatCluster.IntegerFields

/-!
# Integers as texts

`%d` and `to_string` write an integer as a decimal numeral, and `atoi` and `atoll` read it
back.
-/
namespace ChatCluster

/-- `%d`, `%lld` and `to_string` -/
def decimalText (n : ℤ) : String :=
  String.ofList ((if n < 0 then ['-'] else []) ++ Nat.toDigits 10 n.natAbs)

/-- `strtoll` without a look at `end`: what does not fit is cut to the nearest bound. -/
def atoll (text : String) : ℤ :=
  match strtol (cStr text).toList with
  | some (n, _) => max LLONG_MIN (min n LLONG_MAX)
  | none => 0

/-- The C library cuts the result down to an `int`. -/
def atoi (text : String) : ℤ := (atoll text).bmod (2 ^ 32)

theorem isDigit_of_mem_decimalText {n : ℤ} {c : Char} (h : c ∈ (decimalText n).toList) :
    c = '-' ∨ c.isDigit = true := by
  rw [decimalText, String.toList_ofList, List.mem_append] at h
  rcases h with hsign | hdigit
  · split_ifs at hsign
    · exact .inl (List.mem_singleton.mp hsign)
    · cases hsign
  · exact .inr (Nat.isDigit_of_mem_toDigits (by decide) (by decide) hdigit)

theorem cStr_decimalText (n : ℤ) : cStr (decimalText n) = decimalText n := by
  refine cStr_eq_self fun c hc hnul => ?_
  rcases isDigit_of_mem_decimalText hc with hminus | hdigit
  · exact absurd (hminus.symm.trans hnul) (by decide)
  · rw [hnul] at hdigit
    cases hdigit

theorem numeral_decimalText (n : ℤ) : Numeral (decimalText n).toList n := by
  have hvalue : digitsValue (Nat.toDigits 10 n.natAbs) = n.natAbs := Nat.ofDigitChars_ten_toDigits
  refine ⟨[], if n < 0 then ['-'] else [], Nat.toDigits 10 n.natAbs, ?_, nofun, by simp, ?_, ?_⟩
  · rw [decimalText, String.toList_ofList, List.nil_append]
  · exact fun c hc => Nat.isDigit_of_mem_toDigits (by decide) (by decide) hc
  · rw [hvalue]
    split_ifs with hneg
    · exact .inr ⟨rfl, by omega⟩
    · exact .inl ⟨.inl rfl, by omega⟩

theorem atoll_decimalText {n : ℤ} (hl : LLONG_MIN ≤ n) (hu : n ≤ LLONG_MAX) :
    atoll (decimalText n) = n := by
  rw [atoll, cStr_decimalText, strtol_eq_some_nil.mpr (numeral_decimalText n)]
  simp only
  omega

theorem atoi_decimalText {n : ℤ} (hl : INT_MIN ≤ n) (hu : n ≤ INT_MAX) :
    atoi (decimalText n) = n := by
  unfold INT_MIN at hl
  unfold INT_MAX at hu
  have hlong : atoll (decimalText n) = n :=
    atoll_decimalText (by unfold LLONG_MIN; omega) (by unfold LLONG_MAX; omega)
  rw [atoi, hlong]
  exact Int.bmod_eq_of_le (by omega) (by omega)

end ChatCluster
