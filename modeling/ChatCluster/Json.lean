import Mathlib.Algebra.Order.Ring.Int
import Mathlib.Tactic.SplitIfs

/-!
# JSON values and their text

The values of `nlohmann::json` as the server and the client use them. The two
integer representations of the library, signed and unsigned, compare equal when
their values do and are both accepted by `is_number_integer`; they are one
constructor here, whose value carries the joint range. An object keeps its fields
in key order, as the library's `std::map` does.

`dump` is the library's compact serializer. It writes no control character, in
particular neither a NUL, which would end a C string, nor a newline, which would
end a frame.
-/
namespace ChatCluster

/-- The mathematical value of an integer, signed or unsigned with 64 bits. -/
structure JsonInt where
  value : ℤ
  lower : -2 ^ 63 ≤ value
  upper : value < 2 ^ 64
deriving DecidableEq

/-- A finite double, given by its shortest decimal `±digits · 10^exponent`. -/
structure JsonFloat where
  negative : Bool
  digits : ℕ
  exponent : ℤ
deriving DecidableEq

inductive Json where
  | null
  | boolean (b : Bool)
  | integer (v : JsonInt)
  | float (x : JsonFloat)
  | string (s : String)
  | array (xs : List Json)
  | object (fields : List (String × Json))

/-- `json::parse`; `none` is the exception `parse_error`. -/
class JsonParser where
  parse : String → Option Json

/-- A C++ `long long` (or `int`) assigned to a json value. -/
def JsonInt.ofInt (n : ℤ) : JsonInt where
  value := n.bmod (2 ^ 64)
  lower := le_trans (by decide) (Int.le_bmod (x := n) (m := 2 ^ 64) (by decide))
  upper := lt_trans (Int.bmod_lt (x := n) (m := 2 ^ 64) (by decide)) (by decide)

theorem JsonInt.ofInt_value {n : ℤ} (hl : -2 ^ 63 ≤ n) (hu : n < 2 ^ 63) :
    (JsonInt.ofInt n).value = n :=
  Int.bmod_eq_of_le (m := 2 ^ 64) (by simpa using hl) (by simpa using hu)

/-- `get<long long>()`: a `static_cast` from either representation. -/
def JsonInt.toLongLong (v : JsonInt) : ℤ := v.value.bmod (2 ^ 64)

/-- `static_cast<int>` of a double truncates. Outside the range of `int` the cast
is undefined; the value is the one x86-64 produces. -/
def JsonFloat.toInt32 (x : JsonFloat) : ℤ :=
  let magnitude : ℤ :=
    match x.exponent with
    | .ofNat e => x.digits * 10 ^ e
    | .negSucc e => x.digits / 10 ^ (e + 1)
  let n := if x.negative then -magnitude else magnitude
  if -2 ^ 31 ≤ n ∧ n < 2 ^ 31 then n else -2 ^ 31

namespace Json

def int (n : ℤ) : Json := .integer (JsonInt.ofInt n)

theorem bmod_eq_of_int_eq {m n : ℤ} (h : Json.int m = Json.int n) :
    m.bmod (2 ^ 64) = n.bmod (2 ^ 64) :=
  congrArg JsonInt.value (Json.integer.inj h)

/-- `get<int>()`; `none` is the exception `type_error`. -/
def getInt32? : Json → Option ℤ
  | .integer v => some (v.value.bmod (2 ^ 32))
  | .float x => some x.toInt32
  | .boolean b => some b.toNat
  | _ => none

/-- `get<string>()`; `none` is the exception `type_error`. -/
def getStr? : Json → Option String
  | .string s => some s
  | _ => none

/-- `find` on an object; a value that is not an object has no fields. -/
def find? : Json → String → Option Json
  | .object fields, key => fields.lookup key
  | _, _ => none

def contains (js : Json) (key : String) : Bool := (js.find? key).isSome

/-- Assign a field in key order. -/
def setField (key : String) (v : Json) : List (String × Json) → List (String × Json)
  | [] => [(key, v)]
  | (k, x) :: fields =>
      if key = k then (key, v) :: fields
      else if key < k then (key, v) :: (k, x) :: fields
      else (k, x) :: setField key v fields

/-- `js[key] = v`. The handlers assign to objects only. -/
def set : Json → String → Json → Json
  | .object fields, key, v => .object (setField key v fields)
  | .null, key, v => .object [(key, v)]
  | js, _, _ => js

def IsObject : Json → Prop
  | .object _ => True
  | _ => False

theorem isObject_of_find {js : Json} {key : String} {v : Json} (h : js.find? key = some v) :
    js.IsObject := by
  cases js with
  | object => trivial
  | _ => cases h

theorem lookup_cons_ne {key k : String} {x : Json} {fields : List (String × Json)}
    (h : key ≠ k) : ((k, x) :: fields).lookup key = fields.lookup key := by
  rw [List.lookup_cons, beq_false_of_ne h]

theorem lookup_setField_self (key : String) (v : Json) (fields : List (String × Json)) :
    (setField key v fields).lookup key = some v := by
  induction fields with
  | nil => exact List.lookup_cons_self
  | cons f fields ih =>
      obtain ⟨k, x⟩ := f
      unfold setField
      split_ifs with h₁ h₂
      · exact List.lookup_cons_self
      · exact List.lookup_cons_self
      · rw [lookup_cons_ne h₁]
        exact ih

theorem lookup_setField_ne {key k' : String} (v : Json) (fields : List (String × Json))
    (h : k' ≠ key) : (setField key v fields).lookup k' = fields.lookup k' := by
  induction fields with
  | nil => exact lookup_cons_ne h
  | cons f fields ih =>
      obtain ⟨k, x⟩ := f
      unfold setField
      split_ifs with h₁ h₂
      · subst h₁
        rw [lookup_cons_ne h, lookup_cons_ne h]
      · exact lookup_cons_ne h
      · rw [List.lookup_cons, List.lookup_cons, ih]

@[simp] theorem find?_set_self {js : Json} (hjs : js.IsObject) (key : String) (v : Json) :
    (js.set key v).find? key = some v := by
  cases js <;> first | exact hjs.elim | exact lookup_setField_self _ _ _

@[simp] theorem find?_set_ne {js : Json} {key k' : String} (v : Json) (h : k' ≠ key) :
    (js.set key v).find? k' = js.find? k' := by
  cases js with
  | object fields => exact lookup_setField_ne v fields h
  | null => exact lookup_cons_ne h
  | _ => rfl

@[simp] theorem isObject_set {js : Json} (hjs : js.IsObject) (key : String) (v : Json) :
    (js.set key v).IsObject := by
  cases js <;> first | exact hjs.elim | trivial

@[simp] theorem isObject_object (fields : List (String × Json)) :
    (Json.object fields).IsObject := trivial

/-! ## Serialization -/

def hexDigit (n : ℕ) : Char := Nat.digitChar (n % 16)

/-- `dump_escaped` without `ensure_ascii`. -/
def escapeChar (c : Char) : List Char :=
  if c.toNat = 0x08 then ['\\', 'b']
  else if c.toNat = 0x09 then ['\\', 't']
  else if c.toNat = 0x0A then ['\\', 'n']
  else if c.toNat = 0x0C then ['\\', 'f']
  else if c.toNat = 0x0D then ['\\', 'r']
  else if c.toNat = 0x22 then ['\\', '"']
  else if c.toNat = 0x5C then ['\\', '\\']
  else if c.toNat ≤ 0x1F then
    ['\\', 'u', '0', '0', hexDigit (c.toNat / 16), hexDigit c.toNat]
  else [c]

def dumpString (s : String) : List Char := '"' :: (s.toList.flatMap escapeChar ++ ['"'])

def dumpInt (n : ℤ) : List Char :=
  (if n < 0 then ['-'] else []) ++ Nat.toDigits 10 n.natAbs

/-- `append_exponent`: at least two digits. -/
def dumpExponent (e : ℤ) : List Char :=
  (if e < 0 then ['-'] else ['+']) ++
    (if e.natAbs < 10 then ['0'] else []) ++ Nat.toDigits 10 e.natAbs

/-- `format_buffer` with `min_exp = -4` and `max_exp = 15`. -/
def dumpFloat (x : JsonFloat) : List Char :=
  let sign := if x.negative then ['-'] else []
  if x.digits = 0 then sign ++ ['0', '.', '0'] else
    let buf := Nat.toDigits 10 x.digits
    let k : ℤ := buf.length
    let n : ℤ := k + x.exponent
    sign ++
      if k ≤ n ∧ n ≤ 15 then buf ++ List.replicate (n - k).toNat '0' ++ ['.', '0']
      else if 0 < n ∧ n ≤ 15 then buf.take n.toNat ++ '.' :: buf.drop n.toNat
      else if -4 < n ∧ n ≤ 0 then
        ['0', '.'] ++ List.replicate (-n).toNat '0' ++ buf
      else
        buf.take 1 ++ (if buf.length = 1 then [] else '.' :: buf.drop 1) ++
          'e' :: dumpExponent (n - 1)

mutual
def dumpChars : Json → List Char
  | .null => "null".toList
  | .boolean b => if b then "true".toList else "false".toList
  | .integer v => dumpInt v.value
  | .float x => dumpFloat x
  | .string s => dumpString s
  | .array xs => '[' :: (dumpElements xs ++ [']'])
  | .object fields => '\x7b' :: (dumpFields fields ++ ['\x7d'])
termination_by structural js => js

def dumpElements : List Json → List Char
  | [] => []
  | x :: xs => x.dumpChars ++ if xs.isEmpty then [] else ',' :: dumpElements xs
termination_by structural xs => xs

def dumpFields : List (String × Json) → List Char
  | [] => []
  | f :: fs => dumpField f ++ if fs.isEmpty then [] else ',' :: dumpFields fs
termination_by structural fs => fs

def dumpField : String × Json → List Char
  | (key, v) => dumpString key ++ ':' :: v.dumpChars
termination_by structural f => f
end

def dump (js : Json) : String := String.ofList js.dumpChars

/-- Not a control character. -/
def Printable (c : Char) : Prop := 0x20 ≤ c.toNat

instance (c : Char) : Decidable (Printable c) := inferInstanceAs (Decidable (_ ≤ _))

theorem printable_of_isDigit {c : Char} (h : c.isDigit = true) : Printable c := by
  simp only [Char.isDigit, Bool.and_eq_true, decide_eq_true_eq] at h
  have h₀ : '0'.toNat ≤ c.toNat := h.1
  exact le_trans (by decide) h₀

theorem printable_toDigits {n : ℕ} {c : Char} (h : c ∈ Nat.toDigits 10 n) : Printable c :=
  printable_of_isDigit (Nat.isDigit_of_mem_toDigits (by decide) (by decide) h)

theorem printable_hexDigit (n : ℕ) : Printable (hexDigit n) := by
  have h : ∀ m < 16, Printable (Nat.digitChar m) := by decide
  exact h _ (Nat.mod_lt _ (by decide))

theorem printable_escapeChar {c d : Char} (h : d ∈ escapeChar c) : Printable d := by
  unfold escapeChar at h
  split_ifs at h with h₁ h₂ h₃ h₄ h₅ h₆ h₇ h₈ <;>
    simp only [List.mem_cons, List.not_mem_nil, or_false] at h
  any_goals (rcases h with rfl | rfl <;> decide)
  · rcases h with rfl | rfl | rfl | rfl | rfl | rfl
    any_goals decide
    · exact printable_hexDigit _
    · exact printable_hexDigit _
  · subst h
    unfold Printable
    omega

theorem printable_dumpString {s : String} {c : Char} (h : c ∈ dumpString s) :
    Printable c := by
  simp only [dumpString, List.mem_cons, List.mem_append, List.mem_flatMap,
    List.not_mem_nil, or_false] at h
  rcases h with rfl | ⟨_, _, h⟩ | rfl
  · decide
  · exact printable_escapeChar h
  · decide

theorem printable_dumpInt {n : ℤ} {c : Char} (h : c ∈ dumpInt n) : Printable c := by
  rw [dumpInt, List.mem_append] at h
  rcases h with h | h
  · split_ifs at h
    · rw [List.mem_singleton.mp h]; decide
    · cases h
  · exact printable_toDigits h

theorem printable_dumpExponent {e : ℤ} {c : Char} (h : c ∈ dumpExponent e) :
    Printable c := by
  simp only [dumpExponent, List.mem_append] at h
  rcases h with (h | h) | h
  · split_ifs at h <;> rw [List.mem_singleton.mp h] <;> decide
  · split_ifs at h
    · rw [List.mem_singleton.mp h]; decide
    · cases h
  · exact printable_toDigits h

theorem printable_dumpFloat {x : JsonFloat} {c : Char} (h : c ∈ dumpFloat x) :
    Printable c := by
  have hsign : ∀ d ∈ (if x.negative then ['-'] else []), Printable d := by
    intro d hd
    split_ifs at hd
    · rw [List.mem_singleton.mp hd]; decide
    · cases hd
  have hzero : ∀ m, ∀ d ∈ List.replicate m '0', Printable d := fun m d hd => by
    rw [List.eq_of_mem_replicate hd]; decide
  have htake : ∀ m, ∀ d ∈ (Nat.toDigits 10 x.digits).take m, Printable d :=
    fun m d hd => printable_toDigits (List.mem_of_mem_take hd)
  have hdrop : ∀ m, ∀ d ∈ (Nat.toDigits 10 x.digits).drop m, Printable d :=
    fun m d hd => printable_toDigits (List.mem_of_mem_drop hd)
  have hdot : Printable '.' := by decide
  have hnil : Printable '0' := by decide
  have he : Printable 'e' := by decide
  simp only [dumpFloat] at h
  split_ifs at h <;>
    simp only [List.mem_append, List.mem_cons, List.not_mem_nil, or_false] at h
  all_goals grind [printable_toDigits, printable_dumpExponent]

theorem printable_bracketed {l r c : Char} {xs : List Char} (hl : Printable l)
    (hr : Printable r) (hxs : ∀ d ∈ xs, Printable d) (h : c ∈ l :: (xs ++ [r])) :
    Printable c := by
  simp only [List.mem_cons, List.mem_append, List.not_mem_nil, or_false] at h
  rcases h with rfl | h | rfl
  · exact hl
  · exact hxs c h
  · exact hr

/-- Items separated by commas; `b` tells whether another item follows. -/
theorem printable_separated {b : Bool} {c : Char} {xs ys : List Char}
    (hxs : ∀ d ∈ xs, Printable d) (hys : ∀ d ∈ ys, Printable d)
    (h : c ∈ xs ++ if b then [] else ',' :: ys) : Printable c := by
  rcases List.mem_append.mp h with h | h
  · exact hxs c h
  · split_ifs at h
    · cases h
    · rcases List.mem_cons.mp h with rfl | h
      · decide
      · exact hys c h

theorem printable_literal {cs : List Char} (h : (cs.all fun c => decide (Printable c)) = true) {c : Char}
    (hc : c ∈ cs) : Printable c := of_decide_eq_true (List.all_eq_true.mp h c hc)

mutual
theorem printable_dumpChars : ∀ (js : Json) (c : Char), c ∈ js.dumpChars → Printable c
  | .null, _ => printable_literal (by decide)
  | .boolean b, _ => printable_literal (by cases b <;> decide)
  | .integer _, _ => printable_dumpInt
  | .float _, _ => printable_dumpFloat
  | .string _, _ => printable_dumpString
  | .array xs, _ => printable_bracketed (by decide) (by decide) (printable_dumpElements xs)
  | .object fs, _ => printable_bracketed (by decide) (by decide) (printable_dumpFields fs)

theorem printable_dumpElements : ∀ (xs : List Json) (c : Char), c ∈ dumpElements xs → Printable c
  | [], _ => fun h => nomatch h
  | x :: xs, _ => printable_separated (printable_dumpChars x) (printable_dumpElements xs)

theorem printable_dumpFields : ∀ (fs : List (String × Json)) (c : Char),
    c ∈ dumpFields fs → Printable c
  | [], _ => fun h => nomatch h
  | f :: fs, _ => printable_separated (printable_dumpField f) (printable_dumpFields fs)

theorem printable_dumpField : ∀ (f : String × Json) (c : Char), c ∈ dumpField f → Printable c
  | (key, v), c => fun h => by
      simp only [dumpField, List.mem_append, List.mem_cons] at h
      rcases h with h | rfl | h
      · exact printable_dumpString h
      · decide
      · exact printable_dumpChars v c h
end

theorem dumpFloat_ne_nil (x : JsonFloat) : dumpFloat x ≠ [] := by
  simp only [dumpFloat]
  split_ifs <;> simp

theorem dumpChars_ne_nil (js : Json) : js.dumpChars ≠ [] := by
  cases js with
  | null => decide
  | boolean b => cases b <;> decide
  | integer v => simp [dumpChars, dumpInt]
  | float x => exact dumpFloat_ne_nil x
  | string s => simp [dumpChars, dumpString]
  | array xs => simp [dumpChars]
  | object fields => simp [dumpChars]

/-- No value has an empty text. -/
theorem dump_ne_empty (js : Json) : js.dump ≠ "" := by
  intro h
  have htext : js.dump.toList = [] := by rw [h]; rfl
  rw [dump, String.toList_ofList] at htext
  exact dumpChars_ne_nil js htext

end Json

/-- A parser for the texts of these frames. -/
abbrev parserOf (frames : List Json) : JsonParser where
  parse := fun s => frames.find? fun frame => frame.dump = s

theorem parse_parserOf (before : List Json) {after : List Json} {js : Json}
    (h : ∀ frame ∈ before, frame.dump ≠ js.dump) :
    (parserOf (before ++ js :: after)).parse js.dump = some js := by
  have hbefore : before.find? (fun frame => decide (frame.dump = js.dump)) = none := by
    rw [List.find?_eq_none]
    intro frame hframe
    simpa using h frame hframe
  show (before ++ js :: after).find? (fun frame => decide (frame.dump = js.dump)) = some js
  rw [List.find?_append, hbefore, Option.none_or]
  exact List.find?_cons_of_pos (decide_eq_true rfl)

end ChatCluster
