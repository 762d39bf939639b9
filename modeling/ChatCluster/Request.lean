import ChatCluster.Json
import Mathlib.Data.List.TakeWhile

/-!
# Reading the fields of a request

The helpers at the top of `chatservice.cpp` and the message types of `public.hpp`.
An integer field may be a JSON integer or a string holding a decimal numeral; the
string is read by `strtol`, which sees it as a C string.
-/
namespace ChatCluster

/-- `EnMsgType`. -/
inductive EnMsgType where
  | loginMsg | loginMsgAck | loginoutMsg | regMsg | regMsgAck | oneChatMsg | addFriendMsg
  | createGroupMsg | addGroupMsg | groupChatMsg | msgAck | heartbeatMsg
deriving DecidableEq, Repr

def EnMsgType.code : EnMsgType → ℤ
  | .loginMsg => 1
  | .loginMsgAck => 2
  | .loginoutMsg => 3
  | .regMsg => 4
  | .regMsgAck => 5
  | .oneChatMsg => 6
  | .addFriendMsg => 7
  | .createGroupMsg => 8
  | .addGroupMsg => 9
  | .groupChatMsg => 10
  | .msgAck => 11
  | .heartbeatMsg => 12

def EnMsgType.all : List EnMsgType :=
  [.loginMsg, .loginMsgAck, .loginoutMsg, .regMsg, .regMsgAck, .oneChatMsg, .addFriendMsg,
    .createGroupMsg, .addGroupMsg, .groupChatMsg, .msgAck, .heartbeatMsg]

def EnMsgType.ofCode? (n : ℤ) : Option EnMsgType :=
  EnMsgType.all.find? fun t => decide (t.code = n)

@[simp] theorem EnMsgType.ofCode?_code (t : EnMsgType) : ofCode? t.code = some t := by
  cases t <;> rfl

theorem EnMsgType.code_of_ofCode? {n : ℤ} {t : EnMsgType} (h : ofCode? n = some t) :
    n = t.code := by
  have := List.find?_some h
  exact (of_decide_eq_true this).symm

/-- A string read through a `char *`: it ends before the first NUL. -/
def cStr (s : String) : String := String.ofList (s.toList.takeWhile fun c => c ≠ '\x00')

theorem cStr_eq_self_iff {s : String} : cStr s = s ↔ ∀ c ∈ s.toList, c ≠ '\x00' := by
  have hlist : cStr s = s ↔ s.toList.takeWhile (fun c => decide (c ≠ '\x00')) = s.toList := by
    rw [cStr, ← String.toList_inj, String.toList_ofList]
  rw [hlist, List.takeWhile_eq_self_iff]
  simp only [decide_eq_true_eq]

theorem cStr_eq_self {s : String} (h : ∀ c ∈ s.toList, c ≠ '\x00') : cStr s = s :=
  cStr_eq_self_iff.mpr h

theorem cStr_dump (js : Json) : cStr js.dump = js.dump := by
  refine cStr_eq_self fun c hc h => ?_
  rw [Json.dump, String.toList_ofList] at hc
  have hp := js.printable_dumpChars c hc
  subst h
  exact absurd hp (by decide)

/-- `isspace` in the C locale. -/
def isSpace (c : Char) : Bool := c = ' ' || ('\t' ≤ c && c ≤ '\r')

def digitsValue (digits : List Char) : ℕ :=
  digits.foldl (fun n c => 10 * n + (c.toNat - '0'.toNat)) 0

/-- An optional sign, and the characters after it. -/
def takeSign : List Char → Bool × List Char
  | '-' :: cs => (true, cs)
  | '+' :: cs => (false, cs)
  | cs => (false, cs)

/-- `strtol(s, &end, 10)`: `none` when no digit was read (`end == s`), otherwise the
mathematical value of the numeral and the characters `end` points at. -/
def strtol (s : List Char) : Option (ℤ × List Char) :=
  let (negative, cs) := takeSign (s.dropWhile isSpace)
  let digits := cs.takeWhile Char.isDigit
  if digits.isEmpty then none else
    let n : ℤ := digitsValue digits
    some (if negative then -n else n, cs.dropWhile Char.isDigit)

def INT_MIN : ℤ := -2 ^ 31
def INT_MAX : ℤ := 2 ^ 31 - 1
def LLONG_MIN : ℤ := -2 ^ 63
def LLONG_MAX : ℤ := 2 ^ 63 - 1

/-- The string branch of `getInt` and `getLongLong`: a value outside the range of
`long` sets `errno`, and the numeral must end where the C string ends. -/
def readNumeral (raw : String) : Option ℤ :=
  if raw = "" then none else
    match strtol (cStr raw).toList with
    | some (n, []) => if n < LLONG_MIN ∨ LLONG_MAX < n then none else some n
    | _ => none

/-- The range check before the `static_cast<int>`. -/
def narrow (parsed : ℤ) : Option ℤ :=
  if parsed < INT_MIN ∨ INT_MAX < parsed then none else some parsed

/-- The branch on `is_number_unsigned` of the source is left out: the test on
`is_number_integer` before it accepts unsigned integers as well. -/
def getInt (js : Json) (key : String) : Option ℤ :=
  match js.find? key with
  | some (.integer v) => narrow v.toLongLong
  | some (.string raw) => (readNumeral raw).bind narrow
  | _ => none

def getLongLong (js : Json) (key : String) : Option ℤ :=
  match js.find? key with
  | some (.integer v) => some v.toLongLong
  | some (.string raw) => readNumeral raw
  | _ => none

def getString (js : Json) (key : String) : Option String :=
  match js.find? key with
  | some (.string s) => some s
  | _ => none

theorem narrow_range {m n : ℤ} (h : narrow m = some n) : INT_MIN ≤ n ∧ n ≤ INT_MAX := by
  unfold narrow at h
  split_ifs at h with hr
  cases h
  omega

theorem narrow_eq {m n : ℤ} (h : narrow m = some n) : m = n := by
  unfold narrow at h
  split_ifs at h
  exact Option.some.inj h

theorem getInt_range {js : Json} {key : String} {n : ℤ} (h : getInt js key = some n) :
    INT_MIN ≤ n ∧ n ≤ INT_MAX := by
  unfold getInt at h
  split at h
  · exact narrow_range h
  · obtain ⟨m, _, hm⟩ := Option.bind_eq_some_iff.mp h
    exact narrow_range hm
  · cases h

theorem getInt_int {js : Json} {key : String} {n : ℤ} (h : js.find? key = some (.int n))
    (hl : INT_MIN ≤ n) (hu : n ≤ INT_MAX) : getInt js key = some n := by
  unfold INT_MIN at hl
  unfold INT_MAX at hu
  have hvalue : (JsonInt.ofInt n).toLongLong = n := by
    rw [JsonInt.toLongLong, JsonInt.ofInt_value (by omega) (by omega)]
    exact Int.bmod_eq_of_le (m := 2 ^ 64) (by omega) (by omega)
  rw [getInt, h, Json.int]
  dsimp only
  rw [hvalue, narrow, if_neg (by unfold INT_MIN INT_MAX; omega)]

theorem getLongLong_int {js : Json} {key : String} {n : ℤ} (h : js.find? key = some (.int n))
    (hl : LLONG_MIN ≤ n) (hu : n ≤ LLONG_MAX) : getLongLong js key = some n := by
  unfold LLONG_MIN at hl
  unfold LLONG_MAX at hu
  rw [getLongLong, h]
  dsimp only [Json.int]
  rw [JsonInt.toLongLong, JsonInt.ofInt_value (by omega) (by omega)]
  exact congrArg some (Int.bmod_eq_of_le (m := 2 ^ 64) (by omega) (by omega))

theorem isObject_of_getInt {js : Json} {key : String} {n : ℤ} (h : getInt js key = some n) :
    js.IsObject := by
  unfold getInt at h
  split at h
  · exact Json.isObject_of_find ‹_›
  · exact Json.isObject_of_find ‹_›
  · cases h

theorem getString_congr {js js' : Json} {key : String} (h : js'.find? key = js.find? key) :
    getString js' key = getString js key := by
  unfold getString
  rw [h]

end ChatCluster
