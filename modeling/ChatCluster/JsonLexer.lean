import ChatCluster.Json
import Mathlib.Data.List.TakeWhile
import Mathlib.Tactic.IntervalCases

/-!
# The JSON lexer

The lexer of the vendored `json.hpp`, on the characters of a text that is UTF-8. What the
source calls `token_buffer` is the argument of that name; `unget` leaves a character in the
input. A scanner that returns `none` has set `error_message`, and the parser throws
whatever the message says.

The text of a fraction, of an exponent, or of an integer outside 64 bits goes to `strtod`
of the C library. It is a parameter; it has no value when the number is too large.
-/
namespace ChatCluster

/-- `strtod` on the text of a JSON number; `none` is an infinite result. -/
class Strtod where
  strtod : List Char → Option JsonFloat

/-- `token_type`. -/
inductive Token where
  | beginArray | endArray | beginObject | endObject | nameSeparator | valueSeparator
  | literalTrue | literalFalse | literalNull
  | valueString (s : String)
  | valueUnsigned (v : JsonInt)
  | valueInteger (v : JsonInt)
  | valueFloat (x : Option JsonFloat)
  | endOfInput
  | parseError
deriving DecidableEq

/-- Whether the token is anything but the end of the input. -/
def Token.weight : Token → ℕ
  | .endOfInput => 0
  | _ => 1

theorem Token.weight_le (t : Token) : t.weight ≤ 1 := by
  cases t <;> simp [Token.weight]

namespace Lexer

/-! ## Strings -/

/-- The value of one hexadecimal digit, as `get_codepoint` computes it. -/
def hexValue? (current : Char) : Option ℕ :=
  if '0' ≤ current ∧ current ≤ '9' then some (current.toNat - 0x30)
  else if 'A' ≤ current ∧ current ≤ 'F' then some (current.toNat - 0x37)
  else if 'a' ≤ current ∧ current ≤ 'f' then some (current.toNat - 0x57)
  else none

/-- `get_codepoint`, with `none` for -1. -/
def getCodepoint (c₁ c₂ c₃ c₄ : Char) : Option ℕ := do
  let d₁ ← hexValue? c₁
  let d₂ ← hexValue? c₂
  let d₃ ← hexValue? c₃
  let d₄ ← hexValue? c₄
  return d₁ * 0x1000 + d₂ * 0x100 + d₃ * 0x10 + d₄

/-- The character after a backslash, but for `u`. -/
def escaped? (current : Char) : Option Char :=
  if current = '"' then some '"'
  else if current = '\\' then some '\\'
  else if current = '/' then some '/'
  else if current = 'b' then some (Char.ofNat 0x08)
  else if current = 'f' then some (Char.ofNat 0x0C)
  else if current = 'n' then some (Char.ofNat 0x0A)
  else if current = 'r' then some (Char.ofNat 0x0D)
  else if current = 't' then some (Char.ofNat 0x09)
  else none

def IsHighSurrogate (codepoint : ℕ) : Prop := 0xD800 ≤ codepoint ∧ codepoint ≤ 0xDBFF

def IsLowSurrogate (codepoint : ℕ) : Prop := 0xDC00 ≤ codepoint ∧ codepoint ≤ 0xDFFF

instance (n : ℕ) : Decidable (IsHighSurrogate n) := inferInstanceAs (Decidable (_ ∧ _))

instance (n : ℕ) : Decidable (IsLowSurrogate n) := inferInstanceAs (Decidable (_ ∧ _))

/-- `scan_string`, after the opening quote. -/
def scanString (tokenBuffer : List Char) : List Char → Option (List Char × List Char)
  | [] => none
  | current :: rest =>
      if current = '"' then some (tokenBuffer, rest)
      else if current = '\\' then
        match rest with
        | 'u' :: c₁ :: c₂ :: c₃ :: c₄ :: rest =>
            match getCodepoint c₁ c₂ c₃ c₄ with
            | none => none
            | some codepoint₁ =>
                if IsHighSurrogate codepoint₁ then
                  match rest with
                  | '\\' :: 'u' :: d₁ :: d₂ :: d₃ :: d₄ :: rest =>
                      match getCodepoint d₁ d₂ d₃ d₄ with
                      | none => none
                      | some codepoint₂ =>
                          if IsLowSurrogate codepoint₂ then
                            let codepoint := codepoint₁ * 2 ^ 10 + codepoint₂ - 0x35FDC00
                            scanString (tokenBuffer ++ [Char.ofNat codepoint]) rest
                          else none
                  | _ => none
                else if IsLowSurrogate codepoint₁ then none
                else scanString (tokenBuffer ++ [Char.ofNat codepoint₁]) rest
        | escape :: rest =>
            match escaped? escape with
            | none => none
            | some c => scanString (tokenBuffer ++ [c]) rest
        | [] => none
      -- a control character must be escaped
      else if current.toNat ≤ 0x1F then none
      else scanString (tokenBuffer ++ [current]) rest

/-! ## Numbers -/

/-- The labels of `scan_number`. -/
inductive NumberState where
  | minus | zero | any1 | decimal1 | decimal2 | exponent | sign | any2
deriving DecidableEq, Repr

/-- `number_type`. -/
inductive NumberType where
  | unsigned | integer | float
deriving DecidableEq, Repr

def isDigit19 (c : Char) : Bool := '1' ≤ c && c ≤ '9'

namespace NumberState

/-- The jump that adds `current` to the buffer; `none` is the default case. -/
def next (current : Char) : NumberState → Option NumberState
  | minus => if current = '0' then some zero else if isDigit19 current then some any1 else none
  | zero =>
      if current = '.' then some decimal1
      else if current = 'e' ∨ current = 'E' then some exponent
      else none
  | any1 =>
      if current.isDigit then some any1
      else if current = '.' then some decimal1
      else if current = 'e' ∨ current = 'E' then some exponent
      else none
  | decimal1 => if current.isDigit then some decimal2 else none
  | decimal2 =>
      if current.isDigit then some decimal2
      else if current = 'e' ∨ current = 'E' then some exponent
      else none
  | exponent =>
      if current = '+' ∨ current = '-' then some sign
      else if current.isDigit then some any2
      else none
  | sign => if current.isDigit then some any2 else none
  | any2 => if current.isDigit then some any2 else none

/-- The default case goes to `scan_number_done`; elsewhere it is an error. -/
def accepts : NumberState → Bool
  | zero | any1 | decimal2 | any2 => true
  | minus | decimal1 | exponent | sign => false

/-- `number_type` on arrival at a label. -/
def typeAt : NumberState → NumberType → NumberType
  | minus, _ => .integer
  | decimal1, _ => .float
  | exponent, _ => .float
  | zero, t | any1, t | decimal2, t | sign, t | any2, t => t

end NumberState

/-- `scan_number` from a label on. -/
def scanNumberFrom (state : NumberState) (numberType : NumberType) (tokenBuffer : List Char) :
    List Char → Option (NumberType × List Char × List Char)
  | [] => if state.accepts then some (numberType, tokenBuffer, []) else none
  | current :: rest =>
      match state.next current with
      | some state' =>
          scanNumberFrom state' (state'.typeAt numberType) (tokenBuffer ++ [current]) rest
      | none => if state.accepts then some (numberType, tokenBuffer, current :: rest) else none

/-- `strtoull` on digits. -/
def strtoull (tokenBuffer : List Char) : ℕ := Nat.ofDigitChars 10 tokenBuffer 0

/-- The unsigned integer of these digits, if `strtoull` reports no overflow. -/
def unsigned? (tokenBuffer : List Char) : Option JsonInt :=
  if h : strtoull tokenBuffer < 2 ^ 64 then
    some ⟨strtoull tokenBuffer, by omega, by exact_mod_cast h⟩
  else none

/-- The integer of a minus sign and digits, if `strtoll` reports no overflow. -/
def integer? (tokenBuffer : List Char) : Option JsonInt :=
  if h : strtoull tokenBuffer.tail ≤ 2 ^ 63 then
    some ⟨-strtoull tokenBuffer.tail, by omega, by omega⟩
  else none

/-- The conversion at `scan_number_done`. -/
def numberToken [Strtod] (tokenBuffer : List Char) (numberType : NumberType) : Token :=
  let float := Token.valueFloat (Strtod.strtod tokenBuffer)
  match numberType with
  | .unsigned => ((unsigned? tokenBuffer).map Token.valueUnsigned).getD float
  | .integer => ((integer? tokenBuffer).map Token.valueInteger).getD float
  | .float => float

/-- The state `init`, which `scan` enters at a digit or a minus sign. -/
def NumberState.init (current : Char) : NumberState :=
  if current = '-' then minus else if current = '0' then zero else any1

/-- `scan_number` -/
def scanNumber [Strtod] (current : Char) (rest : List Char) : Token × List Char :=
  let state := NumberState.init current
  match scanNumberFrom state (state.typeAt .unsigned) [current] rest with
  | some (numberType, tokenBuffer, rest) => (numberToken tokenBuffer numberType, rest)
  | none => (.parseError, rest)

/-! ## The scanner -/

/-- `scan_literal`, after the first character. -/
def scanLiteral (literalText : List Char) (returnType : Token) (rest : List Char) :
    Token × List Char :=
  if literalText <+: rest then (returnType, rest.drop literalText.length)
  else (.parseError, rest)

def isWhitespace (current : Char) : Bool :=
  current = ' ' || current = '\t' || current = '\n' || current = '\r'

/-- The structural characters. -/
def structural? (current : Char) : Option Token :=
  if current = '[' then some .beginArray
  else if current = ']' then some .endArray
  else if current = '\x7b' then some .beginObject
  else if current = '\x7d' then some .endObject
  else if current = ':' then some .nameSeparator
  else if current = ',' then some .valueSeparator
  else none

/-- The switch of `scan` for the characters that are not structural. -/
def scanOther [Strtod] (current : Char) (rest : List Char) : Token × List Char :=
  if current = 't' then scanLiteral ['r', 'u', 'e'] .literalTrue rest
  else if current = 'f' then scanLiteral ['a', 'l', 's', 'e'] .literalFalse rest
  else if current = 'n' then scanLiteral ['u', 'l', 'l'] .literalNull rest
  else if current = '"' then
    match scanString [] rest with
    | some (tokenBuffer, rest) => (.valueString (String.ofList tokenBuffer), rest)
    | none => (.parseError, rest)
  else if current = '-' ∨ current.isDigit then scanNumber current rest
  -- a NUL ends the text, like the end of the input
  else if current = '\x00' then (.endOfInput, rest)
  else (.parseError, rest)

/-- The switch of `scan`. -/
def scanToken [Strtod] : List Char → Token × List Char
  | [] => (.endOfInput, [])
  | current :: rest =>
      match structural? current with
      | some t => (t, rest)
      | none => scanOther current rest

/-- `scan`, but for the byte order mark. -/
def scan [Strtod] (input : List Char) : Token × List Char :=
  scanToken (input.dropWhile isWhitespace)

/-- `skip_bom`, which the first call of `scan` makes. -/
def skipBom : List Char → List Char
  | [] => []
  | current :: rest => if current = Char.ofNat 0xFEFF then rest else current :: rest

/-! ## What is left of the input -/

theorem length_scanString {tokenBuffer tokenBuffer' input rest : List Char}
    (h : scanString tokenBuffer input = some (tokenBuffer', rest)) :
    rest.length < input.length := by
  fun_induction scanString tokenBuffer input with
  | case2 =>
      simp only [Option.some.injEq, Prod.mk.injEq] at h
      simp [h.2]
  | case5 | case9 | case11 | case14 =>
      rename_i ih
      have hlt := ih h
      simp only [List.length_cons]
      omega
  | _ => simp at h

theorem length_scanNumberFrom {state : NumberState} {numberType numberType' : NumberType}
    {tokenBuffer tokenBuffer' input rest : List Char}
    (h : scanNumberFrom state numberType tokenBuffer input =
      some (numberType', tokenBuffer', rest)) : rest.length ≤ input.length := by
  induction input generalizing state numberType tokenBuffer with
  | nil =>
      simp only [scanNumberFrom] at h
      split_ifs at h
      simp only [Option.some.injEq, Prod.mk.injEq] at h
      simp [← h.2.2]
  | cons current input ih =>
      simp only [scanNumberFrom] at h
      split at h
      · have hle := ih h
        simp only [List.length_cons]
        omega
      · split_ifs at h
        simp only [Option.some.injEq, Prod.mk.injEq] at h
        simp [← h.2.2]

theorem length_scanLiteral (literalText : List Char) (returnType : Token) (rest : List Char) :
    (scanLiteral literalText returnType rest).2.length ≤ rest.length := by
  unfold scanLiteral
  split_ifs
  · simp
  · exact le_rfl

theorem length_skipBom (input : List Char) : (skipBom input).length ≤ input.length := by
  cases input with
  | nil => simp [skipBom]
  | cons current rest =>
      simp only [skipBom]
      split_ifs <;> simp

variable [Strtod]

theorem length_scanNumber (current : Char) (rest : List Char) :
    (scanNumber current rest).2.length ≤ rest.length := by
  simp only [scanNumber]
  split
  · next h => exact length_scanNumberFrom h
  · exact le_rfl

theorem length_scanOther (current : Char) (rest : List Char) :
    (scanOther current rest).2.length ≤ rest.length := by
  unfold scanOther
  split_ifs
  · exact length_scanLiteral _ _ _
  · exact length_scanLiteral _ _ _
  · exact length_scanLiteral _ _ _
  · split
    · next h => exact (length_scanString h).le
    · exact le_rfl
  · exact length_scanNumber _ _
  · exact le_rfl
  · exact le_rfl

/-- A token takes a character, unless it is the end of the input. -/
theorem length_scanToken (input : List Char) :
    (scanToken input).2.length + (scanToken input).1.weight ≤ input.length := by
  cases input with
  | nil => simp [scanToken, Token.weight]
  | cons current rest =>
      cases hs : structural? current with
      | some t =>
          simp only [scanToken, hs]
          exact Nat.add_le_add_left t.weight_le _
      | none =>
          simp only [scanToken, hs]
          exact Nat.add_le_add (length_scanOther _ _) (Token.weight_le _)

theorem length_scan (input : List Char) :
    (scan input).2.length + (scan input).1.weight ≤ input.length :=
  (length_scanToken _).trans (List.length_dropWhile_le _ _)

end Lexer
end ChatCluster
