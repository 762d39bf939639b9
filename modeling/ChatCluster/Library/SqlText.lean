import Mathlib.Data.List.Infix
import Mathlib.Tactic.Common

/-!
# The texts of SQL inserts

A lexer for the part of SQL that inserts of literals are written in, as MySQL reads them:
words, numerals, symbols, and string literals in single quotes with backslash escapes and
doubled quotes. Comments, other quotes and prefixed literals are beyond it. An insert is
printed with its strings escaped, read back from its tokens, and cut anywhere.
-/
namespace SqlText

def ascii (s : String) : List UInt8 := s.toList.map Char.toUInt8

def quote : UInt8 := 39

def backslash : UInt8 := 92

def minus : UInt8 := 45

def isSpace (b : UInt8) : Bool := b = 32 || (9 ≤ b && b ≤ 13)

def isDigit (b : UInt8) : Bool := 48 ≤ b && b ≤ 57

def isWordByte (b : UInt8) : Bool :=
  isDigit b || (65 ≤ b && b ≤ 90) || (97 ≤ b && b ≤ 122) || b = 95 || b = 36 || 128 ≤ b

/-- `"`, `#`, `/` and a backtick: they begin what this lexer does not read. -/
def isForeign (b : UInt8) : Bool := b = 34 || b = 35 || b = 47 || b = 96

/-! ## Escapes -/

/-- A byte as it is written into a literal. -/
def escapeByte (b : UInt8) : List UInt8 :=
  if b = 0 then ascii "\\0"
  else if b = 10 then ascii "\\n"
  else if b = 13 then ascii "\\r"
  else if b = 26 then ascii "\\Z"
  else if b = 34 ∨ b = quote ∨ b = backslash then [backslash, b]
  else [b]

def escape (s : List UInt8) : List UInt8 := s.flatMap escapeByte

/-- What a byte stands for behind a backslash. -/
def unescape (b : UInt8) : List UInt8 :=
  if b = 48 then [0]
  else if b = 98 then [8]
  else if b = 110 then [10]
  else if b = 114 then [13]
  else if b = 116 then [9]
  else if b = 90 then [26]
  else if b = 37 ∨ b = 95 then [backslash, b]
  else [b]

/-! ## The lexer -/

inductive Token where
  | word (w : List UInt8)
  | text (s : List UInt8)
  | symbol (b : UInt8)
deriving DecidableEq, Repr

/-- Where the lexer is; `quoted` is behind a quote that may end a literal. -/
inductive Mode where
  | code
  | word (w : List UInt8)
  | literal (s : List UInt8)
  | escape (s : List UInt8)
  | quoted (s : List UInt8)
  | beyond
deriving DecidableEq, Repr

/-- The token that ends where the lexer is. -/
def Mode.pending : Mode → List Token
  | .word w => [.word w]
  | .quoted s => [.text s]
  | _ => []

/-- The text may end here. -/
def Mode.closed : Mode → Bool
  | .code | .word _ | .quoted _ => true
  | _ => false

def Mode.inLiteral : Mode → Bool
  | .literal _ | .escape _ => true
  | _ => false

/-- The tokens that have ended, and what the lexer is reading. -/
structure Lexer where
  tokens : List Token
  mode : Mode
deriving DecidableEq, Repr

namespace Lexer

/-- The tokens if the text ends here. -/
def all (st : Lexer) : List Token := st.tokens ++ st.mode.pending

/-- A byte that does not go on with a token. A minus begins a numeral. -/
def start (tokens : List Token) (b : UInt8) : Lexer :=
  if isSpace b then ⟨tokens, .code⟩
  else if b = quote then ⟨tokens, .literal []⟩
  else if isWordByte b || b = minus then ⟨tokens, .word [b]⟩
  else if isForeign b then ⟨tokens, .beyond⟩
  else ⟨tokens ++ [.symbol b], .code⟩

def step : Lexer → UInt8 → Lexer
  | ⟨tokens, .code⟩, b => start tokens b
  | ⟨tokens, .word w⟩, b =>
      if isWordByte b then ⟨tokens, .word (w ++ [b])⟩
      -- a prefixed literal or a comment
      else if b = quote ∨ (b = minus ∧ w = [minus]) then ⟨tokens, .beyond⟩
      else start (tokens ++ [.word w]) b
  | ⟨tokens, .literal s⟩, b =>
      if b = quote then ⟨tokens, .quoted s⟩
      else if b = backslash then ⟨tokens, .escape s⟩
      else ⟨tokens, .literal (s ++ [b])⟩
  | ⟨tokens, .escape s⟩, b => ⟨tokens, .literal (s ++ unescape b)⟩
  | ⟨tokens, .quoted s⟩, b =>
      if b = quote then ⟨tokens, .literal (s ++ [quote])⟩
      else start (tokens ++ [.text s]) b
  | ⟨tokens, .beyond⟩, _ => ⟨tokens, .beyond⟩

def run (st : Lexer) (s : List UInt8) : Lexer := s.foldl step st

end Lexer

def lex (s : List UInt8) : Lexer := Lexer.run ⟨[], .code⟩ s

abbrev opening : Token := .symbol 40

abbrev closing : Token := .symbol 41

abbrev comma : Token := .symbol 44

def tokens? (s : List UInt8) : Option (List Token) :=
  if (lex s).mode.closed then some (lex s).all else none

/-- The text ends in a literal, or with a parenthesis that is not closed. -/
def Unfinished (s : List UInt8) : Prop :=
  (lex s).mode.inLiteral = true ∨
    ((lex s).mode ≠ .beyond ∧ (lex s).tokens.count closing < (lex s).tokens.count opening)

instance (s : List UInt8) : Decidable (Unfinished s) := inferInstanceAs (Decidable (_ ∨ _))

/-! ## Runs of the lexer -/

namespace Lexer
variable {st : Lexer} {tokens : List Token}

@[simp] theorem run_nil (st : Lexer) : st.run [] = st := rfl

@[simp] theorem run_cons (st : Lexer) (b : UInt8) (s : List UInt8) :
    st.run (b :: s) = (st.step b).run s := rfl

@[simp] theorem run_append (st : Lexer) (s r : List UInt8) :
    st.run (s ++ r) = (st.run s).run r := List.foldl_append

theorem prefix_start (tokens : List Token) (b : UInt8) : tokens <+: (start tokens b).tokens := by
  unfold start
  split_ifs <;> simp

/-- A token that has ended stays. -/
theorem prefix_step (st : Lexer) (b : UInt8) : st.tokens <+: (st.step b).tokens := by
  obtain ⟨tokens, mode⟩ := st
  cases mode with
  | code => exact prefix_start tokens b
  | word w =>
      simp only [step]
      split_ifs
      · exact List.prefix_rfl
      · exact List.prefix_rfl
      · exact (List.prefix_append _ _).trans (prefix_start _ b)
  | quoted s =>
      simp only [step]
      split_ifs
      · exact List.prefix_rfl
      · exact (List.prefix_append _ _).trans (prefix_start _ b)
  | literal s =>
      simp only [step]
      split_ifs <;> exact List.prefix_rfl
  | escape s => exact List.prefix_rfl
  | beyond => exact List.prefix_rfl

theorem prefix_run (st : Lexer) (s : List UInt8) : st.tokens <+: (st.run s).tokens := by
  induction s generalizing st with
  | nil => exact List.prefix_rfl
  | cons b s ih => exact (prefix_step st b).trans (ih (st.step b))

theorem run_beyond (h : st.mode = .beyond) (s : List UInt8) : (st.run s).mode = .beyond := by
  induction s generalizing st with
  | nil => exact h
  | cons b s ih =>
      apply ih
      obtain ⟨tokens, mode⟩ := st
      subst h
      rfl

/-- A byte that can neither go on with a token nor begin one with a quote. -/
def Separates (b : UInt8) : Prop := isWordByte b = false ∧ b ≠ minus ∧ b ≠ quote

instance (b : UInt8) : Decidable (Separates b) := inferInstanceAs (Decidable (_ ∧ _))

theorem step_of_closed {b : UInt8} (h : st.mode.closed = true) (hb : Separates b) :
    st.step b = start st.all b := by
  obtain ⟨tokens, mode⟩ := st
  obtain ⟨hword, hminus, hquote⟩ := hb
  cases mode with
  | code => simp [step, all, Mode.pending]
  | word w => simp [step, all, Mode.pending, hword, hminus, hquote]
  | quoted s => simp [step, all, Mode.pending, hquote]
  | literal s => cases h
  | escape s => cases h
  | beyond => cases h

theorem step_comma (h : st.mode.closed = true) : st.step 44 = ⟨st.all ++ [comma], .code⟩ :=
  step_of_closed h (by decide)

theorem step_opening (h : st.mode.closed = true) : st.step 40 = ⟨st.all ++ [opening], .code⟩ :=
  step_of_closed h (by decide)

theorem step_closing (h : st.mode.closed = true) : st.step 41 = ⟨st.all ++ [closing], .code⟩ :=
  step_of_closed h (by decide)

/-- A closing parenthesis that is no part of a literal. -/
theorem closed_of_step_closing (h : (st.step 41).mode = .code) : st.mode.closed = true := by
  obtain ⟨tokens, mode⟩ := st
  cases mode with
  | code => rfl
  | word w => rfl
  | quoted s => rfl
  | literal s => simp [step, quote, backslash] at h
  | escape s => simp [step] at h
  | beyond => simp [step] at h

/-- Writing a string into a literal keeps the literal open, and adds the string to it. -/
theorem run_escapeByte (tokens : List Token) (s : List UInt8) (b : UInt8) :
    run ⟨tokens, .literal s⟩ (escapeByte b) = ⟨tokens, .literal (s ++ [b])⟩ := by
  unfold escapeByte
  split_ifs with h0 h10 h13 h26 hself
  · subst h0
    rfl
  · subst h10
    rfl
  · subst h13
    rfl
  · subst h26
    rfl
  · obtain rfl | rfl | rfl := hself
    · rfl
    · rfl
    · rfl
  · have hquote : b ≠ quote := fun h => hself (.inr (.inl h))
    have hbackslash : b ≠ backslash := fun h => hself (.inr (.inr h))
    simp [step, hquote, hbackslash]

theorem run_escape (tokens : List Token) (s r : List UInt8) :
    run ⟨tokens, .literal s⟩ (escape r) = ⟨tokens, .literal (s ++ r)⟩ := by
  induction r generalizing s with
  | nil => simp [escape]
  | cons b r ih =>
      rw [escape, List.flatMap_cons, run_append, run_escapeByte, ← escape, ih]
      simp

theorem run_word (tokens : List Token) (w r : List UInt8) (hr : ∀ b ∈ r, isWordByte b = true) :
    run ⟨tokens, .word w⟩ r = ⟨tokens, .word (w ++ r)⟩ := by
  induction r generalizing w with
  | nil => simp
  | cons b r ih =>
      have hb : isWordByte b = true := hr b List.mem_cons_self
      rw [run_cons, step, if_pos hb, ih _ fun c hc => hr c (List.mem_cons_of_mem b hc)]
      simp

theorem isSpace_of_word {b : UInt8} (hb : isWordByte b = true ∨ b = minus) :
    isSpace b = false := by
  have hlow : ∀ c : UInt8, isSpace c = true → c ≤ 32 := by
    intro c hc
    simp only [isSpace, Bool.or_eq_true, decide_eq_true_eq, Bool.and_eq_true] at hc
    grind
  have hhigh : 32 < b := by
    obtain hb | rfl := hb
    · simp only [isWordByte, isDigit, Bool.or_eq_true, decide_eq_true_eq, Bool.and_eq_true] at hb
      grind
    · decide
  by_contra h
  have hle := hlow b (by simpa using h)
  grind

theorem start_word {b : UInt8} (hb : isWordByte b = true ∨ b = minus) :
    start tokens b = ⟨tokens, .word [b]⟩ := by
  have hquote : b ≠ quote := by
    intro heq
    rw [heq] at hb
    exact absurd hb (by decide)
  have hword : (isWordByte b || b = minus) = true := by simpa using hb
  rw [start, isSpace_of_word hb, if_neg (by decide), if_neg hquote, if_pos hword]

end Lexer

/-! ## Numerals -/

def decimal (n : ℤ) : List UInt8 :=
  (if n < 0 then [minus] else []) ++ (Nat.toDigits 10 n.natAbs).map Char.toUInt8

def natural? (digits : List UInt8) : Option ℕ :=
  if digits ≠ [] ∧ digits.all isDigit then
    some (digits.foldl (fun n b => 10 * n + (b.toNat - 48)) 0)
  else none

def numeral? (w : List UInt8) : Option ℤ :=
  if w.head? = some minus then (natural? w.tail).map fun n : ℕ => -(n : ℤ)
  else (natural? w).map fun n : ℕ => (n : ℤ)

theorem toNat_toUInt8 {c : Char} (h : c.isDigit = true) :
    c.toUInt8.toNat = c.toNat ∧ 48 ≤ c.toNat ∧ c.toNat ≤ 57 := by
  simp only [Char.isDigit, Bool.and_eq_true, decide_eq_true_eq] at h
  have hlow : 48 ≤ c.toNat := UInt32.le_iff_toNat_le.mp h.1
  have hhigh : c.toNat ≤ 57 := UInt32.le_iff_toNat_le.mp h.2
  have hmod : c.toUInt8.toNat = c.toNat % 256 := UInt32.toNat_toUInt8 c.val
  omega

theorem isDigit_of_mem_map {n : ℕ} {b : UInt8}
    (h : b ∈ (Nat.toDigits 10 n).map Char.toUInt8) : isDigit b = true := by
  obtain ⟨c, hc, rfl⟩ := List.mem_map.mp h
  have hdigit := Nat.isDigit_of_mem_toDigits (by decide) (by decide) hc
  obtain ⟨hbyte, hlow, hhigh⟩ := toNat_toUInt8 hdigit
  simp only [isDigit, Bool.and_eq_true, decide_eq_true_eq, UInt8.le_iff_toNat_le, hbyte]
  exact ⟨hlow, hhigh⟩

theorem natural?_toDigits (n : ℕ) :
    natural? ((Nat.toDigits 10 n).map Char.toUInt8) = some n := by
  have hne : (Nat.toDigits 10 n).map Char.toUInt8 ≠ [] := by simp
  have hall : ((Nat.toDigits 10 n).map Char.toUInt8).all isDigit = true :=
    List.all_eq_true.mpr fun b hb => isDigit_of_mem_map hb
  have hvalue : (Nat.toDigits 10 n).foldl (fun n c => 10 * n + (c.toUInt8.toNat - 48)) 0 =
      Nat.ofDigitChars 10 (Nat.toDigits 10 n) 0 := by
    rw [Nat.ofDigitChars_eq_foldl]
    apply List.foldl_ext
    intro m c hc
    have hdigit := Nat.isDigit_of_mem_toDigits (by decide) (by decide) hc
    rw [(toNat_toUInt8 hdigit).1]
    rfl
  rw [natural?, if_pos ⟨hne, hall⟩, List.foldl_map, hvalue, Nat.ofDigitChars_ten_toDigits]

theorem isWordByte_of_isDigit {b : UInt8} (h : isDigit b = true) : isWordByte b = true := by
  simp [isWordByte, h]

theorem head_toDigits_ne_minus (n : ℕ) :
    ((Nat.toDigits 10 n).map Char.toUInt8).head? ≠ some minus := by
  intro h
  have hdigit := isDigit_of_mem_map (List.mem_of_head? h)
  revert hdigit
  decide

theorem numeral?_decimal (n : ℤ) : numeral? (decimal n) = some n := by
  unfold numeral? decimal
  by_cases hneg : n < 0
  · have hvalue : -(n.natAbs : ℤ) = n := by omega
    rw [if_pos hneg, List.singleton_append, List.head?_cons, if_pos rfl, List.tail_cons,
      natural?_toDigits, Option.map_some, hvalue]
  · have hvalue : (n.natAbs : ℤ) = n := by omega
    rw [if_neg hneg, List.nil_append, if_neg (head_toDigits_ne_minus _), natural?_toDigits,
      Option.map_some, hvalue]

namespace Lexer

theorem run_decimal (tokens : List Token) (n : ℤ) :
    run ⟨tokens, .code⟩ (decimal n) = ⟨tokens, .word (decimal n)⟩ := by
  have hword : ∀ b ∈ (Nat.toDigits 10 n.natAbs).map Char.toUInt8, isWordByte b = true :=
    fun b hb => isWordByte_of_isDigit (isDigit_of_mem_map hb)
  have hsplit : ∀ {b r}, decimal n = b :: r → (isWordByte b = true ∨ b = minus) →
      (∀ c ∈ r, isWordByte c = true) →
      run ⟨tokens, .code⟩ (decimal n) = ⟨tokens, .word (decimal n)⟩ := by
    intro b r heq hb hr
    rw [heq, run_cons, step, start_word hb, run_word _ _ _ hr, List.singleton_append]
  by_cases hneg : n < 0
  · exact hsplit (by simp [decimal, hneg]) (.inr rfl) hword
  · have heq : decimal n = (Nat.toDigits 10 n.natAbs).map Char.toUInt8 := by simp [decimal, hneg]
    cases hdigits : decimal n with
    | nil =>
        rw [heq] at hdigits
        simp at hdigits
    | cons b r =>
        rw [← heq, hdigits] at hword
        rw [← hdigits]
        exact hsplit hdigits (.inl (hword b List.mem_cons_self))
          fun c hc => hword c (List.mem_cons_of_mem b hc)

end Lexer

/-! ## Inserts -/

/-- A word that is no numeral with a sign. -/
def IsWord (w : List UInt8) : Prop := w ≠ [] ∧ w.all isWordByte = true

instance (w : List UInt8) : Decidable (IsWord w) := inferInstanceAs (Decidable (_ ∧ _))

abbrev Word := {w : List UInt8 // IsWord w}

inductive Value where
  | text (s : List UInt8)
  | number (n : ℤ)
deriving DecidableEq, Repr

structure Insert where
  table : Word
  columns : List Word
  values : List Value
deriving DecidableEq, Repr

namespace Value

def print : Value → List UInt8
  | .text s => quote :: (escape s ++ [quote])
  | .number n => decimal n

def token : Value → Token
  | .text s => .text s
  | .number n => .word (decimal n)

def ofToken? : Token → Option Value
  | .text s => some (.text s)
  | .word w => (numeral? w).map .number
  | .symbol _ => none

theorem ofToken?_token (v : Value) : ofToken? v.token = some v := by
  cases v with
  | text s => rfl
  | number n => simp [token, ofToken?, numeral?_decimal]

end Value

def Word.token (w : Word) : Token := .word w.1

def Word.ofToken? : Token → Option Word
  | .word w => if h : IsWord w then some ⟨w, h⟩ else none
  | _ => none

theorem Word.ofToken?_token (w : Word) : Word.ofToken? w.token = some w := by
  simp [token, ofToken?, w.2]

/-- A list behind its opening parenthesis, to the closing one. -/
def printItems : List (List UInt8) → List UInt8
  | [] => [41]
  | [v] => v ++ [41]
  | v :: w :: vs => v ++ ascii ", " ++ printItems (w :: vs)

def itemTokens : List Token → List Token
  | [] => [closing]
  | [t] => [t, closing]
  | t :: u :: ts => t :: comma :: itemTokens (u :: ts)

def readItems {α : Type} (item? : Token → Option α) : List Token → Option (List α × List Token)
  | t :: u :: tokens =>
      if u = closing then (item? t).map fun a => ([a], tokens)
      else if u = comma then do
        let a ← item? t
        let later ← readItems item? tokens
        return (a :: later.1, later.2)
      else none
  | _ => none

def readList {α : Type} (item? : Token → Option α) (tokens : List Token) :
    Option (List α × List Token) :=
  if tokens.head? = some closing then some ([], tokens.tail) else readItems item? tokens

def expect (t : Token) : List Token → Option (List Token)
  | [] => none
  | u :: tokens => if u = t then some tokens else none

namespace Insert

def head (i : Insert) : List UInt8 :=
  ascii "insert into " ++ i.table.1 ++ ascii "(" ++ printItems (i.columns.map Subtype.val) ++
    ascii " values("

/-- `insert into table(columns) values(values)` -/
def print (i : Insert) : List UInt8 := i.head ++ printItems (i.values.map Value.print)

def headTokens (i : Insert) : List Token :=
  .word (ascii "insert") :: .word (ascii "into") :: i.table.token :: opening ::
    (itemTokens (i.columns.map Word.token) ++ [.word (ascii "values"), opening])

def toTokens (i : Insert) : List Token := i.headTokens ++ itemTokens (i.values.map Value.token)

def ofTokens? (tokens : List Token) : Option Insert := do
  let tokens ← expect (.word (ascii "insert")) tokens
  let tokens ← expect (.word (ascii "into")) tokens
  let table ← tokens.head?.bind Word.ofToken?
  let tokens ← expect opening tokens.tail
  let columns ← readList Word.ofToken? tokens
  let tokens ← expect (.word (ascii "values")) columns.2
  let tokens ← expect opening tokens
  let values ← readList Value.ofToken? tokens
  if values.2 = [] then return ⟨table, columns.1, values.1⟩ else none

/-- The insert that a text is. -/
def read? (s : List UInt8) : Option Insert := (tokens? s).bind ofTokens?

end Insert

/-! ## What is printed is read back -/

/-- The lexer takes the text for one token, which may end behind it. -/
def OneToken (s : List UInt8) (t : Token) : Prop :=
  ∀ tokens, (Lexer.run ⟨tokens, .code⟩ s).mode.closed = true ∧
    (Lexer.run ⟨tokens, .code⟩ s).all = tokens ++ [t]

theorem Word.oneToken (w : Word) : OneToken w.1 w.token := by
  obtain ⟨w, hne, hword⟩ := w
  intro tokens
  cases w with
  | nil => exact absurd rfl hne
  | cons b r =>
      have hall := List.all_eq_true.mp hword
      have hb : isWordByte b = true := hall b List.mem_cons_self
      have hr : ∀ c ∈ r, isWordByte c = true := fun c hc => hall c (List.mem_cons_of_mem b hc)
      rw [Lexer.run_cons, Lexer.step, Lexer.start_word (.inl hb), Lexer.run_word _ _ _ hr]
      exact ⟨rfl, rfl⟩

theorem Value.oneToken (v : Value) : OneToken v.print v.token := by
  intro tokens
  cases v with
  | text s =>
      have hopen : Lexer.step ⟨tokens, .code⟩ quote = ⟨tokens, .literal []⟩ := rfl
      rw [print, Lexer.run_cons, hopen, Lexer.run_append, Lexer.run_escape]
      exact ⟨rfl, rfl⟩
  | number n =>
      rw [print, Lexer.run_decimal]
      exact ⟨rfl, rfl⟩

theorem Lexer.run_comma {st : Lexer} (h : st.mode.closed = true) :
    st.run (ascii ", ") = ⟨st.all ++ [comma], .code⟩ := by
  have hsteps : st.run (ascii ", ") = (st.step 44).step 32 := rfl
  have hspace : step ⟨st.all ++ [comma], .code⟩ 32 = ⟨st.all ++ [comma], .code⟩ := rfl
  rw [hsteps, step_comma h, hspace]

theorem Lexer.run_printItems {α : Type} {text : α → List UInt8} {token : α → Token}
    (hitem : ∀ a, OneToken (text a) (token a)) (items : List α) (tokens : List Token) :
    run ⟨tokens, .code⟩ (printItems (items.map text)) =
      ⟨tokens ++ itemTokens (items.map token), .code⟩ := by
  induction items generalizing tokens with
  | nil => rfl
  | cons a items ih =>
      obtain ⟨hclosed, hall⟩ := hitem a tokens
      cases items with
      | nil =>
          simp only [List.map_cons, List.map_nil, printItems, itemTokens]
          rw [run_append, run_cons, step_closing hclosed, run_nil, hall]
          simp
      | cons b items =>
          simp only [List.map_cons, printItems, itemTokens] at ih ⊢
          rw [run_append, run_append, run_comma hclosed, hall, ih]
          simp

theorem readItems_itemTokens {α : Type} {item? : Token → Option α} {token : α → Token}
    (hitem : ∀ a, item? (token a) = some a) (a : α) (items : List α) (rest : List Token) :
    readItems item? (itemTokens ((a :: items).map token) ++ rest) = some (a :: items, rest) := by
  induction items generalizing a with
  | nil => simp [itemTokens, readItems, hitem]
  | cons b items ih =>
      have hcomma : comma ≠ closing := by decide
      have hlater := ih b
      simp only [List.map_cons] at hlater
      simp [itemTokens, readItems, hitem, hcomma, hlater]

theorem head_itemTokens {α : Type} {token : α → Token} {a : α} (hne : token a ≠ closing)
    (items : List α) (rest : List Token) :
    (itemTokens ((a :: items).map token) ++ rest).head? ≠ some closing := by
  cases items with
  | nil => simp [itemTokens, hne]
  | cons b items => simp [itemTokens, hne]

theorem readList_itemTokens {α : Type} {item? : Token → Option α} {token : α → Token}
    (hitem : ∀ a, item? (token a) = some a) (hnone : item? closing = none) (items : List α)
    (rest : List Token) :
    readList item? (itemTokens (items.map token) ++ rest) = some (items, rest) := by
  cases items with
  | nil => simp [itemTokens, readList]
  | cons a items =>
      have hne : token a ≠ closing := by
        intro h
        have := hitem a
        rw [h, hnone] at this
        cases this
      rw [readList, if_neg (head_itemTokens hne items rest),
        readItems_itemTokens hitem]

namespace Insert
variable (i : Insert)

theorem lex_head : lex i.head = ⟨i.headTokens, .code⟩ := by
  have hinto : lex (ascii "insert into ") =
      ⟨[.word (ascii "insert"), .word (ascii "into")], .code⟩ := by decide
  obtain ⟨hclosed, hall⟩ := Word.oneToken i.table (lex (ascii "insert into ")).tokens
  have hopen : ∀ {st : Lexer}, st.mode.closed = true →
      st.run (ascii "(") = ⟨st.all ++ [opening], .code⟩ := fun h => Lexer.step_opening h
  have hvalues : ∀ tokens, Lexer.run ⟨tokens, .code⟩ (ascii " values(") =
      ⟨tokens ++ [.word (ascii "values"), opening], .code⟩ := by
    intro tokens
    have hsplit : ascii " values(" = 32 :: (ascii "values" ++ ascii "(") := by decide
    have hword := Word.oneToken ⟨ascii "values", by decide⟩ tokens
    have hspace : Lexer.step ⟨tokens, .code⟩ 32 = ⟨tokens, .code⟩ := rfl
    rw [hsplit, Lexer.run_cons, hspace, Lexer.run_append, hopen hword.1, hword.2]
    simp [Word.token]
  unfold lex at *
  rw [hinto] at hclosed hall
  rw [head, Lexer.run_append, Lexer.run_append, Lexer.run_append, Lexer.run_append, hinto,
    hopen hclosed, hall, Lexer.run_printItems Word.oneToken, hvalues]
  simp [headTokens]

theorem lex_print : lex i.print = ⟨i.toTokens, .code⟩ := by
  have hhead := i.lex_head
  unfold lex at *
  rw [print, Lexer.run_append, hhead, Lexer.run_printItems Value.oneToken, toTokens]

theorem ofTokens?_toTokens : ofTokens? i.toTokens = some i := by
  have hcolumns := readList_itemTokens Word.ofToken?_token rfl i.columns
    (.word (ascii "values") :: opening :: itemTokens (i.values.map Value.token))
  have hvalues := readList_itemTokens Value.ofToken?_token rfl i.values []
  rw [List.append_nil] at hvalues
  simp [ofTokens?, toTokens, headTokens, expect, Word.ofToken?_token, hcolumns, hvalues]

/-- An insert is read back as it was printed. -/
theorem read?_print : read? i.print = some i := by
  rw [read?, tokens?, i.lex_print]
  have hall : Lexer.all ⟨i.toTokens, .code⟩ = i.toTokens := List.append_nil _
  exact (congrArg ofTokens? hall).trans i.ofTokens?_toTokens

end Insert

/-! ## No NUL is printed -/

theorem zero_notMem_escape (s : List UInt8) : 0 ∉ escape s := by
  intro h
  obtain ⟨b, -, hb⟩ := List.mem_flatMap.mp h
  unfold escapeByte at hb
  split_ifs at hb with h0 h10 h13 h26 hself
  · exact absurd hb (by decide)
  · exact absurd hb (by decide)
  · exact absurd hb (by decide)
  · exact absurd hb (by decide)
  · obtain rfl | rfl | rfl := hself <;> simp [quote, backslash] at hb
  · exact h0 (List.mem_singleton.mp hb).symm

theorem Value.zero_notMem_print (v : Value) : 0 ∉ v.print := by
  cases v with
  | text s => simp [print, quote, zero_notMem_escape]
  | number n =>
      have hdigits : 0 ∉ (Nat.toDigits 10 n.natAbs).map Char.toUInt8 := by
        intro h
        have hdigit := isDigit_of_mem_map h
        revert hdigit
        decide
      rw [print, decimal, List.mem_append]
      split_ifs <;> simp [hdigits, minus]

theorem zero_notMem_printItems (items : List (List UInt8)) (h : ∀ v ∈ items, 0 ∉ v) :
    0 ∉ printItems items := by
  induction items with
  | nil => simp [printItems]
  | cons v items ih =>
      have hv : 0 ∉ v := h v List.mem_cons_self
      have hrest := ih fun w hw => h w (List.mem_cons_of_mem v hw)
      have hsep : (0 : UInt8) ∉ ascii ", " := by decide
      cases items with
      | nil => simp [printItems, hv]
      | cons w items => simp [printItems, hv, hsep, hrest]

/-- The text of an insert has no NUL. -/
theorem Insert.zero_notMem_print (i : Insert) : 0 ∉ i.print := by
  have hword : ∀ w : Word, 0 ∉ w.1 :=
    fun w h => absurd (List.all_eq_true.mp w.2.2 0 h) (by decide)
  have hcolumns : 0 ∉ printItems (i.columns.map Subtype.val) := by
    apply zero_notMem_printItems
    intro w hw
    obtain ⟨w, -, rfl⟩ := List.mem_map.mp hw
    exact hword w
  have hvalues : 0 ∉ printItems (i.values.map Value.print) := by
    apply zero_notMem_printItems
    intro v hv
    obtain ⟨v, -, rfl⟩ := List.mem_map.mp hv
    exact v.zero_notMem_print
  have hinto : (0 : UInt8) ∉ ascii "insert into " := by decide
  have hopen : (0 : UInt8) ∉ ascii "(" := by decide
  have hkeyword : (0 : UInt8) ∉ ascii " values(" := by decide
  simp only [Insert.print, Insert.head, List.mem_append, hinto, hword, hopen, hcolumns, hkeyword,
    hvalues, or_false, not_false_eq_true]

/-! ## What is unfinished is no insert -/

@[simp] theorem count_symbol (a b : UInt8) (tokens : List Token) :
    (Token.symbol a :: tokens).count (.symbol b) =
      tokens.count (.symbol b) + if a = b then 1 else 0 := by
  simp [List.count_cons]

theorem eq_cons_of_expect {t : Token} {tokens rest : List Token}
    (h : expect t tokens = some rest) : tokens = t :: rest := by
  cases tokens with
  | nil => simp [expect] at h
  | cons u tokens =>
      by_cases hu : u = t
      · simp only [expect, hu, if_true, Option.some.injEq] at h
        rw [hu, h]
      · simp [expect, hu] at h

section ReadList
variable {α : Type} {item? : Token → Option α}

/-- An item is no symbol. -/
theorem count_item (hitem : ∀ b, item? (.symbol b) = none) {t : Token} {a : α}
    (h : item? t = some a) (b : UInt8) (tokens : List Token) :
    (t :: tokens).count (.symbol b) = tokens.count (.symbol b) := by
  cases t with
  | word w => simp
  | text s => simp
  | symbol c =>
      rw [hitem] at h
      cases h

/-- A list closes one parenthesis and opens none. -/
theorem count_readItems (hitem : ∀ b, item? (.symbol b) = none) {tokens : List Token}
    {items : List α × List Token} (h : readItems item? tokens = some items) :
    tokens.count closing = items.2.count closing + 1 ∧
      tokens.count opening = items.2.count opening := by
  fun_induction readItems item? tokens generalizing items with
  | case1 t tokens =>
      obtain ⟨a, ha, rfl⟩ := Option.map_eq_some_iff.mp h
      rw [count_item hitem ha, count_item hitem ha]
      simp
  | case2 t tokens hne ih =>
      obtain ⟨a, ha, hlater⟩ := Option.bind_eq_some_iff.mp h
      obtain ⟨later, hread, hitems⟩ := Option.bind_eq_some_iff.mp hlater
      cases hitems
      obtain ⟨hclosing, hopening⟩ := ih hread
      rw [count_item hitem ha, count_item hitem ha]
      simpa using And.intro hclosing hopening
  | case3 => cases h
  | case4 => cases h

theorem count_readList (hitem : ∀ b, item? (.symbol b) = none) {tokens : List Token}
    {items : List α × List Token} (h : readList item? tokens = some items) :
    tokens.count closing = items.2.count closing + 1 ∧
      tokens.count opening = items.2.count opening := by
  unfold readList at h
  split_ifs at h with hhead
  · obtain ⟨tail, rfl⟩ := List.head?_eq_some_iff.mp hhead
    cases h
    simp
  · exact count_readItems hitem h

end ReadList

/-- The parentheses of an insert are closed. -/
theorem Insert.count_of_ofTokens? {tokens : List Token} {i : Insert}
    (h : ofTokens? tokens = some i) : tokens.count closing = tokens.count opening := by
  obtain ⟨t₁, h₁, h⟩ := Option.bind_eq_some_iff.mp h
  obtain ⟨t₂, h₂, h⟩ := Option.bind_eq_some_iff.mp h
  obtain ⟨table, htable, h⟩ := Option.bind_eq_some_iff.mp h
  obtain ⟨t₃, h₃, h⟩ := Option.bind_eq_some_iff.mp h
  obtain ⟨columns, hcolumns, h⟩ := Option.bind_eq_some_iff.mp h
  obtain ⟨t₄, h₄, h⟩ := Option.bind_eq_some_iff.mp h
  obtain ⟨t₅, h₅, h⟩ := Option.bind_eq_some_iff.mp h
  obtain ⟨values, hvalues, h⟩ := Option.bind_eq_some_iff.mp h
  have hend : values.2 = [] := by
    by_contra hne
    simp [hne] at h
  obtain ⟨word, hword, hofToken⟩ := Option.bind_eq_some_iff.mp htable
  obtain ⟨hclose, hopen⟩ := count_readList (fun _ => rfl) hcolumns
  obtain ⟨hclose', hopen'⟩ := count_readList (fun _ => rfl) hvalues
  obtain ⟨tail, rfl⟩ := List.head?_eq_some_iff.mp hword
  have htail : tail = opening :: t₃ := eq_cons_of_expect h₃
  have hclosing : (word :: opening :: t₃).count closing = (opening :: t₃).count closing :=
    count_item (fun _ => rfl) hofToken 41 _
  have hopening : (word :: opening :: t₃).count opening = (opening :: t₃).count opening :=
    count_item (fun _ => rfl) hofToken 40 _
  rw [eq_cons_of_expect h₄, eq_cons_of_expect h₅] at hclose hopen
  rw [hend] at hclose' hopen'
  rw [eq_cons_of_expect h₁, eq_cons_of_expect h₂, htail]
  simp at hclose hopen hclose' hopen' hclosing hopening ⊢
  omega

theorem Lexer.count_all (st : Lexer) (b : UInt8) :
    st.all.count (.symbol b) = st.tokens.count (.symbol b) := by
  rw [all, List.count_append]
  cases st.mode <;> simp [Mode.pending]

theorem Unfinished.read?_eq_none {s : List UInt8} (h : Unfinished s) : Insert.read? s = none := by
  unfold Insert.read? tokens?
  split_ifs with hclosed
  · obtain hliteral | ⟨-, hless⟩ := h
    · cases hmode : (lex s).mode <;> simp_all [Mode.closed, Mode.inLiteral]
    · rw [Option.bind_some]
      cases hread : Insert.ofTokens? (lex s).all with
      | none => rfl
      | some i =>
          have hcount := Insert.count_of_ofTokens? hread
          have hclosing : (lex s).all.count closing = (lex s).tokens.count closing :=
            (lex s).count_all 41
          have hopening : (lex s).all.count opening = (lex s).tokens.count opening :=
            (lex s).count_all 40
          omega
  · rfl

/-! ## A text that is cut -/

theorem count_itemTokens {tokens : List Token} (h : ∀ t ∈ tokens, ∀ b, t ≠ .symbol b) :
    (itemTokens tokens).count closing = 1 ∧ (itemTokens tokens).count opening = 0 := by
  induction tokens with
  | nil => decide
  | cons t tokens ih =>
      have ht : ∀ b, t ≠ .symbol b := h t List.mem_cons_self
      obtain ⟨hclosing, hopening⟩ := ih fun u hu => h u (List.mem_cons_of_mem t hu)
      cases tokens with
      | nil => simp [itemTokens, List.count_cons_of_ne (ht _)]
      | cons u tokens => simp [itemTokens, List.count_cons_of_ne (ht _), hclosing, hopening]

theorem exists_printItems (items : List (List UInt8)) :
    ∃ body, printItems items = body ++ [41] := by
  induction items with
  | nil => exact ⟨[], rfl⟩
  | cons v items ih =>
      obtain ⟨body, hbody⟩ := ih
      cases items with
      | nil => exact ⟨v, rfl⟩
      | cons w items => exact ⟨v ++ ascii ", " ++ body, by simp [printItems, hbody]⟩

/-- If a closing parenthesis at the end closes no more than `head` has opened, every part
of the text from `head` on is unfinished. -/
theorem unfinished_of_prefix {head p s : List UInt8} (hcode : (lex (s ++ [41])).mode = .code)
    (hcount : (lex (s ++ [41])).tokens.count closing ≤ (lex head).tokens.count opening)
    (hhead : head <+: p) (hp : p <+: s) : Unfinished p := by
  obtain ⟨q, rfl⟩ := hhead
  obtain ⟨r, rfl⟩ := hp
  have hlast : lex (head ++ q ++ r ++ [41]) = (lex (head ++ q ++ r)).step 41 := by
    simp [lex]
  have hclosed : (lex (head ++ q ++ r)).mode.closed = true := by
    apply Lexer.closed_of_step_closing
    rw [← hlast, hcode]
  have hbefore : (lex (head ++ q ++ r)).tokens.count closing + 1 =
      (lex (head ++ q ++ r ++ [41])).tokens.count closing := by
    rw [hlast, Lexer.step_closing hclosed, List.count_append, Lexer.count_all]
    simp
  have hq : (lex head).tokens.count opening ≤ (lex (head ++ q)).tokens.count opening := by
    have hstart := Lexer.prefix_run (lex head) q
    rw [lex, lex, Lexer.run_append]
    exact hstart.sublist.count_le opening
  have hr : (lex (head ++ q)).tokens.count closing ≤ (lex (head ++ q ++ r)).tokens.count closing := by
    have hstart := Lexer.prefix_run (lex (head ++ q)) r
    rw [lex, lex, Lexer.run_append ⟨[], .code⟩ (head ++ q)]
    exact hstart.sublist.count_le closing
  right
  constructor
  · intro hbeyond
    have hstays := Lexer.run_beyond hbeyond (r ++ [41])
    have hsame : (lex (head ++ q)).run (r ++ [41]) = lex (head ++ q ++ r ++ [41]) := by
      simp [lex]
    rw [hsame, hcode] at hstays
    cases hstays
  · omega

namespace Insert

variable (i : Insert)

theorem count_headTokens :
    i.headTokens.count closing = 1 ∧ i.headTokens.count opening = 2 := by
  have hcolumns : ∀ t ∈ i.columns.map Word.token, ∀ b, t ≠ .symbol b := by
    intro t ht b heq
    subst heq
    obtain ⟨w, -, hw⟩ := List.mem_map.mp ht
    cases hw
  obtain ⟨hclosing, hopening⟩ := count_itemTokens hcolumns
  rw [headTokens]
  generalize itemTokens (i.columns.map Word.token) = columns at hclosing hopening
  simp [Word.token, List.count_append, hclosing, hopening]

theorem count_toTokens : i.toTokens.count closing = 2 := by
  have hvalues : ∀ t ∈ i.values.map Value.token, ∀ b, t ≠ .symbol b := by
    intro t ht b heq
    subst heq
    obtain ⟨v, -, hv⟩ := List.mem_map.mp ht
    cases v <;> cases hv
  rw [toTokens, List.count_append, (count_headTokens i).1, (count_itemTokens hvalues).1]

/-- An insert that is cut somewhere among its values is unfinished. -/
theorem unfinished_of_cut {p : List UInt8} (hhead : i.head <+: p) (hp : p <+: i.print)
    (hne : p ≠ i.print) : Unfinished p := by
  obtain ⟨body, hitems⟩ := exists_printItems (i.values.map Value.print)
  have hbody : i.print = i.head ++ body ++ [41] := by rw [print, hitems, List.append_assoc]
  have hshort : p <+: i.head ++ body := by
    rw [hbody] at hp hne
    exact (List.prefix_concat_iff.mp hp).resolve_left hne
  have hlex := i.lex_print
  rw [hbody] at hlex
  apply unfinished_of_prefix _ _ hhead hshort
  · rw [hlex]
  · rw [hlex, i.lex_head, (count_headTokens i).2]
    exact i.count_toTokens.le

end Insert

end SqlText
