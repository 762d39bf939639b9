import ChatCluster.JsonLexer
import ChatCluster.Library.Loop

/-!
# The JSON parser

`sax_parse_internal` of the vendored `json.hpp`, with the handler that builds the value,
`json_sax_dom_parser`. The containers that are open are a stack; a container that ends is a
value of the one below it. A key that an object has already gets the later value.

The grammar beside it says which sequences of tokens are which values. The parser accepts
exactly these.
-/
namespace ChatCluster
open Loop (Turn Turns)

/-- An array or an object whose end has not been read. An object knows the key that the
next value is for. -/
inductive Opened where
  | array (elements : List Json)
  | object (fields : List (String × Json)) (objectElement : String)

namespace Parser

/-- The variables of the loop. `stack` is both `states` and `ref_stack`. -/
structure State where
  input : List Char
  lastToken : Token
  stack : List Opened
  root : Json
  skipToStateEvaluation : Bool

namespace State

def getToken [Strtod] (s : State) : State :=
  { s with lastToken := (Lexer.scan s.input).1, input := (Lexer.scan s.input).2 }

/-- `handle_value` -/
def handleValue (s : State) (v : Json) : State :=
  match s.stack with
  | [] => { s with root := v }
  | .array elements :: outer => { s with stack := .array (elements ++ [v]) :: outer }
  | .object fields objectElement :: outer =>
      { s with stack := .object (Json.setField objectElement v fields) objectElement :: outer }

/-- A value is complete: the states are evaluated next. -/
def complete (s : State) (v : Json) : State :=
  { s.handleValue v with skipToStateEvaluation := true }

@[simp] theorem input_complete (s : State) (v : Json) : (s.complete v).input = s.input := by
  unfold complete handleValue
  split <;> rfl

@[simp] theorem skip_complete (s : State) (v : Json) :
    (s.complete v).skipToStateEvaluation = true := rfl

/-- A value in the innermost of these containers comes next. -/
def expect (s : State) (stack : List Opened) : State :=
  { s with stack, skipToStateEvaluation := false }

end State

/-- What the loop leaves with: the value and the rest of the text, or `none` for an
exception. -/
abbrev Result := Option (Json × List Char)

/-- The tokens that are a value. -/
def scalar? : Token → Option Json
  | .literalTrue => some (.boolean true)
  | .literalFalse => some (.boolean false)
  | .literalNull => some .null
  | .valueString s => some (.string s)
  | .valueUnsigned v => some (.integer v)
  | .valueInteger v => some (.integer v)
  -- a number that is not finite is out of range
  | .valueFloat x => x.map Json.float
  | _ => none

section
variable [Strtod]

/-- A key, which is the token just read, and the separator after it. -/
def parseKey (s : State) (fields : List (String × Json)) (outer : List Opened) :
    Turn State Result :=
  match s.lastToken, s.getToken.lastToken with
  | .valueString key, .nameSeparator => .next (s.getToken.getToken.expect (.object fields key :: outer))
  | _, _ => .done none

/-- The switch on the last token. -/
def parseValue (s : State) : Turn State Result :=
  match s.lastToken with
  | .beginObject =>
      match s.getToken.lastToken with
      | .endObject => .next (s.getToken.complete (.object []))
      | _ => parseKey s.getToken [] s.stack
  | .beginArray =>
      match s.getToken.lastToken with
      | .endArray => .next (s.getToken.complete (.array []))
      | _ => .next (s.getToken.expect (.array [] :: s.stack))
  | t =>
      match scalar? t with
      | some v => .next (s.complete v)
      | none => .done none

/-- The end of the loop's body: what follows a value. -/
def evaluateState (s : State) : Turn State Result :=
  match s.stack with
  | [] => .done (some (s.root, s.input))
  | .array elements :: outer =>
      match s.getToken.lastToken with
      | .valueSeparator => .next (s.getToken.getToken.expect s.stack)
      | .endArray => .next ({ s.getToken with stack := outer }.complete (.array elements))
      | _ => .done none
  | .object fields _ :: outer =>
      match s.getToken.lastToken with
      | .valueSeparator => parseKey s.getToken.getToken fields outer
      | .endObject => .next ({ s.getToken with stack := outer }.complete (.object fields))
      | _ => .done none

/-- One turn of the loop. The source goes on to the states in the turn of a value. -/
def turn (s : State) : Turn State Result :=
  if s.skipToStateEvaluation then evaluateState s else parseValue s

/-- The constructor reads the first token. -/
def start (input : List Char) : State :=
  State.getToken ⟨Lexer.skipBom input, .endOfInput, [], .null, false⟩

/-- More turns than any text of this length takes. -/
def bound (input : List Char) : ℕ := 2 * input.length + 2

/-- `json::parse`, in strict mode: nothing but white space may follow the value. -/
def parse (text : String) : Option Json :=
  match Loop.run turn (bound text.toList) (start text.toList) with
  | some (some (root, input)) =>
      match (Lexer.scan input).1 with
      | .endOfInput => some root
      | _ => none
  | _ => none

/-! ## What one turn does -/

/-- A key and its separator come next. -/
def State.AtKey (s : State) (key : String) : Prop :=
  s.lastToken = .valueString key ∧ s.getToken.lastToken = .nameSeparator

/-- The turns after which the loop goes on. -/
inductive Moves (s : State) : State → Prop
  | scalar (v : Json) : s.skipToStateEvaluation = false → scalar? s.lastToken = some v →
      Moves s (s.complete v)
  | emptyObject : s.skipToStateEvaluation = false → s.lastToken = .beginObject →
      s.getToken.lastToken = .endObject → Moves s (s.getToken.complete (.object []))
  | firstKey (key : String) : s.skipToStateEvaluation = false → s.lastToken = .beginObject →
      s.getToken.AtKey key →
      Moves s (s.getToken.getToken.getToken.expect (.object [] key :: s.stack))
  | emptyArray : s.skipToStateEvaluation = false → s.lastToken = .beginArray →
      s.getToken.lastToken = .endArray → Moves s (s.getToken.complete (.array []))
  | firstElement : s.skipToStateEvaluation = false → s.lastToken = .beginArray →
      s.getToken.lastToken ≠ .endArray → Moves s (s.getToken.expect (.array [] :: s.stack))
  | nextElement (elements : List Json) (outer : List Opened) :
      s.skipToStateEvaluation = true → s.stack = .array elements :: outer →
      s.getToken.lastToken = .valueSeparator → Moves s (s.getToken.getToken.expect s.stack)
  | endArray (elements : List Json) (outer : List Opened) :
      s.skipToStateEvaluation = true → s.stack = .array elements :: outer →
      s.getToken.lastToken = .endArray →
      Moves s ({ s.getToken with stack := outer }.complete (.array elements))
  | nextKey (fields : List (String × Json)) (objectElement key : String) (outer : List Opened) :
      s.skipToStateEvaluation = true → s.stack = .object fields objectElement :: outer →
      s.getToken.lastToken = .valueSeparator → s.getToken.getToken.AtKey key →
      Moves s (s.getToken.getToken.getToken.getToken.expect (.object fields key :: outer))
  | endObject (fields : List (String × Json)) (objectElement : String) (outer : List Opened) :
      s.skipToStateEvaluation = true → s.stack = .object fields objectElement :: outer →
      s.getToken.lastToken = .endObject →
      Moves s ({ s.getToken with stack := outer }.complete (.object fields))

theorem parseKey_of_atKey {s : State} {key : String} (h : s.AtKey key)
    (fields : List (String × Json)) (outer : List Opened) :
    parseKey s fields outer = .next (s.getToken.getToken.expect (.object fields key :: outer)) := by
  simp [parseKey, h.1, h.2]

theorem atKey_of_parseKey {s t : State} {fields : List (String × Json)} {outer : List Opened}
    (h : parseKey s fields outer = .next t) :
    ∃ key, s.AtKey key ∧ t = s.getToken.getToken.expect (.object fields key :: outer) := by
  unfold parseKey at h
  split at h
  · next key hkey hseparator => exact ⟨key, ⟨hkey, hseparator⟩, (Turn.next.inj h).symm⟩
  · simp at h

theorem Moves.turn_eq {s t : State} (h : Moves s t) : turn s = .next t := by
  cases h with
  | scalar v hskip hscalar =>
      rw [turn, hskip, if_neg Bool.false_ne_true]
      unfold parseValue
      split
      · next hlast => simp [hlast, scalar?] at hscalar
      · next hlast => simp [hlast, scalar?] at hscalar
      · simp [hscalar]
  | emptyObject hskip hlast hend => simp [turn, hskip, parseValue, hlast, hend]
  | firstKey key hskip hlast hkey =>
      simp [turn, hskip, parseValue, hlast, hkey.1, parseKey_of_atKey hkey]
  | emptyArray hskip hlast hend => simp [turn, hskip, parseValue, hlast, hend]
  | firstElement hskip hlast hend =>
      simp only [turn, hskip, parseValue, hlast]
      simp
  | nextElement elements outer hskip hstack hcomma =>
      simp [turn, hskip, evaluateState, hstack, hcomma]
  | endArray elements outer hskip hstack hend =>
      simp [turn, hskip, evaluateState, hstack, hend]
  | nextKey fields objectElement key outer hskip hstack hcomma hkey =>
      simp [turn, hskip, evaluateState, hstack, hcomma, parseKey_of_atKey hkey]
  | endObject fields objectElement outer hskip hstack hend =>
      simp [turn, hskip, evaluateState, hstack, hend]

theorem moves_of_turn {s t : State} (h : turn s = .next t) : Moves s t := by
  unfold turn at h
  split_ifs at h with hskip
  · unfold evaluateState at h
    split at h
    · simp at h
    · next elements outer hstack =>
        split at h
        · next hcomma =>
            rw [← Turn.next.inj h]
            exact .nextElement elements outer hskip hstack hcomma
        · next hend =>
            rw [← Turn.next.inj h]
            exact .endArray elements outer hskip hstack hend
        · simp at h
    · next fields objectElement outer hstack =>
        split at h
        · next hcomma =>
            obtain ⟨key, hkey, rfl⟩ := atKey_of_parseKey h
            exact .nextKey fields objectElement key outer hskip hstack hcomma hkey
        · next hend =>
            rw [← Turn.next.inj h]
            exact .endObject fields objectElement outer hskip hstack hend
        · simp at h
  · rw [Bool.not_eq_true] at hskip
    unfold parseValue at h
    split at h
    · next hlast =>
        split at h
        · next hend =>
            rw [← Turn.next.inj h]
            exact .emptyObject hskip hlast hend
        · obtain ⟨key, hkey, rfl⟩ := atKey_of_parseKey h
          exact .firstKey key hskip hlast hkey
    · next hlast =>
        split at h
        · next hend =>
            rw [← Turn.next.inj h]
            exact .emptyArray hskip hlast hend
        · next hend =>
            rw [← Turn.next.inj h]
            exact .firstElement hskip hlast hend
    · split at h
      · next v hscalar =>
          rw [← Turn.next.inj h]
          exact .scalar v hskip hscalar
      · simp at h

/-! ## The loop ends -/

/-- Every turn takes a token or goes on to the states. -/
def variant (s : State) : ℕ :=
  if s.skipToStateEvaluation then 2 * s.input.length + 2
  else 2 * (s.input.length + s.lastToken.weight) + 1

theorem length_getToken (s : State) :
    s.getToken.input.length + s.getToken.lastToken.weight ≤ s.input.length :=
  Lexer.length_scan s.input

omit [Strtod] in
theorem variant_complete (s : State) (v : Json) :
    variant (s.complete v) = 2 * s.input.length + 2 := by
  simp [variant]

omit [Strtod] in
theorem variant_expect (s : State) (stack : List Opened) :
    variant (s.expect stack) = 2 * (s.input.length + s.lastToken.weight) + 1 := by
  simp [variant, State.expect]

omit [Strtod] in
theorem weight_of_scalar {t : Token} {v : Json} (h : scalar? t = some v) : t.weight = 1 := by
  cases t <;> first | rfl | simp [scalar?] at h

/-- A state whose last token is not the end of the input. -/
theorem length_of_token {s : State} {t : Token} (h : s.getToken.lastToken = t)
    (ht : t.weight = 1) : s.getToken.input.length + 1 ≤ s.input.length := by
  have hget := length_getToken s
  rw [h, ht] at hget
  exact hget

theorem Moves.variant_lt {s t : State} (h : Moves s t) : variant t < variant s := by
  have hlength := length_getToken
  cases h with
  | scalar v hskip hscalar =>
      rw [variant_complete, variant, hskip, weight_of_scalar hscalar, if_neg Bool.false_ne_true]
      omega
  | emptyObject hskip hlast hend =>
      have h₁ := length_of_token hend rfl
      rw [variant_complete, variant, hskip, if_neg Bool.false_ne_true]
      omega
  | firstKey key hskip hlast hkey =>
      have h₁ := length_of_token hkey.1 rfl
      have h₂ := length_of_token hkey.2 rfl
      have h₃ := hlength s.getToken.getToken
      rw [variant_expect, variant, hskip, if_neg Bool.false_ne_true]
      omega
  | emptyArray hskip hlast hend =>
      have h₁ := length_of_token hend rfl
      rw [variant_complete, variant, hskip, if_neg Bool.false_ne_true]
      omega
  | firstElement hskip hlast hend =>
      have h₁ := hlength s
      have hweight : s.lastToken.weight = 1 := by rw [hlast]; rfl
      rw [variant_expect, variant, hskip, hweight, if_neg Bool.false_ne_true]
      omega
  | nextElement elements outer hskip hstack hcomma =>
      have h₁ := length_of_token hcomma rfl
      have h₂ := hlength s.getToken
      rw [variant_expect, variant, hskip, if_pos rfl]
      omega
  | endArray elements outer hskip hstack hend =>
      have h₁ := length_of_token hend rfl
      rw [variant_complete, variant, hskip, if_pos rfl]
      simp only
      omega
  | nextKey fields objectElement key outer hskip hstack hcomma hkey =>
      have h₁ := length_of_token hcomma rfl
      have h₂ := length_of_token hkey.1 rfl
      have h₃ := length_of_token hkey.2 rfl
      have h₄ := hlength s.getToken.getToken.getToken
      rw [variant_expect, variant, hskip, if_pos rfl]
      omega
  | endObject fields objectElement outer hskip hstack hend =>
      have h₁ := length_of_token hend rfl
      rw [variant_complete, variant, hskip, if_pos rfl]
      simp only
      omega

theorem variant_turn (s t : State) (h : turn s = .next t) : variant t < variant s :=
  (moves_of_turn h).variant_lt

theorem variant_start (input : List Char) : variant (start input) < bound input := by
  have h₁ := Lexer.length_scan (Lexer.skipBom input)
  have h₂ := Lexer.length_skipBom input
  simp only [start, variant, State.getToken, Bool.false_eq_true, if_false, bound]
  omega

/-! ## The grammar -/

end

/-- What a sequence of tokens can be: a value, or the elements or the members of a
container that has any. -/
inductive Phrase where
  | value (v : Json)
  | elements (xs : List Json)
  | members (fields : List (String × Json))

/-- The grammar. Where two members have one key, the later value stands. -/
inductive Derives : List Token → Phrase → Prop
  | scalar {t : Token} {v : Json} : scalar? t = some v → Derives [t] (.value v)
  | emptyArray : Derives [.beginArray, .endArray] (.value (.array []))
  | array {ts : List Token} {xs : List Json} : Derives ts (.elements xs) →
      Derives (.beginArray :: (ts ++ [.endArray])) (.value (.array xs))
  | emptyObject : Derives [.beginObject, .endObject] (.value (.object []))
  | object {ts : List Token} {fields : List (String × Json)} : Derives ts (.members fields) →
      Derives (.beginObject :: (ts ++ [.endObject])) (.value (.object fields))
  | element {ts : List Token} {v : Json} : Derives ts (.value v) → Derives ts (.elements [v])
  | elements {ts us : List Token} {xs : List Json} {v : Json} : Derives ts (.elements xs) →
      Derives us (.value v) → Derives (ts ++ .valueSeparator :: us) (.elements (xs ++ [v]))
  | member (key : String) {ts : List Token} {v : Json} : Derives ts (.value v) →
      Derives (.valueString key :: .nameSeparator :: ts) (.members [(key, v)])
  | members (key : String) {ts us : List Token} {fields : List (String × Json)} {v : Json} :
      Derives ts (.members fields) → Derives us (.value v) →
      Derives (ts ++ .valueSeparator :: .valueString key :: .nameSeparator :: us)
        (.members (Json.setField key v fields))

section
variable [Strtod]

/-- The scanner reads these tokens, one after the other. -/
inductive Reads : List Char → List Token → List Char → Prop
  | nil (input : List Char) : Reads input [] input
  | cons {input rest : List Char} {ts : List Token} : Reads (Lexer.scan input).2 ts rest →
      Reads input ((Lexer.scan input).1 :: ts) rest

theorem Reads.append {input middle rest : List Char} {ts us : List Token}
    (h : Reads input ts middle) (h' : Reads middle us rest) : Reads input (ts ++ us) rest := by
  induction h with
  | nil => exact h'
  | cons _ ih => exact .cons (ih h')

theorem Reads.split {input rest : List Char} {ts us : List Token}
    (h : Reads input (ts ++ us) rest) : ∃ middle, Reads input ts middle ∧ Reads middle us rest := by
  induction ts generalizing input with
  | nil => exact ⟨input, .nil input, h⟩
  | cons t ts ih =>
      cases h with
      | cons h =>
          obtain ⟨middle, hts, hus⟩ := ih h
          exact ⟨middle, .cons hts, hus⟩

theorem reads_nil {input rest : List Char} : Reads input [] rest ↔ input = rest := by
  constructor
  · intro h
    cases h
    rfl
  · rintro rfl
    exact .nil input

theorem reads_cons {input rest : List Char} {t : Token} {ts : List Token} :
    Reads input (t :: ts) rest ↔ (Lexer.scan input).1 = t ∧ Reads (Lexer.scan input).2 ts rest := by
  constructor
  · intro h
    cases h with
    | cons h => exact ⟨rfl, h⟩
  · rintro ⟨rfl, h⟩
    exact .cons h

/-- Reading one more token. -/
theorem Reads.snoc {input : List Char} {ts : List Token} {s : State}
    (h : Reads input ts s.input) :
    Reads input (ts ++ [s.getToken.lastToken]) s.getToken.input :=
  h.append (.cons (.nil _))

/-! ## What the parser accepts -/

/-- The tokens lead to where a value is due inside these containers. -/
inductive Due : List Opened → List Token → Prop
  | root : Due [] []
  | firstElement {outer : List Opened} {ts : List Token} : Due outer ts →
      Due (.array [] :: outer) (ts ++ [.beginArray])
  | nextElement {outer : List Opened} {ts us : List Token} {xs : List Json} : Due outer ts →
      Derives us (.elements xs) →
      Due (.array xs :: outer) (ts ++ .beginArray :: (us ++ [.valueSeparator]))
  | firstMember (key : String) {outer : List Opened} {ts : List Token} : Due outer ts →
      Due (.object [] key :: outer) (ts ++ [.beginObject, .valueString key, .nameSeparator])
  | nextMember (key : String) {outer : List Opened} {ts us : List Token}
      {fields : List (String × Json)} : Due outer ts → Derives us (.members fields) →
      Due (.object fields key :: outer)
        (ts ++ .beginObject :: (us ++ [.valueSeparator, .valueString key, .nameSeparator]))

/-- The tokens lead to where a value has just ended inside these containers. -/
inductive Ended : List Opened → Json → List Token → Prop
  | root {root : Json} {ts : List Token} : Derives ts (.value root) → Ended [] root ts
  | element (root : Json) {outer : List Opened} {ts us : List Token} {xs : List Json} :
      Due outer ts → Derives us (.elements xs) →
      Ended (.array xs :: outer) root (ts ++ .beginArray :: us)
  | member (root : Json) (key : String) {outer : List Opened} {ts us : List Token}
      {fields : List (String × Json)} : Due outer ts → Derives us (.members fields) →
      Ended (.object fields key :: outer) root (ts ++ .beginObject :: us)

omit [Strtod] in
/-- A value ends where it was due. -/
theorem Due.ended {s : State} {ts us : List Token} {v : Json} (h : Due s.stack ts)
    (hv : Derives us (.value v)) : Ended (s.complete v).stack (s.complete v).root (ts ++ us) := by
  unfold State.complete State.handleValue
  generalize hstack : s.stack = stack at h ⊢
  cases h with
  | root => simpa [hstack] using Ended.root hv
  | firstElement hdue =>
      have hended := Ended.element s.root hdue (.element hv)
      simpa using hended
  | nextElement hdue hxs =>
      have hended := Ended.element s.root hdue (.elements hxs hv)
      simpa using hended
  | firstMember key hdue =>
      have hended := Ended.member s.root key hdue (.member key hv)
      simpa [Json.setField] using hended
  | nextMember key hdue hfields =>
      have hended := Ended.member s.root key hdue (.members key hfields hv)
      simpa using hended

/-- What has been read when the parser is in this state. -/
def Progress (input : List Char) (s : State) : Prop :=
  if s.skipToStateEvaluation then ∃ ts, Reads input ts s.input ∧ Ended s.stack s.root ts
  else ∃ ts, Reads input (ts ++ [s.lastToken]) s.input ∧ Due s.stack ts

variable {input : List Char} {s t : State}

theorem progress_complete {ts us : List Token} {v : Json} (hreads : Reads input (ts ++ us) s.input)
    (hdue : Due s.stack ts) (hv : Derives us (.value v)) : Progress input (s.complete v) := by
  rw [Progress, if_pos (State.skip_complete s v), State.input_complete]
  exact ⟨ts ++ us, hreads, hdue.ended hv⟩

theorem progress_expect {ts : List Token} {stack : List Opened}
    (hreads : Reads input (ts ++ [s.lastToken]) s.input) (hdue : Due stack ts) :
    Progress input (s.expect stack) := by
  rw [Progress, if_neg (by simp [State.expect])]
  exact ⟨ts, hreads, hdue⟩

theorem Progress.due (h : Progress input s) (hskip : s.skipToStateEvaluation = false) :
    ∃ ts, Reads input (ts ++ [s.lastToken]) s.input ∧ Due s.stack ts := by
  rwa [Progress, hskip, if_neg Bool.false_ne_true] at h

theorem Progress.ended (h : Progress input s) (hskip : s.skipToStateEvaluation = true) :
    ∃ ts, Reads input ts s.input ∧ Ended s.stack s.root ts := by
  rwa [Progress, hskip, if_pos rfl] at h

theorem Progress.moves (h : Progress input s) (hm : Moves s t) : Progress input t := by
  cases hm with
  | scalar v hskip hscalar =>
      obtain ⟨ts, hreads, hdue⟩ := h.due hskip
      exact progress_complete hreads hdue (.scalar hscalar)
  | emptyObject hskip hlast hend =>
      obtain ⟨ts, hreads, hdue⟩ := h.due hskip
      have hmore := hreads.snoc
      rw [hlast, hend, List.append_assoc] at hmore
      exact progress_complete hmore hdue .emptyObject
  | firstKey key hskip hlast hkey =>
      obtain ⟨ts, hreads, hdue⟩ := h.due hskip
      have hmore := hreads.snoc.snoc
      rw [hlast, hkey.1, hkey.2, List.append_assoc, List.append_assoc] at hmore
      exact progress_expect hmore.snoc (.firstMember key hdue)
  | emptyArray hskip hlast hend =>
      obtain ⟨ts, hreads, hdue⟩ := h.due hskip
      have hmore := hreads.snoc
      rw [hlast, hend, List.append_assoc] at hmore
      exact progress_complete hmore hdue .emptyArray
  | firstElement hskip hlast hend =>
      obtain ⟨ts, hreads, hdue⟩ := h.due hskip
      rw [hlast] at hreads
      exact progress_expect hreads.snoc (.firstElement hdue)
  | nextElement elements outer hskip hstack hcomma =>
      obtain ⟨ts, hreads, hended⟩ := h.ended hskip
      have hmore := hreads.snoc
      rw [hcomma] at hmore
      rw [hstack] at hended ⊢
      cases hended with
      | element _ hdue hxs =>
          have hnext := Due.nextElement hdue hxs
          rw [← List.cons_append, ← List.append_assoc] at hnext
          exact progress_expect hmore.snoc hnext
  | endArray elements outer hskip hstack hend =>
      obtain ⟨ts, hreads, hended⟩ := h.ended hskip
      have hmore := hreads.snoc
      rw [hend] at hmore
      rw [hstack] at hended
      cases hended with
      | element _ hdue hxs =>
          rw [List.append_assoc, List.cons_append] at hmore
          exact progress_complete (s := { s.getToken with stack := outer }) hmore hdue (.array hxs)
  | nextKey fields objectElement key outer hskip hstack hcomma hkey =>
      obtain ⟨ts, hreads, hended⟩ := h.ended hskip
      have hmore := hreads.snoc.snoc.snoc
      rw [hcomma, hkey.1, hkey.2] at hmore
      rw [hstack] at hended
      cases hended with
      | member _ _ hdue hfields =>
          have hnext := Due.nextMember key hdue hfields
          exact progress_expect (by simpa using hmore.snoc) hnext
  | endObject fields objectElement outer hskip hstack hend =>
      obtain ⟨ts, hreads, hended⟩ := h.ended hskip
      have hmore := hreads.snoc
      rw [hend] at hmore
      rw [hstack] at hended
      cases hended with
      | member _ _ hdue hfields =>
          rw [List.append_assoc, List.cons_append] at hmore
          exact progress_complete (s := { s.getToken with stack := outer }) hmore hdue
            (.object hfields)

theorem progress_start (input : List Char) : Progress (Lexer.skipBom input) (start input) := by
  rw [Progress, if_neg (by simp [start, State.getToken])]
  exact ⟨[], .cons (.nil _), .root⟩

/-! ## What the grammar has, the parser accepts -/

/-- The first token of this input has been read, where a value is due. -/
def opening (input : List Char) (stack : List Opened) (root : Json) : State :=
  ⟨(Lexer.scan input).2, (Lexer.scan input).1, stack, root, false⟩

/-- The loop gets over the tokens, wherever they stand in the text. -/
def Accepted (ts : List Token) : Phrase → Prop
  | .value v => ∀ input rest stack root, Reads input ts rest → ∃ n last skip,
      Turns turn n (opening input stack root) ((State.mk rest last stack root skip).complete v)
  | .elements xs => ∀ input rest outer root, Reads input ts rest → ∃ n last,
      Turns turn n ⟨input, .beginArray, outer, root, false⟩
        ⟨rest, last, .array xs :: outer, root, true⟩
  | .members fields => ∀ input rest outer root, Reads input ts rest → ∃ n last key,
      Turns turn n ⟨input, .beginObject, outer, root, false⟩
        ⟨rest, last, .object fields key :: outer, root, true⟩

omit [Strtod] in
/-- No value starts with the end of an array or with an error. -/
theorem Derives.head {ts : List Token} {v : Json} (h : Derives ts (.value v)) :
    ∃ t us, ts = t :: us ∧ t ≠ .endArray ∧ t ≠ .parseError := by
  cases h with
  | @scalar t _ hscalar =>
      refine ⟨t, [], rfl, ?_, ?_⟩ <;> rintro rfl <;> simp [scalar?] at hscalar
  | emptyArray => exact ⟨_, _, rfl, by simp, by simp⟩
  | array => exact ⟨_, _, rfl, by simp, by simp⟩
  | emptyObject => exact ⟨_, _, rfl, by simp, by simp⟩
  | object => exact ⟨_, _, rfl, by simp, by simp⟩

theorem Derives.accepted {ts : List Token} {p : Phrase} (h : Derives ts p) : Accepted ts p := by
  induction h with
  | @scalar t v hscalar =>
      intro input rest stack root hreads
      rw [reads_cons, reads_nil] at hreads
      obtain ⟨rfl, rfl⟩ := hreads
      have hmove := Moves.scalar (s := opening input stack root) v rfl hscalar
      exact ⟨1, _, _, .single hmove.turn_eq⟩
  | emptyArray =>
      intro input rest stack root hreads
      rw [reads_cons, reads_cons, reads_nil] at hreads
      obtain ⟨hfirst, hsecond, rfl⟩ := hreads
      have hmove := Moves.emptyArray (s := opening input stack root) rfl hfirst hsecond
      exact ⟨1, _, _, .single hmove.turn_eq⟩
  | @array ts xs hxs ih =>
      intro input rest stack root hreads
      obtain ⟨hfirst, hreads⟩ := reads_cons.mp hreads
      obtain ⟨middle, hmiddle, hend⟩ := hreads.split
      rw [reads_cons, reads_nil] at hend
      obtain ⟨hend, rfl⟩ := hend
      obtain ⟨n, last, hturns⟩ := ih _ _ stack root hmiddle
      have hmove := Moves.endArray (s := ⟨middle, last, .array xs :: stack, root, true⟩) xs stack
        rfl rfl hend
      rw [opening, hfirst]
      exact ⟨n + 1, _, _, hturns.trans (.single hmove.turn_eq)⟩
  | emptyObject =>
      intro input rest stack root hreads
      rw [reads_cons, reads_cons, reads_nil] at hreads
      obtain ⟨hfirst, hsecond, rfl⟩ := hreads
      have hmove := Moves.emptyObject (s := opening input stack root) rfl hfirst hsecond
      exact ⟨1, _, _, .single hmove.turn_eq⟩
  | @object ts fields hfields ih =>
      intro input rest stack root hreads
      obtain ⟨hfirst, hreads⟩ := reads_cons.mp hreads
      obtain ⟨middle, hmiddle, hend⟩ := hreads.split
      rw [reads_cons, reads_nil] at hend
      obtain ⟨hend, rfl⟩ := hend
      obtain ⟨n, last, key, hturns⟩ := ih _ _ stack root hmiddle
      have hmove := Moves.endObject (s := ⟨middle, last, .object fields key :: stack, root, true⟩)
        fields key stack rfl rfl hend
      rw [opening, hfirst]
      exact ⟨n + 1, _, _, hturns.trans (.single hmove.turn_eq)⟩
  | element hv ih =>
      intro input rest outer root hreads
      obtain ⟨n, last, skip, hturns⟩ := ih input rest (.array [] :: outer) root hreads
      obtain ⟨t, us, rfl, hne, -⟩ := hv.head
      obtain ⟨rfl, -⟩ := reads_cons.mp hreads
      have hmove := Moves.firstElement (s := ⟨input, .beginArray, outer, root, false⟩) rfl rfl hne
      exact ⟨n + 1, last, .head hmove.turn_eq hturns⟩
  | @elements ts us xs v hxs hv ihxs ihv =>
      intro input rest outer root hreads
      obtain ⟨middle, hmiddle, hreads⟩ := hreads.split
      obtain ⟨hcomma, hreads⟩ := reads_cons.mp hreads
      obtain ⟨n, last, hbefore⟩ := ihxs input middle outer root hmiddle
      obtain ⟨m, last', skip, hafter⟩ := ihv _ rest (.array xs :: outer) root hreads
      have hmove := Moves.nextElement (s := ⟨middle, last, .array xs :: outer, root, true⟩) xs
        outer rfl rfl hcomma
      exact ⟨n + (m + 1), last', hbefore.trans (.head hmove.turn_eq hafter)⟩
  | member key hv ih =>
      intro input rest outer root hreads
      rw [reads_cons, reads_cons] at hreads
      obtain ⟨hkey, hseparator, hreads⟩ := hreads
      obtain ⟨n, last, skip, hturns⟩ := ih _ rest (.object [] key :: outer) root hreads
      have hmove := Moves.firstKey (s := ⟨input, .beginObject, outer, root, false⟩) key rfl rfl
        ⟨hkey, hseparator⟩
      exact ⟨n + 1, last, key, .head hmove.turn_eq hturns⟩
  | @members key ts us fields v hfields hv ihfields ihv =>
      intro input rest outer root hreads
      obtain ⟨middle, hmiddle, hreads⟩ := hreads.split
      rw [reads_cons, reads_cons, reads_cons] at hreads
      obtain ⟨hcomma, hkey, hseparator, hreads⟩ := hreads
      obtain ⟨n, last, key', hbefore⟩ := ihfields input middle outer root hmiddle
      obtain ⟨m, last', skip, hafter⟩ := ihv _ rest (.object fields key :: outer) root hreads
      have hmove := Moves.nextKey (s := ⟨middle, last, .object fields key' :: outer, root, true⟩)
        fields key' key outer rfl rfl hcomma ⟨hkey, hseparator⟩
      exact ⟨n + (m + 1), last', key, hbefore.trans (.head hmove.turn_eq hafter)⟩

/-! ## The parser and the grammar -/

/-- The text is a value of the grammar, and after it only white space or a NUL. -/
def Denotes (text : String) (v : Json) : Prop :=
  ∃ ts rest, Reads (Lexer.skipBom text.toList) ts rest ∧ Derives ts (.value v) ∧
    (Lexer.scan rest).1 = .endOfInput

/-- The loop leaves with a value where the containers are all closed. -/
theorem stack_of_done {s : State} {v : Json} {rest : List Char}
    (h : turn s = .done (some (v, rest))) :
    s.skipToStateEvaluation = true ∧ s.stack = [] ∧ s.root = v ∧ s.input = rest := by
  have hkey : ∀ (s : State) (fields : List (String × Json)) (outer : List Opened),
      parseKey s fields outer ≠ .done (some (v, rest)) := by
    intro s fields outer
    unfold parseKey
    split <;> simp
  unfold turn evaluateState parseValue at h
  split_ifs at h with hskip
  · split at h
    · next hstack =>
        simp only [Turn.done.injEq, Option.some.injEq, Prod.mk.injEq] at h
        exact ⟨hskip, hstack, h.1, h.2⟩
    · split at h <;> simp at h
    · split at h <;> simp [hkey] at h
  · split at h
    · split at h <;> simp [hkey] at h
    · split at h <;> simp at h
    · split at h <;> simp at h

theorem denotes_of_run {n : ℕ} {input rest : List Char} {v : Json}
    (h : Loop.run turn n (start input) = some (some (v, rest))) :
    ∃ ts, Reads (Lexer.skipBom input) ts rest ∧ Derives ts (.value v) := by
  have hdone : ∀ s r, Progress (Lexer.skipBom input) s → turn s = .done r →
      ∀ v rest, r = some (v, rest) →
        ∃ ts, Reads (Lexer.skipBom input) ts rest ∧ Derives ts (.value v) := by
    rintro s r hs hturn v rest rfl
    obtain ⟨hskip, hstack, rfl, rfl⟩ := stack_of_done hturn
    obtain ⟨ts, hreads, hended⟩ := hs.ended hskip
    rw [hstack] at hended
    cases hended with
    | root hv => exact ⟨ts, hreads, hv⟩
  exact Loop.run_induction (I := Progress (Lexer.skipBom input))
    (fun s t hs hturn => hs.moves (moves_of_turn hturn)) hdone (progress_start input) h v rest rfl

theorem run_of_derives {input rest : List Char} {ts : List Token} {v : Json}
    (hreads : Reads (Lexer.skipBom input) ts rest) (h : Derives ts (.value v)) :
    Loop.run turn (bound input) (start input) = some (some (v, rest)) := by
  obtain ⟨n, last, skip, hturns⟩ := h.accepted _ rest [] .null hreads
  have hdone : turn ((State.mk rest last [] .null skip).complete v) = .done (some (v, rest)) := rfl
  exact Loop.run_of_turns variant_turn (variant_start input) hturns hdone

theorem denotes_of_parse {text : String} {v : Json} (h : parse text = some v) :
    Denotes text v := by
  unfold parse at h
  split at h
  · next root rest hrun =>
      obtain ⟨ts, hreads, hv⟩ := denotes_of_run hrun
      split at h
      · next hend => exact ⟨ts, rest, hreads, Option.some.inj h ▸ hv, hend⟩
      · simp at h
  · simp at h

theorem parse_of_denotes {text : String} {v : Json} (h : Denotes text v) :
    parse text = some v := by
  obtain ⟨ts, rest, hreads, hv, hend⟩ := h
  simp [parse, run_of_derives hreads hv, hend]

/-- The parser, with its stack and its bounded loop, reads a text as a value exactly when
the grammar does. -/
theorem parse_exact (text : String) (v : Json) : parse text = some v ↔ Denotes text v :=
  ⟨denotes_of_parse, parse_of_denotes⟩

end

end Parser
end ChatCluster
