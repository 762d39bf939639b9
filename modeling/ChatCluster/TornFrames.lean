import ChatCluster.ClientThreads
import ChatCluster.FrameTexts
import ChatCluster.Library.Nesting
import ChatCluster.PartialSends

/-!
# Lines that a torn frame has spoilt

When `send` gives a frame up in the middle, the next frame is written behind it, on the same
line. The quotes and brackets of such a line do not match, whatever was cut off, so the line
does not parse: the server drops it and starts no handler, and it starts the handlers of all
frames that have lines of their own.
-/
namespace ChatCluster
open LineFraming Nesting
open ChatCluster.Parser

/-! ## Serialized values -/

namespace Json

def codes (cs : List Char) : List ℕ := cs.map Char.toNat

@[simp] theorem codes_cons (c : Char) (cs : List Char) : codes (c :: cs) = c.toNat :: codes cs := rfl

@[simp] theorem codes_append (cs ds : List Char) : codes (cs ++ ds) = codes cs ++ codes ds :=
  List.map_append

theorem mark_codes (cs : List Char) (h : ∀ c ∈ cs, mark c.toNat = .plain) :
    ∀ x ∈ codes cs, mark x = .plain := by
  intro x hx
  rcases List.mem_map.mp hx with ⟨c, hc, rfl⟩
  exact h c hc

theorem mark_of_isDigit {c : Char} (h : c.isDigit = true) : mark c.toNat = .plain := by
  simp only [Char.isDigit, Bool.and_eq_true, decide_eq_true_eq] at h
  have hlow : '0'.toNat ≤ c.toNat := h.1
  have hhigh : c.toNat ≤ '9'.toNat := h.2
  rw [show '0'.toNat = 48 from rfl] at hlow
  rw [show '9'.toNat = 57 from rfl] at hhigh
  unfold mark
  split_ifs <;> first | rfl | omega

theorem mark_hexDigit (n : ℕ) : mark (hexDigit n).toNat = .plain := by
  have h : ∀ m < 16, mark (Nat.digitChar m).toNat = .plain := by decide
  exact h _ (Nat.mod_lt _ (by decide))

theorem quoted_escapeChar (c : Char) : Quoted (codes (escapeChar c)) := by
  unfold escapeChar
  split_ifs with h₁ h₂ h₃ h₄ h₅ h₆ h₇ h₈
  · exact quoted_escape rfl (by simp)
  · exact quoted_escape rfl (by simp)
  · exact quoted_escape rfl (by simp)
  · exact quoted_escape rfl (by simp)
  · exact quoted_escape rfl (by simp)
  · exact quoted_escape rfl (by simp)
  · exact quoted_escape rfl (by simp)
  · refine quoted_escape rfl (mark_codes ['0', '0', _, _] ?_)
    simp only [List.mem_cons, List.not_mem_nil, or_false, forall_eq_or_imp, forall_eq]
    exact ⟨rfl, rfl, mark_hexDigit _, mark_hexDigit _⟩
  · have hmark : mark c.toNat ≠ .quote ∧ mark c.toNat ≠ .backslash := by
      unfold mark
      rw [if_neg h₆, if_neg h₇]
      split_ifs <;> simp
    exact quoted_single hmark.1 hmark.2

theorem neutral_dumpString (s : String) : Neutral (codes (dumpString s)) := by
  have hquoted : ∀ cs : List Char, Quoted (codes (cs.flatMap escapeChar)) := by
    intro cs
    induction cs with
    | nil => exact quoted_nil
    | cons c cs ih =>
        rw [List.flatMap_cons, codes_append]
        exact (quoted_escapeChar c).append ih
  rw [dumpString, codes_cons, codes_append]
  exact (hquoted s.toList).neutral rfl rfl

/-- The characters of numbers. -/
def Numeric (c : Char) : Prop := c.isDigit = true ∨ c ∈ ['-', '+', '.', 'e', 'E']

theorem Numeric.mark {c : Char} (h : Numeric c) : mark c.toNat = .plain := by
  rcases h with h | h
  · exact mark_of_isDigit h
  · simp only [List.mem_cons, List.not_mem_nil, or_false] at h
    rcases h with rfl | rfl | rfl | rfl | rfl <;> rfl

theorem numeric_toDigits {n : ℕ} {c : Char} (h : c ∈ Nat.toDigits 10 n) : Numeric c :=
  .inl (Nat.isDigit_of_mem_toDigits (by decide) (by decide) h)

theorem numeric_dumpExponent {e : ℤ} {c : Char} (h : c ∈ dumpExponent e) : Numeric c := by
  simp only [dumpExponent, List.mem_append] at h
  rcases h with (h | h) | h
  · split_ifs at h <;> rw [List.mem_singleton.mp h] <;> exact .inr (by simp)
  · split_ifs at h
    · rw [List.mem_singleton.mp h]
      exact .inl rfl
    · cases h
  · exact numeric_toDigits h

theorem numeric_dumpFloat {x : JsonFloat} {c : Char} (h : c ∈ dumpFloat x) : Numeric c := by
  have hminus : Numeric '-' := .inr (by simp)
  have hdot : Numeric '.' := .inr (by simp)
  have he : Numeric 'e' := .inr (by simp)
  have hnil : Numeric '0' := .inl rfl
  have hsign : ∀ d ∈ (if x.negative then ['-'] else []), Numeric d := by
    intro d hd
    split_ifs at hd
    · rw [List.mem_singleton.mp hd]
      exact hminus
    · cases hd
  have hzero : ∀ m, ∀ d ∈ List.replicate m '0', Numeric d := by
    intro m d hd
    rw [List.eq_of_mem_replicate hd]
    exact hnil
  have htake : ∀ m, ∀ d ∈ (Nat.toDigits 10 x.digits).take m, Numeric d :=
    fun m d hd => numeric_toDigits (List.mem_of_mem_take hd)
  have hdrop : ∀ m, ∀ d ∈ (Nat.toDigits 10 x.digits).drop m, Numeric d :=
    fun m d hd => numeric_toDigits (List.mem_of_mem_drop hd)
  simp only [dumpFloat] at h
  split_ifs at h <;> simp only [List.mem_append, List.mem_cons, List.not_mem_nil, or_false] at h
  all_goals grind [numeric_toDigits, numeric_dumpExponent]

theorem neutral_dumpInt (n : ℤ) : Neutral (codes (dumpInt n)) := by
  refine neutral_plain (mark_codes _ fun c hc => ?_)
  rw [dumpInt, List.mem_append] at hc
  rcases hc with hc | hc
  · split_ifs at hc
    · rw [List.mem_singleton.mp hc]
      rfl
    · cases hc
  · exact (numeric_toDigits hc).mark

theorem neutral_dumpFloat (x : JsonFloat) : Neutral (codes (dumpFloat x)) :=
  neutral_plain (mark_codes _ fun _ hc => (numeric_dumpFloat hc).mark)

theorem neutral_joined {xs ys : List Char} {b : Bool} (hxs : Neutral (codes xs))
    (hys : Neutral (codes ys)) : Neutral (codes (xs ++ if b then [] else ',' :: ys)) := by
  rw [codes_append]
  refine hxs.append ?_
  split_ifs
  · exact neutral_nil
  · exact hys.cons_plain rfl

theorem neutral_enclosed {c d : Char} {cs : List Char} (hcs : Neutral (codes cs))
    (hc : mark c.toNat = .opening) (hd : mark d.toNat = .closing) :
    Neutral (codes (c :: (cs ++ [d]))) := by
  rw [codes_cons, codes_append]
  exact hcs.bracketed hc hd

mutual
/-- A serialized value closes what it opens. -/
theorem neutral_dumpChars : ∀ js : Json, Neutral (codes js.dumpChars)
  | .null => neutral_plain (mark_codes "null".toList (by simp [mark]))
  | .boolean b => by
      cases b with
      | true => exact neutral_plain (mark_codes "true".toList (by simp [mark]))
      | false => exact neutral_plain (mark_codes "false".toList (by simp [mark]))
  | .integer v => neutral_dumpInt v.value
  | .float x => neutral_dumpFloat x
  | .string s => neutral_dumpString s
  | .array xs => neutral_enclosed (neutral_dumpElements xs) rfl rfl
  | .object fields => neutral_enclosed (neutral_dumpFields fields) rfl rfl
termination_by structural js => js

theorem neutral_dumpElements : ∀ xs : List Json, Neutral (codes (dumpElements xs))
  | [] => neutral_nil
  | x :: xs => neutral_joined (neutral_dumpChars x) (neutral_dumpElements xs)
termination_by structural xs => xs

theorem neutral_dumpFields : ∀ fs : List (String × Json), Neutral (codes (dumpFields fs))
  | [] => neutral_nil
  | f :: fs => neutral_joined (neutral_dumpField f) (neutral_dumpFields fs)
termination_by structural fs => fs

theorem neutral_dumpField : ∀ f : String × Json, Neutral (codes (dumpField f))
  | (key, v) => by
      rw [dumpField, codes_append]
      exact (neutral_dumpString key).append ((neutral_dumpChars v).cons_plain rfl)
termination_by structural f => f
end

end Json

/-! ## Texts that parse -/

namespace Lexer
open Json

theorem mark_of_isWhitespace {c : Char} (h : isWhitespace c = true) : mark c.toNat = .plain := by
  simp only [isWhitespace, Bool.or_eq_true, decide_eq_true_eq] at h
  rcases h with ((rfl | rfl) | rfl) | rfl <;> rfl

theorem mark_of_hexValue {c : Char} {n : ℕ} (h : hexValue? c = some n) : mark c.toNat = .plain := by
  unfold hexValue? at h
  split_ifs at h with hdigit hupper hlower
  · have hlow : 48 ≤ c.toNat := hdigit.1
    have hhigh : c.toNat ≤ 57 := hdigit.2
    unfold mark
    split_ifs <;> first | rfl | omega
  · have hlow : 65 ≤ c.toNat := hupper.1
    have hhigh : c.toNat ≤ 70 := hupper.2
    unfold mark
    split_ifs <;> first | rfl | omega
  · have hlow : 97 ≤ c.toNat := hlower.1
    have hhigh : c.toNat ≤ 102 := hlower.2
    unfold mark
    split_ifs <;> first | rfl | omega

theorem mark_of_getCodepoint {c₁ c₂ c₃ c₄ : Char} {n : ℕ} (h : getCodepoint c₁ c₂ c₃ c₄ = some n) :
    ∀ c ∈ [c₁, c₂, c₃, c₄], mark c.toNat = .plain := by
  simp only [getCodepoint, Option.bind_eq_bind, Option.bind_eq_some_iff] at h
  rcases h with ⟨d₁, h₁, d₂, h₂, d₃, h₃, d₄, h₄, -⟩
  simp only [List.mem_cons, List.not_mem_nil, or_false, forall_eq_or_imp, forall_eq]
  exact ⟨mark_of_hexValue h₁, mark_of_hexValue h₂, mark_of_hexValue h₃, mark_of_hexValue h₄⟩

/-- The first part of the input is the rest of a quotation. -/
def ClosesQuote (input rest : List Char) : Prop :=
  ∃ cs, input = cs ++ rest ∧ ∀ depth, (Place.inside depth).read (codes cs) = .outside depth

theorem ClosesQuote.prepend {front input rest : List Char} (h : ClosesQuote input rest)
    (hfront : Quoted (codes front)) : ClosesQuote (front ++ input) rest := by
  rcases h with ⟨cs, rfl, hcs⟩
  refine ⟨front ++ cs, (List.append_assoc ..).symm, fun depth => ?_⟩
  rw [codes_append, Place.read_append, hfront.within, hcs]

theorem quoted_escaped {c : Char} (cs : List Char) (hcs : ∀ d ∈ cs, mark d.toNat = .plain) :
    Quoted (codes ('\\' :: c :: cs)) := quoted_escape rfl (mark_codes _ hcs)

theorem mark_ne {c : Char} (hquote : c ≠ '"') (hbackslash : c ≠ '\\') :
    mark c.toNat ≠ .quote ∧ mark c.toNat ≠ .backslash := by
  have h₁ : c.toNat ≠ 0x22 := fun h => hquote (Char.toNat_inj.mp h)
  have h₂ : c.toNat ≠ 0x5C := fun h => hbackslash (Char.toNat_inj.mp h)
  unfold mark
  rw [if_neg h₁, if_neg h₂]
  split_ifs <;> simp

/-- A string reaches up to its closing quote. -/
theorem closesQuote_scanString {tokenBuffer tokenBuffer' input rest : List Char}
    (h : scanString tokenBuffer input = some (tokenBuffer', rest)) : ClosesQuote input rest := by
  fun_induction scanString tokenBuffer input with
  | case2 =>
      cases h
      exact ⟨['"'], rfl, fun _ => rfl⟩
  | case5 =>
      rename_i hfirst _ _ _ _ _ _ _ hsecond _ _ _ ih
      have hback := (ih h).prepend (quoted_escaped (c := 'u') _ (mark_of_getCodepoint hsecond))
      exact hback.prepend (quoted_escaped _ (mark_of_getCodepoint hfirst))
  | case9 =>
      rename_i hfirst _ _ _ ih
      exact (ih h).prepend (quoted_escaped _ (mark_of_getCodepoint hfirst))
  | case11 =>
      rename_i ih
      exact (ih h).prepend (quoted_escaped [] (by simp))
  | case14 =>
      rename_i current _ hquote hbackslash _ ih
      have hmark := mark_ne hquote hbackslash
      have hquoted : Quoted (codes [current]) := quoted_single hmark.1 hmark.2
      exact (ih h).prepend hquoted
  | _ => simp at h

theorem numeric_next {c : Char} {state state' : NumberState} (h : state.next c = some state') :
    Numeric c := by
  have hdigit19 : isDigit19 c = true → c.isDigit = true := by
    intro hc
    simp only [isDigit19, Bool.and_eq_true, decide_eq_true_eq] at hc
    simp only [Char.isDigit, Bool.and_eq_true, decide_eq_true_eq]
    exact ⟨le_trans (by decide) hc.1, hc.2⟩
  have hzero : c = '0' → c.isDigit = true := by
    rintro rfl
    rfl
  simp only [Numeric, List.mem_cons, List.not_mem_nil, or_false]
  cases state <;> simp only [NumberState.next] at h <;> split_ifs at h <;> grind

/-- A number reaches as far as its characters do. -/
theorem plain_scanNumberFrom {state : NumberState} {numberType numberType' : NumberType}
    {tokenBuffer tokenBuffer' input rest : List Char}
    (h : scanNumberFrom state numberType tokenBuffer input =
      some (numberType', tokenBuffer', rest)) :
    ∃ cs, input = cs ++ rest ∧ ∀ c ∈ cs, mark c.toNat = .plain := by
  induction input generalizing state numberType tokenBuffer with
  | nil =>
      simp only [scanNumberFrom] at h
      split_ifs at h
      cases h
      exact ⟨[], rfl, by simp⟩
  | cons current input ih =>
      simp only [scanNumberFrom] at h
      split at h
      · next state' hnext =>
        rcases ih h with ⟨cs, rfl, hcs⟩
        refine ⟨current :: cs, rfl, fun c hc => ?_⟩
        rcases List.mem_cons.mp hc with rfl | hc
        · exact (numeric_next hnext).mark
        · exact hcs c hc
      · split_ifs at h
        cases h
        exact ⟨[], rfl, by simp⟩

/-- The first part of the input stays between the brackets that are open. -/
def StaysLevel (input rest : List Char) : Prop :=
  ∃ cs, input = cs ++ rest ∧
    ∀ depth, (Place.outside (depth + 1)).read (codes cs) = .outside (depth + 1)

theorem staysLevel_plain (cs rest : List Char) (h : ∀ c ∈ cs, mark c.toNat = .plain) :
    StaysLevel (cs ++ rest) rest :=
  ⟨cs, rfl, fun _ => Place.read_outside_plain (mark_codes _ h) _⟩

theorem StaysLevel.trans {input middle rest : List Char} (h : StaysLevel input middle)
    (h' : StaysLevel middle rest) : StaysLevel input rest := by
  rcases h with ⟨cs, rfl, hcs⟩
  rcases h' with ⟨ds, rfl, hds⟩
  refine ⟨cs ++ ds, (List.append_assoc ..).symm, fun depth => ?_⟩
  rw [codes_append, Place.read_append, hcs, hds]

theorem staysLevel_space (input : List Char) : StaysLevel input (input.dropWhile isWhitespace) := by
  have hspace : ∀ c ∈ input.takeWhile isWhitespace, mark c.toNat = .plain := fun c hc =>
    mark_of_isWhitespace (List.mem_takeWhile_imp hc)
  have h := staysLevel_plain _ (input.dropWhile isWhitespace) hspace
  rwa [List.takeWhile_append_dropWhile] at h

/-- The tokens that neither open nor close anything. -/
def Flat : Token → Prop
  | .beginArray | .endArray | .beginObject | .endObject | .endOfInput | .parseError => False
  | _ => True

theorem staysLevel_scanLiteral {literalText rest : List Char} {t : Token}
    (htext : ∀ c ∈ literalText, mark c.toNat = .plain)
    (h : Flat (scanLiteral literalText t rest).1) :
    StaysLevel rest (scanLiteral literalText t rest).2 := by
  unfold scanLiteral at h ⊢
  split_ifs at h ⊢ with hliteral
  · rcases hliteral with ⟨more, rfl⟩
    rw [List.drop_left]
    exact staysLevel_plain _ _ htext
  · exact h.elim

section
variable [Strtod]

theorem staysLevel_scanOther (current : Char) (rest : List Char)
    (h : Flat (scanOther current rest).1) :
    StaysLevel (current :: rest) (scanOther current rest).2 := by
  have hfirst : mark current.toNat = .plain → StaysLevel (current :: rest) rest := fun hcurrent =>
    staysLevel_plain [current] _ (by simpa using hcurrent)
  unfold scanOther at h ⊢
  split_ifs at h ⊢ with ht hf hn hquote hnumber hnul
  · subst ht
    exact (hfirst rfl).trans (staysLevel_scanLiteral (by simp [mark]) h)
  · subst hf
    exact (hfirst rfl).trans (staysLevel_scanLiteral (by simp [mark]) h)
  · subst hn
    exact (hfirst rfl).trans (staysLevel_scanLiteral (by simp [mark]) h)
  · subst hquote
    split at h
    · next hscan =>
      rcases closesQuote_scanString hscan with ⟨cs, hrest, hcs⟩
      refine ⟨'"' :: cs, by rw [hrest]; rfl, fun depth => ?_⟩
      exact hcs (depth + 1)
    · exact h.elim
  · have hcurrent : Numeric current := by
      rcases hnumber with rfl | hdigit
      · exact .inr (by simp)
      · exact .inl hdigit
    unfold scanNumber at h ⊢
    dsimp only at h ⊢
    split at h
    · next numberType tokenBuffer after hscan =>
      rcases plain_scanNumberFrom hscan with ⟨cs, rfl, hcs⟩
      exact (hfirst hcurrent.mark).trans (staysLevel_plain _ _ hcs)
    · exact h.elim
  · exact h.elim
  · exact h.elim

/-- A token that is no bracket stays between the brackets around it. -/
theorem staysLevel_scan (input : List Char) (h : Flat (scan input).1) :
    StaysLevel input (scan input).2 := by
  refine (staysLevel_space input).trans ?_
  unfold scan at h ⊢
  cases hinput : input.dropWhile isWhitespace with
  | nil =>
      rw [hinput] at h
      exact h.elim
  | cons current rest =>
      rw [hinput] at h
      unfold scanToken at h ⊢
      cases hstructural : structural? current with
      | none =>
          simp only [hstructural] at h ⊢
          exact staysLevel_scanOther current rest h
      | some t =>
          simp only [hstructural] at h ⊢
          have hmark : mark current.toNat = .plain := by
            unfold structural? at hstructural
            split_ifs at hstructural with h₁ h₂ h₃ h₄ h₅ h₆ <;> cases hstructural
            · exact h.elim
            · exact h.elim
            · exact h.elim
            · exact h.elim
            · rw [h₅]
              rfl
            · rw [h₆]
              rfl
          exact staysLevel_plain [current] _ (by simpa using hmark)

/-- What a bracket does. -/
def bracket? : Token → Option Mark
  | .beginArray | .beginObject => some .opening
  | .endArray | .endObject => some .closing
  | _ => none

theorem bracket?_numberToken (tokenBuffer : List Char) (numberType : NumberType) :
    bracket? (numberToken tokenBuffer numberType) = none := by
  cases numberType with
  | unsigned => cases h : unsigned? tokenBuffer <;> simp [numberToken, h, bracket?]
  | integer => cases h : integer? tokenBuffer <;> simp [numberToken, h, bracket?]
  | float => rfl

theorem bracket?_scanOther (current : Char) (rest : List Char) :
    bracket? (scanOther current rest).1 = none := by
  unfold scanOther scanLiteral scanNumber
  split_ifs
  any_goals rfl
  · split <;> rfl
  · dsimp only
    split
    · exact bracket?_numberToken ..
    · rfl

/-- A bracket stands behind white space. -/
theorem scan_bracket {input : List Char} {m : Mark} (h : bracket? (scan input).1 = some m) :
    ∃ space current, input = space ++ current :: (scan input).2 ∧
      (∀ c ∈ space, mark c.toNat = .plain) ∧ mark current.toNat = m := by
  have hsplit := List.takeWhile_append_dropWhile (p := isWhitespace) (l := input)
  unfold scan at h ⊢
  cases hinput : input.dropWhile isWhitespace with
  | nil =>
      rw [hinput] at h
      cases h
  | cons current rest =>
      rw [hinput] at h hsplit
      unfold scanToken at h ⊢
      cases hstructural : structural? current with
      | none =>
          simp only [hstructural, bracket?_scanOther] at h
          cases h
      | some t =>
          simp only [hstructural] at h ⊢
          refine ⟨input.takeWhile isWhitespace, current, hsplit.symm, fun c hc => ?_, ?_⟩
          · exact mark_of_isWhitespace (List.mem_takeWhile_imp hc)
          · unfold structural? at hstructural
            split_ifs at hstructural with h₁ h₂ h₃ h₄ h₅ h₆ <;> cases hstructural <;> cases h
            · rw [h₁]
              rfl
            · rw [h₂]
              rfl
            · rw [h₃]
              rfl
            · rw [h₄]
              rfl

theorem nul_of_scanOther {current : Char} {rest : List Char}
    (h : (scanOther current rest).1 = .endOfInput) : current = '\x00' := by
  unfold scanOther scanLiteral scanNumber at h
  split_ifs at h with h₁ h₂ h₃ h₄ h₅ h₆ h₇ h₈ h₉
  any_goals cases h
  · split at h <;> cases h
  · dsimp only at h
    split at h
    · next numberType tokenBuffer _ _ =>
      cases numberType with
      | unsigned => cases hn : unsigned? tokenBuffer <;> simp [numberToken, hn] at h
      | integer => cases hn : integer? tokenBuffer <;> simp [numberToken, hn] at h
      | float => cases h
    · cases h
  · assumption

/-- At the end of the input there is only white space, if there is no NUL. -/
theorem plain_of_endOfInput {rest : List Char} (h : (scan rest).1 = .endOfInput)
    (hnul : '\x00' ∉ rest) : ∀ c ∈ rest, mark c.toNat = .plain := by
  have hsplit := List.takeWhile_append_dropWhile (p := isWhitespace) (l := rest)
  unfold scan at h
  cases hrest : rest.dropWhile isWhitespace with
  | nil =>
      rw [hrest, List.append_nil] at hsplit
      rw [← hsplit]
      exact fun c hc => mark_of_isWhitespace (List.mem_takeWhile_imp hc)
  | cons current more =>
      rw [hrest] at h
      unfold scanToken at h
      cases hstructural : structural? current with
      | none =>
          simp only [hstructural] at h
          have hmem : current ∈ rest := by
            rw [← hsplit, hrest]
            simp
          exact absurd (nul_of_scanOther h ▸ hmem) hnul
      | some t =>
          simp only [hstructural] at h
          subst h
          unfold structural? at hstructural
          split_ifs at hstructural <;> cases hstructural

/-- An opening bracket, text between brackets, and a closing bracket. -/
theorem StaysLevel.bracketed {input rest middle : List Char}
    (hopen : bracket? (scan input).1 = some .opening) (h : StaysLevel (scan input).2 middle)
    (hclose : bracket? (scan middle).1 = some .closing) (hrest : (scan middle).2 = rest) :
    ∃ space current cs, input = space ++ current :: (cs ++ rest) ∧
      (∀ c ∈ space, mark c.toNat = .plain) ∧ mark current.toNat = .opening ∧
        ∀ depth, (Place.outside (depth + 1)).read (codes cs) = .outside depth := by
  rcases scan_bracket hopen with ⟨space, current, hinput, hspace, hcurrent⟩
  rcases scan_bracket hclose with ⟨space', current', hmiddle, hspace', hcurrent'⟩
  rcases h with ⟨cs, hcs, hlevel⟩
  refine ⟨space, current, cs ++ space' ++ [current'], ?_, hspace, hcurrent, fun depth => ?_⟩
  · rw [hinput, hcs, hmiddle, hrest]
    simp
  · rw [codes_append, codes_append, Place.read_append, Place.read_append, hlevel,
      Place.read_outside_plain (mark_codes _ hspace')]
    change (Place.outside (depth + 1)).next (mark current'.toNat) = _
    rw [hcurrent']
    rfl

end

end Lexer

namespace Parser
open Json Lexer
variable [Strtod]

omit [Strtod] in
theorem flat_of_scalar {t : Token} {v : Json} (h : scalar? t = some v) : Flat t := by
  cases t <;> trivial

theorem staysLevel_flat {input rest : List Char} {t : Token} {ts : List Token}
    (h : Reads input (t :: ts) rest) (ht : Flat t) :
    ∃ middle, StaysLevel input middle ∧ Reads middle ts rest := by
  rcases reads_cons.mp h with ⟨rfl, hrest⟩
  exact ⟨_, staysLevel_scan input ht, hrest⟩

theorem bracketed_reads {input rest : List Char} {t u : Token} (ts : List Token)
    (h : Reads input (t :: (ts ++ [u])) rest) (ht : bracket? t = some .opening)
    (hu : bracket? u = some .closing)
    (hts : ∀ {input rest}, Reads input ts rest → StaysLevel input rest) :
    ∃ space current cs, input = space ++ current :: (cs ++ rest) ∧
      (∀ c ∈ space, mark c.toNat = .plain) ∧ mark current.toNat = .opening ∧
        ∀ depth, (Place.outside (depth + 1)).read (codes cs) = .outside depth := by
  rcases reads_cons.mp h with ⟨rfl, hrest⟩
  rcases hrest.split with ⟨middle, hmiddle, hlast⟩
  rw [reads_cons, reads_nil] at hlast
  rcases hlast with ⟨rfl, hend⟩
  exact (hts hmiddle).bracketed ht hu hend

theorem staysLevel_bracketed {input rest : List Char} {t u : Token} (ts : List Token)
    (h : Reads input (t :: (ts ++ [u])) rest) (ht : bracket? t = some .opening)
    (hu : bracket? u = some .closing)
    (hts : ∀ {input rest}, Reads input ts rest → StaysLevel input rest) :
    StaysLevel input rest := by
  rcases bracketed_reads ts h ht hu hts with ⟨space, current, cs, rfl, hspace, hcurrent, hcs⟩
  refine ⟨space ++ current :: cs, by simp, fun depth => ?_⟩
  rw [codes_append, Place.read_append, Place.read_outside_plain (mark_codes _ hspace), codes_cons,
    Place.read_cons, hcurrent]
  exact hcs (depth + 1)

/-- What the grammar derives stays between the brackets around it. -/
theorem Derives.staysLevel {ts : List Token} {p : Phrase} (h : Derives ts p) :
    ∀ {input rest}, Reads input ts rest → StaysLevel input rest := by
  have hnil : ∀ {input rest}, Reads input [] rest → StaysLevel input rest := by
    intro input rest h
    rw [reads_nil.mp h]
    exact ⟨[], rfl, fun _ => rfl⟩
  induction h with
  | scalar hscalar =>
      intro input rest hreads
      rcases staysLevel_flat hreads (flat_of_scalar hscalar) with ⟨middle, hlevel, hrest⟩
      exact hlevel.trans (hnil hrest)
  | emptyArray => exact fun hreads => staysLevel_bracketed [] hreads rfl rfl hnil
  | array hxs ih => exact fun hreads => staysLevel_bracketed _ hreads rfl rfl ih
  | emptyObject => exact fun hreads => staysLevel_bracketed [] hreads rfl rfl hnil
  | object hfields ih => exact fun hreads => staysLevel_bracketed _ hreads rfl rfl ih
  | element hv ih => exact ih
  | elements hxs hv ihxs ihv =>
      intro input rest hreads
      rcases hreads.split with ⟨middle, hmiddle, hreads⟩
      rcases staysLevel_flat hreads trivial with ⟨behind, hcomma, hreads⟩
      exact ((ihxs hmiddle).trans hcomma).trans (ihv hreads)
  | member key hv ih =>
      intro input rest hreads
      rcases staysLevel_flat hreads trivial with ⟨behind, hkey, hreads⟩
      rcases staysLevel_flat hreads trivial with ⟨behind', hseparator, hreads⟩
      exact (hkey.trans hseparator).trans (ih hreads)
  | members key hfields hv ihfields ihv =>
      intro input rest hreads
      rcases hreads.split with ⟨middle, hmiddle, hreads⟩
      rcases staysLevel_flat hreads trivial with ⟨before, hcomma, hreads⟩
      rcases staysLevel_flat hreads trivial with ⟨behind, hkey, hreads⟩
      rcases staysLevel_flat hreads trivial with ⟨behind', hseparator, hreads⟩
      exact ((((ihfields hmiddle).trans hcomma).trans hkey).trans hseparator).trans (ihv hreads)

/-- In a text that starts with a brace and parses, all that is opened is closed at the end. -/
theorem read_of_denotes {text : String} {v : Json} {cs : List Char} (h : Denotes text v)
    (htext : text.toList = '\x7b' :: cs) (hnul : '\x00' ∉ cs) :
    (Place.outside 1).read (codes cs) = .outside 0 := by
  rcases h with ⟨ts, rest, hreads, hv, hend⟩
  have hbom : skipBom text.toList = '\x7b' :: cs := by
    rw [htext, skipBom, if_neg (by decide)]
  have hfirst : (Lexer.scan ('\x7b' :: cs)).1 = .beginObject := rfl
  rw [hbom] at hreads
  have hbrackets : ∃ space current before, '\x7b' :: cs = space ++ current :: (before ++ rest) ∧
      (∀ c ∈ space, mark c.toNat = .plain) ∧ mark current.toNat = .opening ∧
        ∀ depth, (Place.outside (depth + 1)).read (codes before) = .outside depth := by
    cases hv with
    | scalar hscalar =>
        rw [reads_cons, hfirst] at hreads
        rw [← hreads.1] at hscalar
        cases hscalar
    | emptyArray | array =>
        rw [reads_cons, hfirst] at hreads
        cases hreads.1
    | emptyObject =>
        refine bracketed_reads [] hreads rfl rfl fun hnone => ?_
        rw [reads_nil.mp hnone]
        exact ⟨[], rfl, fun _ => rfl⟩
    | object hfields => exact bracketed_reads _ hreads rfl rfl hfields.staysLevel
  rcases hbrackets with ⟨space, current, before, hcs, hspace, hcurrent, hbefore⟩
  cases space with
  | nil =>
      cases hcs
      have hspace : ∀ c ∈ rest, mark c.toNat = .plain :=
        plain_of_endOfInput hend fun hmem => hnul (List.mem_append_right before hmem)
      rw [codes_append, Place.read_append, hbefore, Place.read_outside_plain (mark_codes _ hspace)]
  | cons c space =>
      cases hcs
      cases hspace '\x7b' (by simp)

end Parser

/-! ## Bytes -/

section Bytes
open Json

/-- The bytes of a character are its code, or none of them counts. -/
theorem utf8EncodeChar_cases (c : Char) :
    (String.utf8EncodeChar c).map UInt8.toNat = [c.toNat] ∨
      0x80 ≤ c.toNat ∧ ∃ x xs, (String.utf8EncodeChar c).map UInt8.toNat = x :: xs ∧
        ∀ y ∈ x :: xs, 0x80 ≤ y := by
  have hval : c.toNat = c.val.toNat := rfl
  unfold String.utf8EncodeChar
  dsimp only
  split_ifs with h₁ h₂ h₃
  · left
    simp only [List.map_cons, List.map_nil, UInt8.toNat_ofNat']
    congr 1
    omega
  all_goals
    refine .inr ⟨by omega, _, _, rfl, ?_⟩
    simp only [List.map_cons, List.map_nil, List.mem_cons, List.not_mem_nil, or_false,
      forall_eq_or_imp, forall_eq, UInt8.toNat_ofNat']
    omega

theorem read_utf8EncodeChar (c : Char) (p : Place) :
    p.read ((String.utf8EncodeChar c).map UInt8.toNat) = p.next (mark c.toNat) := by
  rcases utf8EncodeChar_cases c with h | ⟨hle, x, xs, h, hall⟩
  · rw [h]
    rfl
  · rw [h, Place.read_plain (fun y hy => mark_of_le (hall y hy)), mark_of_le hle]

/-- Reading the bytes of a text is reading its characters. -/
theorem read_utf8 (cs : List Char) (p : Place) :
    p.read ((cs.flatMap String.utf8EncodeChar).map UInt8.toNat) = p.read (codes cs) := by
  induction cs generalizing p with
  | nil => rfl
  | cons c cs ih =>
      rw [List.flatMap_cons, List.map_append, Place.read_append, read_utf8EncodeChar, ih]
      rfl

/-- A text whose first byte is a brace. -/
theorem toList_of_head {text : String} {bytes : Bytes} (h : utf8 text = 0x7B :: bytes) :
    ∃ cs, text.toList = '\x7b' :: cs ∧ bytes = cs.flatMap String.utf8EncodeChar := by
  unfold utf8 at h
  cases htext : text.toList with
  | nil =>
      rw [htext] at h
      cases h
  | cons c cs =>
      rw [htext, List.flatMap_cons] at h
      refine ⟨cs, ?_⟩
      rcases utf8EncodeChar_cases c with hc | ⟨hle, x, xs, hc, hall⟩
      · rcases List.map_eq_singleton_iff.mp hc with ⟨b, hb, hcode⟩
        rw [hb] at h
        cases h
        have hbrace : c = '\x7b' := Char.toNat_inj.mp hcode.symm
        exact ⟨by rw [hbrace], rfl⟩
      · rcases List.map_eq_cons_iff.mp hc with ⟨b, bs, hb, hx, -⟩
        rw [hb] at h
        cases h
        have hfirst := hall x (by simp)
        rw [← hx] at hfirst
        exact absurd hfirst (by decide)

theorem nul_of_utf8 {cs : List Char} (h : '\x00' ∈ cs) :
    (0 : UInt8) ∈ cs.flatMap String.utf8EncodeChar :=
  List.mem_flatMap.mpr ⟨_, h, by decide⟩

theorem utf8_of_fromUTF8? {bytes : Bytes} {text : String}
    (h : String.fromUTF8? bytes.toByteArray = some text) : utf8 text = bytes := by
  unfold String.fromUTF8? at h
  split_ifs at h with hvalid
  cases h
  let text := String.fromUTF8 bytes.toByteArray hvalid
  have htext : (utf8 text).toByteArray = text.toByteArray := by
    rw [← String.utf8Encode_toList]
    rfl
  exact List.toByteArray_inj.mp htext

/-- A line does not parse that starts with a brace and ends with an object behind something
else. -/
theorem parseFrame_torn [Strtod] {kept : Bytes} {js : Json} (hkept : kept.head? = some 0x7B)
    (hnul : 0 ∉ kept) (hjs : js.IsObject) : parseFrame (kept ++ utf8 js.dump) = none := by
  by_contra hparses
  rcases Option.ne_none_iff_exists'.mp hparses with ⟨v, hparse⟩
  rcases Option.bind_eq_some_iff.mp hparse with ⟨text, htext, hv⟩
  have hbytes := utf8_of_fromUTF8? htext
  cases kept with
  | nil => cases hkept
  | cons b kept =>
      cases hkept
      rcases toList_of_head hbytes with ⟨cs, hcs, hrest⟩
      rw [List.append_eq] at hrest
      have hnone : '\x00' ∉ cs := by
        intro hmem
        have hzero := nul_of_utf8 hmem
        rw [← hrest] at hzero
        rcases List.mem_append.mp hzero with hzero | hzero
        · exact hnul (List.mem_cons_of_mem _ hzero)
        · exact notMem_utf8_dump (by decide) js hzero
      have hread := Parser.read_of_denotes (Parser.denotes_of_parse hv) hcs hnone
      rw [← read_utf8, ← hrest, List.map_append, Place.read_append, utf8, read_utf8, Json.dump,
        String.toList_ofList] at hread
      cases js with
      | object fields => exact read_ne_end (neutral_dumpChars (.object fields)) rfl _ hread
      | _ => exact hjs.elim

end Bytes

/-! ## Calls of `sendJsonFrame` -/

namespace Client

/-- The client after a call, which goes on a line that is open if there is one. -/
def SendCall.perform (s : Threads) (c : SendCall) : Threads :=
  if c.returned then
    if s.torn then { s with torn := false } else { s with sent := s.sent ++ [c.js] }
  else { s with torn := s.torn || !c.accepted.isEmpty }

variable {c : SendCall} {calls : List SendCall} {kept : Bytes} {s : Threads}

/-- What a call does to the stream is one of the things that a send of the client may do. -/
theorem SendCall.sends_perform (s : Threads) (c : SendCall) :
    Sends c.js s c.returned (c.perform s) := by
  unfold SendCall.perform
  split_ifs with hreturned htorn
  · rw [hreturned]
    exact .glued htorn
  · rw [hreturned]
    exact .whole (by simpa using htorn)
  · have hfalse : c.returned = false := by simpa using hreturned
    rw [hfalse]
    cases hempty : c.accepted.isEmpty with
    | true =>
        rw [Bool.not_true, Bool.or_false]
        exact .refused
    | false =>
        rw [Bool.not_false, Bool.or_true]
        exact .cut

/-- What a call leaves in the stream that fails is the beginning of its text. -/
theorem SendCall.accepted_prefix (h : c.returned = false) : c.accepted <+: utf8 c.js.dump := by
  rcases sendLoop_spec c.sends 0 (utf8 (sendJsonFrame c.js)) with ⟨hstart, hall⟩
  have htext : utf8 (sendJsonFrame c.js) = utf8 c.js.dump ++ [newline] :=
    Writer.utf8_text .sendJsonFrame c.js
  have hline : c.accepted <+: utf8 c.js.dump ++ [newline] := htext ▸ hstart
  rcases List.prefix_concat_iff.mp hline with heq | hpart
  · have hreturned : c.returned = true := hall.mpr (heq.trans htext.symm)
    rw [h] at hreturned
    cases hreturned
  · exact hpart

/-- A line that is open: empty, or the beginning of an object and whatever comes behind. -/
structure OpenLine (kept : Bytes) : Prop where
  newline : newline ∉ kept
  nul : 0 ∉ kept
  brace : kept = [] ∨ kept.head? = some 0x7B

theorem head?_dump {js : Json} (hjs : js.IsObject) : (utf8 js.dump).head? = some 0x7B := by
  cases js with
  | object fields =>
      have hbrace : String.utf8EncodeChar '\x7b' = [0x7B] := by decide
      rw [utf8, Json.dump, String.toList_ofList, Json.dumpChars, List.flatMap_cons, hbrace]
      rfl
  | _ => exact hjs.elim

theorem OpenLine.append (h : OpenLine kept) (hreturned : c.returned = false)
    (hjs : c.js.IsObject) : OpenLine (kept ++ c.accepted) := by
  have hpart := SendCall.accepted_prefix hreturned
  have hlow : ∀ b : UInt8, b.toNat < 0x20 → b ∉ kept → b ∉ kept ++ c.accepted := by
    intro b hb hkept hmem
    rcases List.mem_append.mp hmem with hmem | hmem
    · exact hkept hmem
    · exact notMem_utf8_dump hb c.js (hpart.subset hmem)
  refine ⟨hlow _ (by decide) h.newline, hlow _ (by decide) h.nul, ?_⟩
  rcases h.brace with rfl | hbrace
  · cases haccepted : c.accepted with
    | nil => exact .inl rfl
    | cons b more =>
        rcases hpart with ⟨rest, hrest⟩
        rw [haccepted] at hrest
        have hhead := head?_dump hjs
        rw [← hrest] at hhead
        exact .inr hhead
  · refine .inr ?_
    rw [List.head?_append, hbrace]
    rfl

section
variable [Strtod]

theorem Writes.isObject {js : Json} (h : Writes js) : js.IsObject := by
  cases h with
  | ack u text js request hparse hrequest =>
      unfold ackMessageIfNeeded at hrequest
      split at hrequest
      · rw [List.mem_singleton.mp hrequest]
        trivial
      · cases hrequest
  | _ => trivial

variable [LawfulStrtod]

/-- The frames in the stream that parse are those of the calls that found no open line. -/
theorem frames_acceptedBytes (hwrites : ∀ c ∈ calls, Writes c.js) (hkept : OpenLine kept)
    (htorn : s.torn = !kept.isEmpty) :
    s.sent ++ (items newline frameOfLine (kept ++ acceptedBytes calls)).filterMap parseFrame =
      (calls.foldl SendCall.perform s).sent := by
  have hempty : OpenLine [] := ⟨by simp, by simp, .inl rfl⟩
  induction calls generalizing s kept with
  | nil =>
      have hnone : items newline frameOfLine kept = [] := by
        simp [items, pieces_of_notMem hkept.newline]
      simp [acceptedBytes, hnone]
  | cons c calls ih =>
      have hjs : Writes c.js := hwrites c (by simp)
      have hrest : ∀ c ∈ calls, Writes c.js := fun d hd => hwrites d (by simp [hd])
      have hbytes : acceptedBytes (c :: calls) = c.accepted ++ acceptedBytes calls :=
        List.flatMap_cons
      rw [hbytes, List.foldl_cons, SendCall.perform]
      cases hreturned : c.returned with
      | true =>
          rw [items_of_goesOut hkept.newline (c.returned_iff.mp hreturned), if_pos rfl]
          cases kept with
          | nil =>
              have hparse : parseFrame ([] ++ utf8 c.js.dump) = some c.js :=
                (parseFrame_utf8 _).trans (Parser.parse_dump_of_normal hjs.normal)
              rw [List.filterMap_cons_some hparse, if_neg (by simp [htorn])]
              have hlater := ih (s := { s with sent := s.sent ++ [c.js] }) hrest hempty htorn
              rw [← hlater]
              simp
          | cons b kept =>
              have hhead : (b :: kept).head? = some 0x7B := hkept.brace.resolve_left (by simp)
              have hparse := parseFrame_torn hhead hkept.nul hjs.isObject
              rw [List.filterMap_cons_none hparse, if_pos (by simp [htorn])]
              have hlater := ih (s := { s with torn := false }) hrest hempty rfl
              exact hlater
      | false =>
          have hopen := hkept.append hreturned hjs.isObject
          rw [if_neg (by simp), ← List.append_assoc]
          refine ih (s := { s with torn := s.torn || !c.accepted.isEmpty }) hrest hopen ?_
          cases kept with
          | nil => simp [htorn]
          | cons b kept => simp [htorn]

/-- `sendJsonFrame` refines the client's sends, whatever `send` returns: the server starts
handlers for just the frames that the model counts as sent, in order, and none for a line on
which something was cut off. -/
theorem partial_sends_refine (hwrites : ∀ c ∈ calls, Writes c.js) {reads : List Bytes}
    (hreads : reads.flatten = acceptedBytes calls) (conn : Conn) (time : String) :
    (∀ s c, Sends c.js s c.returned (SendCall.perform s c)) ∧
      frameJobs conn time reads =
        (calls.foldl SendCall.perform .start).sent.map fun js => .frame conn js time := by
  refine ⟨SendCall.sends_perform, ?_⟩
  have hempty : OpenLine [] := ⟨by simp, by simp, .inl rfl⟩
  have hframes := frames_acceptedBytes (s := .start) hwrites hempty rfl
  rw [frameJobs, ChatServer.receive_eq, hreads, ← hframes]
  rfl

end

/-- The login breaks off, the heartbeat ends its line, and the logout has one of its own. -/
theorem partial_sends_refine_broken : (letI : Strtod := Parser.noDoubles
    frameJobs ⟨0, 0⟩ "" [acceptedBytes [⟨loginRequest 1 "pw", .broken 3⟩,
        ⟨heartbeatRequest 1, .whole⟩, ⟨loginoutRequest 1, .whole⟩]] =
      [.frame ⟨0, 0⟩ (loginoutRequest 1) ""]) := by
  let _ := Parser.noDoubles
  have hwrites : ∀ c ∈ [SendCall.mk (loginRequest 1 "pw") (.broken 3),
      ⟨heartbeatRequest 1, .whole⟩, ⟨loginoutRequest 1, .whole⟩], Writes c.js := by
    simp only [List.mem_cons, List.not_mem_nil, or_false, forall_eq_or_imp, forall_eq]
    exact ⟨.login 1 "pw", .heartbeat 1, .loginout 1⟩
  have hbroken : (SendCall.mk (loginRequest 1 "pw") (.broken 3)).BreaksOff :=
    SendCall.breaksOff_broken (by decide) (by decide)
  have hreturned : (SendCall.mk (loginRequest 1 "pw") (.broken 3)).returned = false := by
    rw [Bool.eq_false_iff, ne_eq, SendCall.returned_iff]
    exact hbroken.2
  have haccepted : (SendCall.mk (loginRequest 1 "pw") (.broken 3)).accepted.isEmpty = false := by
    rw [List.isEmpty_eq_false_iff]
    exact (SendCall.breaksOff_iff hbroken.2).mp hbroken
  have hwhole : ∀ js, (SendCall.mk js .whole).returned = true := fun js =>
    (SendCall.returned_iff _).mpr (SendResults.takesAll_whole ..)
  rw [(partial_sends_refine hwrites (by simp) ⟨0, 0⟩ "").2]
  simp [SendCall.perform, hreturned, haccepted, hwhole, Threads.start]

end Client
end ChatCluster
