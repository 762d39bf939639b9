import ChatCluster.Framing

/-!
# Sends that accept a part of a frame

`send` may accept fewer bytes than it is asked to, and may fail when some bytes of a
frame have been accepted before. `sendJsonFrame` then gives the frame up, but what has
been accepted stays in the stream, in front of the next frame.
-/
namespace ChatCluster
open LineFraming

namespace Client

/-- What the calls of `send` for one frame return: the `k`-th of them, asked to send
`left` bytes. None accepts more bytes than that. -/
structure SendResults where
  result : ℕ → ℕ → ℤ
  result_le : ∀ k left, result k left ≤ left

/-- The loop of `sendJsonFrame` over the bytes that are left: what it returns, and the
bytes that `send` has accepted. -/
def sendLoop (sends : SendResults) (k : ℕ) (left : Bytes) : Bool × Bytes :=
  if 0 < left.length then
    let n := sends.result k left.length
    if n ≤ 0 then (false, [])
    else
      let later := sendLoop sends (k + 1) (left.drop n.toNat)
      (later.1, left.take n.toNat ++ later.2)
  else (true, [])
termination_by left.length
decreasing_by
  rw [List.length_drop]
  omega

/-- A call of `sendJsonFrame`. -/
structure SendCall where
  js : Json
  sends : SendResults

namespace SendCall

def run (c : SendCall) : Bool × Bytes := sendLoop c.sends 0 (utf8 (sendJsonFrame c.js))

def returned (c : SendCall) : Bool := c.run.1

def accepted (c : SendCall) : Bytes := c.run.2

end SendCall

/-- The stream that the calls leave, one after another as `g_sendMutex` lets them in. -/
def acceptedBytes (calls : List SendCall) : Bytes := calls.flatMap SendCall.accepted

/-- The server takes exactly the texts of the successful calls out of the stream,
whatever pieces it arrives in. -/
def FramesIntact (calls : List SendCall) : Prop :=
  ∀ reads : List Bytes, reads.flatten = acceptedBytes calls →
    (ChatServer.receive reads).1 =
      (calls.filter SendCall.returned).map fun c => utf8 c.js.dump

/-! ## What the results of `send` decide -/

/-- From the `k`-th call on, all `left` bytes are accepted before an error or a zero. -/
inductive SendResults.TakesAll (sends : SendResults) : ℕ → ℕ → Prop
  | done (k : ℕ) : TakesAll sends k 0
  | more {k left : ℕ} : 0 < sends.result k left →
      TakesAll sends (k + 1) (left - (sends.result k left).toNat) → TakesAll sends k left

namespace SendCall

def length (c : SendCall) : ℕ := (utf8 (sendJsonFrame c.js)).length

/-- The frame is accepted as a whole. -/
def GoesOut (c : SendCall) : Prop := c.sends.TakesAll 0 c.length

/-- An error or a zero comes after some bytes, but not all, have been accepted. -/
def BreaksOff (c : SendCall) : Prop := 0 < c.sends.result 0 c.length ∧ ¬ c.GoesOut

end SendCall

theorem sendLoop_nil (sends : SendResults) (k : ℕ) : sendLoop sends k [] = (true, []) := by
  rw [sendLoop, if_neg (by simp)]

theorem sendLoop_refused {sends : SendResults} {k : ℕ} {left : Bytes} (hleft : left ≠ [])
    (h : sends.result k left.length ≤ 0) : sendLoop sends k left = (false, []) := by
  rw [sendLoop, if_pos (List.length_pos_iff.mpr hleft)]
  exact if_pos h

theorem sendLoop_accepted {sends : SendResults} {k : ℕ} {left : Bytes}
    (h : 0 < sends.result k left.length) :
    sendLoop sends k left =
      ((sendLoop sends (k + 1) (left.drop (sends.result k left.length).toNat)).1,
        left.take (sends.result k left.length).toNat ++
          (sendLoop sends (k + 1) (left.drop (sends.result k left.length).toNat)).2) := by
  have hle := sends.result_le k left.length
  have hpos : 0 < left.length := by omega
  rw [sendLoop, if_pos hpos]
  exact if_neg (by omega)

/-- The loop ends with nothing left, at a result that is not positive, or goes on with
less. -/
theorem sendLoop_induction (sends : SendResults) {P : ℕ → Bytes → Prop}
    (done : ∀ k, P k [])
    (refused : ∀ k left, left ≠ [] → sends.result k left.length ≤ 0 → P k left)
    (accepted : ∀ k left, 0 < sends.result k left.length →
      P (k + 1) (left.drop (sends.result k left.length).toNat) → P k left)
    (k : ℕ) (left : Bytes) : P k left := by
  induction h : left.length using Nat.strong_induction_on generalizing k left with
  | _ n ih =>
      by_cases hleft : left = []
      · subst hleft
        exact done k
      · by_cases hpos : 0 < sends.result k left.length
        · apply accepted k left hpos
          have hle := sends.result_le k left.length
          apply ih _ _ (k + 1) _ rfl
          rw [List.length_drop]
          omega
        · exact refused k left hleft (by omega)

/-- What was accepted is the beginning of what was to be sent, and all of it exactly when
the call succeeds. -/
theorem sendLoop_spec (sends : SendResults) (k : ℕ) (left : Bytes) :
    (sendLoop sends k left).2 <+: left ∧
      ((sendLoop sends k left).1 = true ↔ (sendLoop sends k left).2 = left) := by
  induction k, left using sendLoop_induction sends with
  | done k => simp [sendLoop_nil]
  | refused k left hleft h => simp [sendLoop_refused hleft h, Ne.symm hleft]
  | accepted k left h ih =>
      obtain ⟨⟨rest, hrest⟩, hall⟩ := ih
      rw [sendLoop_accepted h]
      have hsplit := List.take_append_drop (sends.result k left.length).toNat left
      constructor
      · refine ⟨rest, ?_⟩
        rw [List.append_assoc, hrest, hsplit]
      · rw [hall]
        constructor
        · intro heq
          rw [heq, hsplit]
        · intro heq
          exact List.append_cancel_left (heq.trans hsplit.symm)

theorem sendLoop_takesAll (sends : SendResults) (k : ℕ) (left : Bytes) :
    (sendLoop sends k left).1 = true ↔ sends.TakesAll k left.length := by
  induction k, left using sendLoop_induction sends with
  | done k => simp [sendLoop_nil, SendResults.TakesAll.done]
  | refused k left hleft h =>
      have hnot : ¬ sends.TakesAll k left.length := by
        intro htakes
        generalize hlen : left.length = n at h htakes
        cases htakes with
        | done => exact hleft (List.length_eq_zero_iff.mp hlen)
        | more hpos => omega
      simp [sendLoop_refused hleft h, hnot]
  | accepted k left h ih =>
      rw [sendLoop_accepted h, ih, List.length_drop]
      constructor
      · exact .more h
      · intro htakes
        generalize hlen : left.length = n at h htakes
        cases htakes with
        | done =>
            have hle := sends.result_le k 0
            omega
        | more _ htakes => exact htakes

namespace SendCall
variable (c : SendCall)

theorem returned_iff : c.returned = true ↔ c.GoesOut := sendLoop_takesAll ..

theorem sendJsonFrame_ne_nil : utf8 (sendJsonFrame c.js) ≠ [] := by
  have htext := Writer.utf8_text .sendJsonFrame c.js
  rw [Writer.text] at htext
  simp [htext]

theorem accepted_eq_nil_iff : c.accepted = [] ↔ c.sends.result 0 c.length ≤ 0 := by
  have hne := c.sendJsonFrame_ne_nil
  constructor
  · intro hnil
    by_contra hpos
    have hloop : sendLoop c.sends 0 (utf8 (sendJsonFrame c.js)) = _ :=
      sendLoop_accepted (not_le.mp hpos)
    rw [accepted, run, hloop] at hnil
    have htake := (List.append_eq_nil_iff.mp hnil).1
    obtain hzero | hnone := List.take_eq_nil_iff.mp htake
    · exact hpos (Int.toNat_eq_zero.mp hzero)
    · exact hne hnone
  · intro hnot
    rw [accepted, run, sendLoop_refused hne hnot]

/-- A call that succeeds adds one line to the stream. -/
theorem accepted_of_goesOut (h : c.GoesOut) : c.accepted = utf8 c.js.dump ++ [newline] := by
  have hall := (sendLoop_spec c.sends 0 (utf8 (sendJsonFrame c.js))).2.mp (c.returned_iff.mpr h)
  rw [accepted, run, hall]
  exact Writer.utf8_text .sendJsonFrame c.js

/-- A call that fails ends no line. -/
theorem newline_notMem_accepted (h : ¬ c.GoesOut) : newline ∉ c.accepted := by
  obtain ⟨hstart, hall⟩ := sendLoop_spec c.sends 0 (utf8 (sendJsonFrame c.js))
  have htext : utf8 (sendJsonFrame c.js) = utf8 c.js.dump ++ [newline] :=
    Writer.utf8_text .sendJsonFrame c.js
  have hpart : c.accepted <+: utf8 c.js.dump := by
    have hline : c.accepted <+: utf8 c.js.dump ++ [newline] := htext ▸ hstart
    obtain heq | hpart := List.prefix_concat_iff.mp hline
    · exact absurd (c.returned_iff.mp (hall.mpr (heq.trans htext.symm))) h
    · exact hpart
  intro hmem
  exact notMem_utf8_dump (by decide) c.js (hpart.subset hmem)

end SendCall

/-! ## The lines of the stream -/

/-- Behind a fragment that is kept, the first frame is spoilt. -/
theorem frameOfLine_append_dump (kept : Bytes) (js : Json) :
    frameOfLine (kept ++ utf8 js.dump) = some (kept ++ utf8 js.dump) := by
  have hne := utf8_dump_ne_nil js
  have hlast : (kept ++ utf8 js.dump).getLast? = (utf8 js.dump).getLast? := by
    rw [List.getLast?_append_of_ne_nil _ hne]
  have hpop : popCarriageReturn (kept ++ utf8 js.dump) = kept ++ utf8 js.dump := by
    unfold popCarriageReturn
    apply if_neg
    rw [hlast]
    intro hcr
    exact notMem_utf8_dump (by decide) js (List.mem_of_getLast? hcr)
  rw [frameOfLine, hpop, if_neg (by simp [hne])]

theorem SendCall.breaksOff_iff {c : SendCall} (h : ¬ c.GoesOut) : c.BreaksOff ↔ c.accepted ≠ [] := by
  rw [BreaksOff, ne_eq, c.accepted_eq_nil_iff, not_le]
  exact and_iff_left h

section Line
variable {kept : Bytes} {c : SendCall}

/-- A call that goes out ends the line of what is kept in front of it. -/
theorem items_of_goesOut (hkept : newline ∉ kept) (h : c.GoesOut) (stream : Bytes) :
    items newline frameOfLine (kept ++ (c.accepted ++ stream)) =
      (kept ++ utf8 c.js.dump) :: items newline frameOfLine stream := by
  have hline : newline ∉ kept ++ utf8 c.js.dump := by
    intro hmem
    cases List.mem_append.mp hmem with
    | inl hmem => exact hkept hmem
    | inr hmem => exact notMem_utf8_dump (by decide) c.js hmem
  have hstream : kept ++ (c.accepted ++ stream) =
      (kept ++ utf8 c.js.dump) ++ newline :: stream := by
    simp [c.accepted_of_goesOut h]
  rw [hstream, items_append_cons hline, frameOfLine_append_dump, Option.toList_some,
    List.singleton_append]

/-- A call that fails adds to what is kept. -/
theorem newline_notMem_kept (hkept : newline ∉ kept) (h : ¬ c.GoesOut) :
    newline ∉ kept ++ c.accepted := by
  intro hmem
  cases List.mem_append.mp hmem with
  | inl hmem => exact hkept hmem
  | inr hmem => exact c.newline_notMem_accepted h hmem

end Line

/-- The frames in the stream are the texts of the successful calls, if no fragment is
kept in front of one of them. -/
theorem items_acceptedBytes (kept : Bytes) (hkept : newline ∉ kept) (calls : List SendCall) :
    items newline frameOfLine (kept ++ acceptedBytes calls) =
        ((calls.filter SendCall.returned).map fun c => utf8 c.js.dump) ↔
      (kept ≠ [] → ∀ c ∈ calls, ¬ c.GoesOut) ∧
        calls.Pairwise fun c d => c.BreaksOff → ¬ d.GoesOut := by
  induction calls generalizing kept with
  | nil => simp [acceptedBytes, items, pieces_of_notMem hkept]
  | cons c calls ih =>
      have hbytes : acceptedBytes (c :: calls) = c.accepted ++ acceptedBytes calls :=
        List.flatMap_cons
      rw [hbytes, List.pairwise_cons]
      by_cases hout : c.GoesOut
      · have hrest := ih [] (by simp)
        have hnot : ¬ c.BreaksOff := fun h => h.2 hout
        rw [List.nil_append] at hrest
        rw [items_of_goesOut hkept hout, List.filter_cons_of_pos (c.returned_iff.mpr hout),
          List.map_cons, List.cons.injEq, hrest]
        constructor
        · intro h
          have hnil : kept = [] := by simpa using h.1
          exact ⟨fun hne => absurd hnil hne, fun d _ hbreaks => absurd hbreaks hnot, h.2.2⟩
        · intro h
          have hnil : kept = [] := by
            by_contra hne
            exact h.1 hne c List.mem_cons_self hout
          exact ⟨by simp [hnil], by simp, h.2.2⟩
      · have hfalse : ¬ c.returned = true := fun h => hout (c.returned_iff.mp h)
        have hrest := ih (kept ++ c.accepted) (newline_notMem_kept hkept hout)
        rw [← List.append_assoc, List.filter_cons_of_neg hfalse, hrest, SendCall.breaksOff_iff hout]
        constructor
        · intro h
          refine ⟨fun hne d hd => ?_, fun d hd hne => h.1 (by simp [hne]) d hd, h.2⟩
          cases List.mem_cons.mp hd with
          | inl heq => exact heq ▸ hout
          | inr hd => exact h.1 (by simp [hne]) d hd
        · intro h
          refine ⟨fun hne d hd => ?_, h.2.2⟩
          by_cases hnil : kept = []
          · exact h.2.1 d hd (by simpa [hnil] using hne)
          · exact h.1 hnil d (List.mem_cons_of_mem c hd)

theorem framesIntact_iff_items (calls : List SendCall) :
    FramesIntact calls ↔ items newline frameOfLine (acceptedBytes calls) =
      (calls.filter SendCall.returned).map fun c => utf8 c.js.dump := by
  constructor
  · intro h
    have hone := h [acceptedBytes calls] (by simp)
    rw [ChatServer.receive_eq] at hone
    simpa using hone
  · intro h reads hreads
    rw [ChatServer.receive_eq, hreads]
    exact h

/-- The server gets exactly the frames whose calls have succeeded, unless a call breaks off
and a later one goes out. -/
theorem frames_intact_iff (calls : List SendCall) :
    FramesIntact calls ↔ calls.Pairwise fun c d => c.BreaksOff → ¬ d.GoesOut := by
  have hitems := items_acceptedBytes [] (by simp) calls
  rw [List.nil_append, ← framesIntact_iff_items] at hitems
  rw [hitems]
  exact and_iff_right fun h => absurd rfl h

/-! ## A fragment -/

def SendResults.whole : SendResults where
  result _ left := left
  result_le _ _ := le_rfl

/-- `n` bytes are accepted, then the connection fails. -/
def SendResults.broken (n : ℕ) : SendResults where
  result k left := if k = 0 then min n left else -1
  result_le k left := by
    split_ifs
    · omega
    · omega

@[simp] theorem SendResults.broken_zero (n left : ℕ) :
    (SendResults.broken n).result 0 left = min (n : ℤ) left := by
  simp [broken]

@[simp] theorem SendResults.broken_succ (n k left : ℕ) :
    (SendResults.broken n).result (k + 1) left = -1 := by
  simp [broken]

theorem SendResults.takesAll_whole (k left : ℕ) : SendResults.whole.TakesAll k left := by
  by_cases h : left = 0
  · subst h
    exact .done k
  · refine .more (Int.natCast_pos.mpr (Nat.pos_of_ne_zero h)) ?_
    have hall : left - (SendResults.whole.result k left).toNat = 0 := by
      simp [SendResults.whole]
    rw [hall]
    exact .done (k + 1)

theorem SendResults.not_takesAll_broken {n left : ℕ} (hlen : n < left) :
    ¬ (SendResults.broken n).TakesAll 0 left := by
  intro h
  cases h with
  | done => omega
  | more _ hrest =>
      have hfirst : ((SendResults.broken n).result 0 left).toNat = n := by
        rw [broken_zero]
        omega
      rw [hfirst] at hrest
      generalize hleft : left - n = m at hrest
      cases hrest with
      | done => omega
      | more hpos => simp at hpos

theorem SendCall.breaksOff_broken {js : Json} {n : ℕ} (hpos : 0 < n)
    (hlen : n < (SendCall.mk js (.broken n)).length) : (SendCall.mk js (.broken n)).BreaksOff := by
  constructor
  · change 0 < (SendResults.broken n).result 0 (SendCall.mk js (.broken n)).length
    rw [SendResults.broken_zero]
    omega
  · exact SendResults.not_takesAll_broken hlen

/-- The acknowledgement breaks off, and the chat message that follows is lost with it. -/
theorem fragment_spoils_frame :
    ¬ FramesIntact [⟨ackRequest 2 (.int 7), .broken 3⟩,
      ⟨chatRequest 2 "bob" 1 "hello" "12:00:00", .whole⟩] := by
  intro h
  rw [framesIntact_iff_items, ← List.nil_append (acceptedBytes _),
    items_acceptedBytes [] (by simp)] at h
  have hpair := (List.pairwise_cons.mp h.2).1 _ List.mem_cons_self
  exact hpair (SendCall.breaksOff_broken (by decide) (by decide))
    (SendResults.takesAll_whole 0 _)

end Client
end ChatCluster
