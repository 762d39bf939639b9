import ChatCluster.ChatServer
import ChatCluster.Client
import ChatCluster.Library.LineFraming

/-!
# Frames on a connection

A frame is one line of text. The server cuts frames out of a muduo `Buffer`, the client
out of a `std::string`; both keep the bytes that do not end a frame yet. Whatever the
client does with a frame can throw, which ends its receive thread and the process.
-/
namespace ChatCluster
open LineFraming

abbrev Bytes := List UInt8

def newline : UInt8 := 10

def carriageReturn : UInt8 := 13

/-- The bytes of a string. -/
def utf8 (s : String) : Bytes := s.toList.flatMap String.utf8EncodeChar

/-- Bytes read through a `char *`. -/
def cBytes (buffer : Bytes) : Bytes := buffer.takeWhile fun b => b ≠ 0

/-- `if (!frame.empty() && frame.back() == '\r') frame.pop_back();` -/
def popCarriageReturn (frame : Bytes) : Bytes :=
  if frame.getLast? = some carriageReturn then frame.dropLast else frame

/-! ## The two loops -/

/-- The loop of `ChatServer::onMessage` over its buffer: the frames handed to
`json::parse` and the bytes that stay. Every exception of a frame is caught. -/
def ChatServer.takeFrames (buffer : Bytes) : List Bytes × Bytes :=
  if 0 < buffer.length then
    let eol := buffer.idxOf newline
    if h : eol = buffer.length then ([], buffer)
    else
      let frame := popCarriageReturn (buffer.take eol)
      let later := ChatServer.takeFrames (buffer.drop (eol + 1))
      if frame.isEmpty then later else (frame :: later.1, later.2)
  else ([], buffer)
termination_by buffer.length
decreasing_by
  have := List.idxOf_le_length (a := newline) (l := buffer)
  rw [List.length_drop]
  omega

/-- muduo appends what it has read to the buffer and calls `onMessage`. -/
def ChatServer.receive (reads : List Bytes) : List Bytes × Option Bytes :=
  feed (fun buffer =>
    ((ChatServer.takeFrames buffer).1, some (ChatServer.takeFrames buffer).2)) [] reads

/-- The inner loop of `readTaskHandler`; `throws` tells for which frames an exception
leaves the loop. -/
def Client.takeFrames (throws : Bytes → Bool) (recvBuffer : Bytes) :
    List Bytes × Option Bytes :=
  match h : recvBuffer.idxOf? newline with
  | some pos =>
      let frame := popCarriageReturn (recvBuffer.take pos)
      let rest := recvBuffer.drop (pos + 1)
      if frame.isEmpty then Client.takeFrames throws rest
      else if throws frame then ([frame], none)
      else
        let later := Client.takeFrames throws rest
        (frame :: later.1, later.2)
  | none => ([], some recvBuffer)
termination_by recvBuffer.length
decreasing_by
  all_goals
    obtain ⟨hlt, -⟩ := List.idxOf?_eq_some_iff.mp h
    rw [List.length_drop]
    omega

/-- The outer loop of `readTaskHandler` over the results of `recv`. -/
def Client.receive (throws : Bytes → Bool) (reads : List Bytes) : List Bytes × Option Bytes :=
  feed (Client.takeFrames throws) [] reads

/-! ## What they compute -/

theorem popCarriageReturn_eq_chomp (frame : Bytes) :
    popCarriageReturn frame = chomp carriageReturn frame := by
  symm
  rw [chomp_eq_iff, popCarriageReturn]
  split_ifs with hlast
  · exact .inl (List.dropLast_append_getLast? _ hlast).symm
  · refine .inr ⟨?_, rfl⟩
    rintro ⟨front, rfl⟩
    exact hlast (by simp)

/-- A line as a frame; an empty one is skipped. -/
def frameOfLine (line : Bytes) : Option Bytes :=
  if popCarriageReturn line = [] then none else some (popCarriageReturn line)

theorem frameOfLine_of_isEmpty {line : Bytes} (h : (popCarriageReturn line).isEmpty = true) :
    frameOfLine line = none := by
  simp only [List.isEmpty_iff] at h
  simp [frameOfLine, h]

theorem frameOfLine_of_not_isEmpty {line : Bytes}
    (h : ¬ (popCarriageReturn line).isEmpty = true) :
    frameOfLine line = some (popCarriageReturn line) := by
  simp only [List.isEmpty_iff] at h
  simp [frameOfLine, h]

theorem ChatServer.takeFrames_eq_scan (buffer : Bytes) :
    ((ChatServer.takeFrames buffer).1, some (ChatServer.takeFrames buffer).2) =
      scan newline frameOfLine (fun _ => false) buffer := by
  induction buffer using stream_induction newline with
  | rest buffer h =>
      have hall : buffer.idxOf newline = buffer.length := List.idxOf_of_notMem h
      rw [scan_of_notMem h, ChatServer.takeFrames]
      split_ifs
      · simp [hall]
      · rfl
  | piece line buffer h ih =>
      have heol : (line ++ newline :: buffer).idxOf newline = line.length := by
        simp [List.idxOf_append_of_notMem h]
      have hlen : line.length ≠ (line ++ newline :: buffer).length := by simp
      have hpos : 0 < (line ++ newline :: buffer).length := List.length_pos_of_ne_nil (by simp)
      have hframe : (line ++ newline :: buffer).take line.length = line := by simp
      have hrest : (line ++ newline :: buffer).drop (line.length + 1) = buffer := by simp
      rw [ChatServer.takeFrames, if_pos hpos, heol, dif_neg hlen]
      dsimp only
      rw [hframe, hrest]
      split_ifs with hempty
      · rw [scan_of_dropped h (frameOfLine_of_isEmpty hempty), ← ih]
      · rw [scan_of_item h (frameOfLine_of_not_isEmpty hempty) rfl, ← ih]

theorem Client.takeFrames_eq_scan (throws : Bytes → Bool) (recvBuffer : Bytes) :
    Client.takeFrames throws recvBuffer = scan newline frameOfLine throws recvBuffer := by
  induction recvBuffer using stream_induction newline with
  | rest recvBuffer h =>
      rw [scan_of_notMem h, Client.takeFrames]
      split
      · next pos hpos =>
        have hnone : recvBuffer.idxOf? newline = none := List.idxOf?_eq_none_iff.mpr h
        rw [hnone] at hpos
        cases hpos
      · rfl
  | piece line recvBuffer h ih =>
      have hfind : (line ++ newline :: recvBuffer).idxOf? newline = some line.length := by
        apply List.idxOf?_eq_some_iff.mpr
        refine ⟨by simp, by simp, fun j hj => ?_⟩
        rw [List.getElem_append_left hj]
        exact fun he => h (he ▸ List.getElem_mem hj)
      have hframe : (line ++ newline :: recvBuffer).take line.length = line := by simp
      have hrest : (line ++ newline :: recvBuffer).drop (line.length + 1) = recvBuffer := by simp
      rw [Client.takeFrames]
      split
      · next pos hpos =>
        rw [hfind] at hpos
        cases hpos
        dsimp only
        rw [hframe, hrest]
        split_ifs with hempty hthrows
        · rw [scan_of_dropped h (frameOfLine_of_isEmpty hempty), ← ih]
        · rw [scan_of_stop h (frameOfLine_of_not_isEmpty hempty) hthrows]
        · rw [scan_of_item h (frameOfLine_of_not_isEmpty hempty) (by simpa using hthrows), ← ih]
      · next hnone =>
        rw [hfind] at hnone
        cases hnone

theorem ChatServer.receive_eq (reads : List Bytes) :
    ChatServer.receive reads =
      (items newline frameOfLine reads.flatten, some (remainder newline reads.flatten)) := by
  have hscan : (fun buffer =>
      ((ChatServer.takeFrames buffer).1, some (ChatServer.takeFrames buffer).2)) =
      scan newline frameOfLine (fun _ => false) := funext ChatServer.takeFrames_eq_scan
  rw [ChatServer.receive, hscan, feed_scan (by simp), scan_never, List.nil_append]

theorem Client.receive_eq (throws : Bytes → Bool) (reads : List Bytes) :
    Client.receive throws reads = scan newline frameOfLine throws reads.flatten := by
  have hscan : Client.takeFrames throws = scan newline frameOfLine throws :=
    funext (Client.takeFrames_eq_scan throws)
  rw [Client.receive, hscan, feed_scan (by simp), List.nil_append]

/-! ## What is written -/

/-- `sendJsonFrame` of the client. -/
def Client.sendJsonFrame (js : Json) : String := js.dump.push '\n'

/-- The functions that write a JSON value on a connection. -/
inductive Writer where
  | sendJson | sendFrame | sendJsonFrame
deriving DecidableEq, Repr

def Writer.text : Writer → Json → String
  | sendJson, js => (Sent.json js).text
  | sendFrame, js => (Sent.raw js.dump).text
  | sendJsonFrame, js => Client.sendJsonFrame js

theorem utf8_append (s s' : String) : utf8 (s ++ s') = utf8 s ++ utf8 s' := by
  simp [utf8]

/-- A byte of a character that is not a control character is none either. -/
theorem le_of_mem_utf8EncodeChar {c : Char} {b : UInt8} (hc : Json.Printable c)
    (hb : b ∈ String.utf8EncodeChar c) : 0x20 ≤ b.toNat := by
  have hval : c.toNat = c.val.toNat := rfl
  unfold Json.Printable at hc
  unfold String.utf8EncodeChar at hb
  dsimp only at hb
  split_ifs at hb <;> simp only [List.mem_cons, List.not_mem_nil, or_false] at hb
  · subst hb
    simp only [UInt8.toNat_ofNat']
    omega
  all_goals
    rcases hb with rfl | hb
    · simp only [UInt8.toNat_ofNat']
      omega
    · rcases hb with rfl | rfl | rfl <;> simp only [UInt8.toNat_ofNat'] <;> omega

theorem notMem_utf8_dump {b : UInt8} (hb : b.toNat < 0x20) (js : Json) :
    b ∉ utf8 js.dump := by
  intro h
  rw [utf8, Json.dump, String.toList_ofList] at h
  obtain ⟨c, hc, hmem⟩ := List.mem_flatMap.mp h
  have hle := le_of_mem_utf8EncodeChar (js.printable_dumpChars c hc) hmem
  omega

theorem utf8_dump_ne_nil (js : Json) : utf8 js.dump ≠ [] := by
  intro h
  obtain ⟨c, hc⟩ := List.exists_mem_of_ne_nil _ js.dumpChars_ne_nil
  rw [utf8, Json.dump, String.toList_ofList] at h
  exact String.utf8EncodeChar_ne_nil (List.flatMap_eq_nil_iff.mp h c hc)

theorem frameOfLine_dump (js : Json) : frameOfLine (utf8 js.dump) = some (utf8 js.dump) := by
  have hpop : popCarriageReturn (utf8 js.dump) = utf8 js.dump := by
    unfold popCarriageReturn
    apply if_neg
    intro hlast
    exact notMem_utf8_dump (by decide) js (List.mem_of_getLast? hlast)
  rw [frameOfLine, hpop, if_neg (utf8_dump_ne_nil js)]

/-- All three writers write the text of the value and one newline. -/
theorem Writer.utf8_text (write : Writer) (js : Json) :
    utf8 (write.text js) = utf8 js.dump ++ [newline] := by
  have hnewline : utf8 "\n" = [newline] := by decide
  have hsingleton : String.singleton '\n' = "\n" := by decide
  have hlast : ¬ (js.dump ≠ "" ∧ js.dump.toList.getLast? = some '\n') := by
    intro h
    rcases h with ⟨-, h⟩
    rw [Json.dump, String.toList_ofList] at h
    exact absurd (js.printable_dumpChars _ (List.mem_of_getLast? h)) (by decide)
  cases write with
  | sendJson => rw [text, Sent.text, utf8_append, hnewline]
  | sendFrame => rw [text, Sent.text, if_neg hlast, utf8_append, hnewline]
  | sendJsonFrame => 
      rw [text, Client.sendJsonFrame, String.push_eq_append, hsingleton, utf8_append, hnewline]

/-- The bytes that a list of values puts on a connection. -/
def writtenBytes (written : List (Writer × Json)) : Bytes :=
  written.flatMap fun p => utf8 (p.1.text p.2)

theorem writtenBytes_eq (written : List (Writer × Json)) :
    writtenBytes written =
      (written.map fun p => utf8 p.2.dump).flatMap fun line => line ++ [newline] := by
  rw [writtenBytes, List.flatMap_map]
  simp only [Writer.utf8_text]

theorem items_writtenBytes (written : List (Writer × Json)) :
    items newline frameOfLine (writtenBytes written) = written.map fun p => utf8 p.2.dump := by
  rw [writtenBytes_eq, items, pieces_flatMap]
  · rw [List.filterMap_map]
    simp [frameOfLine_dump]
  · intro line hline
    obtain ⟨p, -, rfl⟩ := List.mem_map.mp hline
    exact notMem_utf8_dump (by decide) p.2

theorem remainder_writtenBytes (written : List (Writer × Json)) :
    remainder newline (writtenBytes written) = [] := by
  rw [writtenBytes_eq, remainder_flatMap]

/-- The server reads back what a writer has written. -/
theorem ChatServer.receive_written {written : List (Writer × Json)} {reads : List Bytes}
    (h : reads.flatten = writtenBytes written) :
    ChatServer.receive reads = (written.map fun p => utf8 p.2.dump, some []) := by
  rw [ChatServer.receive_eq, h, items_writtenBytes, remainder_writtenBytes]

/-- However a stream is split into reads, the server finds its lines, without one carriage
return at their end and without the empty ones, and keeps what follows the last newline. The
client finds the same frames, up to one at which it ends. What a writer has written, both
read back. -/
theorem framing (reads : List Bytes) :
    (ChatServer.receive reads).1 =
        ((pieces newline reads.flatten).map (chomp carriageReturn)).filter
          (fun frame => frame ≠ []) ∧
      (ChatServer.receive reads).2 = some (remainder newline reads.flatten) ∧
      ChatServer.receive reads = ChatServer.receive [reads.flatten] ∧
      (∀ throws, (Client.receive throws reads).1 =
          through throws (ChatServer.receive reads).1 ∧
        ((ChatServer.receive reads).1.any throws = false →
          Client.receive throws reads = ChatServer.receive reads)) ∧
      ∀ written, reads.flatten = writtenBytes written →
        ChatServer.receive reads = (written.map fun p => utf8 p.2.dump, some []) ∧
        ∀ throws, (∀ p ∈ written, throws (utf8 p.2.dump) = false) →
          Client.receive throws reads = (written.map fun p => utf8 p.2.dump, some []) := by
  have hone : [reads.flatten].flatten = reads.flatten := by simp
  refine ⟨?_, ?_, ?_, ?_, ?_⟩
  · have hmake : frameOfLine = (fun frame => if frame ≠ [] then some frame else none) ∘
        chomp carriageReturn := by
      funext line
      simp only [frameOfLine, popCarriageReturn_eq_chomp, Function.comp, ne_eq, ite_not]
    rw [ChatServer.receive_eq, items, hmake, ← List.filterMap_map]
    simp [← List.filterMap_eq_filter, Option.guard]
  · rw [ChatServer.receive_eq]
  · rw [ChatServer.receive_eq, ChatServer.receive_eq, hone]
  · intro throws
    rw [ChatServer.receive_eq, Client.receive_eq, scan]
    constructor
    · rfl
    · intro hnone
      simp [through_eq_self hnone, hnone]
  · intro written hreads
    refine ⟨ChatServer.receive_written hreads, fun throws hthrows => ?_⟩
    have hnone : (written.map fun p => utf8 p.2.dump).any throws = false := by
      simpa [List.any_eq_false] using hthrows
    rw [Client.receive_eq, hreads, scan, items_writtenBytes, remainder_writtenBytes,
      through_eq_self hnone, if_neg (by simp [hnone])]

/-- Two values whose frames are spread over three reads, and a stream with carriage
returns, empty lines and the beginning of another frame. -/
theorem framing_split :
    ChatServer.receive [utf8 "nu", utf8 "ll\ntr", utf8 "ue\n"] =
        ([utf8 "null", utf8 "true"], some []) ∧
      ChatServer.receive [utf8 "nu", utf8 "ll\r", utf8 "\n\r\n\ntr", utf8 "ue\r\r\nfal"] =
        ([utf8 "null", utf8 "true\r"], some (utf8 "fal")) := by
  constructor
  · exact ((framing [utf8 "nu", utf8 "ll\ntr", utf8 "ue\n"]).2.2.2.2
      [(.sendJson, .null), (.sendJsonFrame, .boolean true)] (by decide)).1
  · have hlines :=
      framing [utf8 "nu", utf8 "ll\r", utf8 "\n\r\n\ntr", utf8 "ue\r\r\nfal"]
    exact Prod.ext (hlines.1.trans (by decide)) (hlines.2.1.trans (by decide))

/-! ## Frames as jobs -/

/-- `json::parse` of a frame; bytes that are not UTF-8 do not parse. -/
def parseFrame [JsonParser] (frame : Bytes) : Option Json :=
  (String.fromUTF8? frame.toByteArray).bind JsonParser.parse

/-- The jobs that the bytes read from a connection start. -/
def frameJobs [JsonParser] (conn : Conn) (time : String) (reads : List Bytes) : List Job :=
  ((ChatServer.receive reads).1.filterMap parseFrame).map fun js => .frame conn js time

theorem parseFrame_utf8 [JsonParser] (s : String) : parseFrame (utf8 s) = JsonParser.parse s := by
  have hbytes : (utf8 s).toByteArray = s.toByteArray := by
    rw [← String.utf8Encode_toList]
    rfl
  have hvalid : s.toByteArray.IsValidUTF8 := s.isValidUTF8
  rw [parseFrame, hbytes, String.fromUTF8?, dif_pos hvalid]
  rfl

/-- A client that writes requests starts one job for each that parses. -/
theorem frameJobs_written [JsonParser] {written : List (Writer × Json)} {reads : List Bytes}
    (h : reads.flatten = writtenBytes written) (conn : Conn) (time : String) :
    frameJobs conn time reads =
      (written.filterMap fun p => JsonParser.parse p.2.dump).map fun js => .frame conn js time := by
  rw [frameJobs, ChatServer.receive_written h, List.filterMap_map]
  simp only [Function.comp_def, parseFrame_utf8]

end ChatCluster
