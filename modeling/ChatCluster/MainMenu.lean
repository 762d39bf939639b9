import ChatCluster.PartialSends
import ChatCluster.Library.LineReading
import Mathlib.Data.Nat.Find

/-!
# The command loop of the client

`mainMenu` reads a line into a buffer of 1024 bytes and runs the command it finds there,
as long as `isMainMenuRunning` is set. It never looks at the state of `cin`. `none` is an
exception, which nothing catches: `dump` throws for a text that is not UTF-8.
-/
namespace ChatCluster
open LineReading

namespace Client

/-! ## Pieces of a command line -/

def colon : UInt8 := 58

/-- A `std::string` in a JSON object; only UTF-8 can be dumped. -/
def text? (str : Bytes) : Option String := String.fromUTF8? str.toByteArray

/-- `atoi`, for which the C library cuts the result of `strtol` down to an `int`. -/
def atoi (str : Bytes) : ℤ :=
  match strtol (str.map fun b => Char.ofNat b.toNat) with
  | some (n, _) => (max LLONG_MIN (min n LLONG_MAX)).bmod (2 ^ 32)
  | none => 0

def commandOf (commandbuf : Bytes) : Bytes :=
  match commandbuf.idxOf? colon with
  | some idx => commandbuf.take idx
  | none => commandbuf

/-- `commandbuf.substr(idx + 1, …)`, where `idx` is -1 without a colon. -/
def argumentOf (commandbuf : Bytes) : Bytes :=
  match commandbuf.idxOf? colon with
  | some idx => commandbuf.drop (idx + 1)
  | none => commandbuf

/-! ## The handlers -/

/-- What one turn of the loop finds: the current user, the clock, and how `send` will go. -/
structure Setting where
  currentUser : User
  time : String
  sends : SendResults

/-- `calls` are the calls of `sendJsonFrame` that the handlers have made so far. -/
structure MainMenu where
  cin : Istream UInt8
  isMainMenuRunning : Bool
  calls : List SendCall

/-- `sendJsonFrame` called by a handler, with `none` for an object that cannot be dumped. -/
def MainMenu.send (setting : Setting) (js : Option Json) (m : MainMenu) :
    Option (Bool × MainMenu) :=
  js.map fun js =>
    let call : SendCall := ⟨js, setting.sends⟩
    (call.returned, { m with calls := m.calls ++ [call] })

abbrev Handler := Setting → Bytes → MainMenu → Option MainMenu

def help : Handler := fun _ _ m => some m

/-- `addfriend` and `addgroup`; whether the frame was sent decides about a message only. -/
def askFor (request : ℤ → ℤ → Json) : Handler := fun setting str m =>
  (m.send setting (some (request setting.currentUser.id (atoi str)))).map Prod.snd

def addfriend : Handler := askFor addFriendRequest

def addgroup : Handler := askFor addGroupRequest

/-- `chat` and `groupchat`. -/
def talk (request : ℤ → String → ℤ → String → String → Json) : Handler :=
  fun setting str m =>
    match str.idxOf? colon with
    | none => some m
    | some idx =>
        let id := atoi (str.take idx)
        let js := (text? (str.drop (idx + 1))).map fun message =>
          request setting.currentUser.id setting.currentUser.name id message setting.time
        (m.send setting js).map Prod.snd

def chat : Handler := talk chatRequest

def groupchat : Handler := talk groupChatRequest

def creategroup : Handler := fun setting str m =>
  match str.idxOf? colon with
  | none => some m
  | some idx =>
      let js := do
        let groupname ← text? (str.take idx)
        let groupdesc ← text? (str.drop (idx + 1))
        return createGroupRequest setting.currentUser.id groupname groupdesc
      (m.send setting js).map Prod.snd

def loginout : Handler := fun setting _ m =>
  (m.send setting (some (loginoutRequest setting.currentUser.id))).map fun sent =>
    if sent.1 then { sent.2 with isMainMenuRunning := false } else sent.2

/-- The keys of `commandHandlerMap`. -/
inductive Command where
  | help | chat | addfriend | creategroup | addgroup | groupchat | loginout
deriving DecidableEq, Repr

namespace Command

def name : Command → String
  | .help => "help"
  | .chat => "chat"
  | .addfriend => "addfriend"
  | .creategroup => "creategroup"
  | .addgroup => "addgroup"
  | .groupchat => "groupchat"
  | .loginout => "loginout"

def handler : Command → Handler
  | .help => Client.help
  | .chat => Client.chat
  | .addfriend => Client.addfriend
  | .creategroup => Client.creategroup
  | .addgroup => Client.addgroup
  | .groupchat => Client.groupchat
  | .loginout => Client.loginout

def all : List Command :=
  [.help, .chat, .addfriend, .creategroup, .addgroup, .groupchat, .loginout]

/-- `commandHandlerMap.find(command)` -/
def ofName? (command : Bytes) : Option Command :=
  all.find? fun c => decide (utf8 c.name = command)

end Command

/-! ## The loop -/

/-- The body of the loop behind `getline`. -/
def dispatch (setting : Setting) (commandbuf : Bytes) (m : MainMenu) : Option MainMenu :=
  match Command.ofName? (commandOf commandbuf) with
  | some command => command.handler setting (argumentOf commandbuf) m
  | none => some m

def iterate (setting : Setting) (m : MainMenu) : Option MainMenu :=
  let read := m.cin.getline newline 1024
  dispatch setting (cBytes read.1) { m with cin := read.2 }

/-- `mainMenu` after `n` turns of its loop, or after fewer when the guard has failed. -/
def menuAfter (settings : ℕ → Setting) (cin : Istream UInt8) : ℕ → Option MainMenu
  | 0 => some ⟨cin, true, []⟩
  | n + 1 => (menuAfter settings cin n).bind fun m =>
      if m.isMainMenuRunning then iterate (settings n) m else some m

/-! ## What a command does -/

/-- The command that a line is. -/
def command? (line : Bytes) : Option Command := Command.ofName? (commandOf (cBytes line))

/-- The parts of an argument that a handler puts into its request as they are. -/
def Command.texts : Command → Bytes → List Bytes
  | .chat, str | .groupchat, str =>
      match str.idxOf? colon with
      | some idx => [str.drop (idx + 1)]
      | none => []
  | .creategroup, str =>
      match str.idxOf? colon with
      | some idx => [str.take idx, str.drop (idx + 1)]
      | none => []
  | _, _ => []

/-- A command with a text that cannot be dumped. -/
def Undumpable (line : Bytes) : Prop :=
  ∃ command, command? line = some command ∧
    ∃ text ∈ command.texts (argumentOf (cBytes line)), text? text = none

/-- The call that `loginout` makes. -/
def loginoutCall (setting : Setting) : SendCall :=
  ⟨loginoutRequest setting.currentUser.id, setting.sends⟩

/-- A `loginout` whose frame is sent. -/
def LogsOut (setting : Setting) (line : Bytes) : Prop :=
  command? line = some .loginout ∧ (loginoutCall setting).GoesOut

section Handler
variable {setting : Setting} {str : Bytes} {m later : MainMenu}

@[simp] theorem MainMenu.send_none : m.send setting none = none := rfl

@[simp] theorem MainMenu.send_some (js : Json) :
    m.send setting (some js) = some ((SendCall.mk js setting.sends).returned,
      { m with calls := m.calls ++ [⟨js, setting.sends⟩] }) := rfl

theorem MainMenu.send_eq_none_iff {js : Option Json} : m.send setting js = none ↔ js = none := by
  cases js <;> simp

/-- The loop goes on, and the stream is as before. -/
def MainMenu.GoesOn (m later : MainMenu) : Prop :=
  later.cin = m.cin ∧ later.isMainMenuRunning = m.isMainMenuRunning

theorem MainMenu.goesOn_send {js : Option Json}
    (h : (m.send setting js).map Prod.snd = some later) : m.GoesOn later := by
  cases js with
  | none => simp at h
  | some js =>
      simp only [send_some, Option.map_some, Option.some.injEq] at h
      simp [GoesOn, ← h]

theorem goesOn_askFor {request : ℤ → ℤ → Json} (h : askFor request setting str m = some later) :
    m.GoesOn later := MainMenu.goesOn_send h

theorem goesOn_talk {request : ℤ → String → ℤ → String → String → Json}
    (h : talk request setting str m = some later) : m.GoesOn later := by
  unfold talk at h
  split at h
  · cases h
    exact ⟨rfl, rfl⟩
  · exact MainMenu.goesOn_send h

theorem goesOn_creategroup (h : creategroup setting str m = some later) : m.GoesOn later := by
  unfold creategroup at h
  split at h
  · cases h
    exact ⟨rfl, rfl⟩
  · exact MainMenu.goesOn_send h

theorem loginout_eq (str : Bytes) : loginout setting str m = some
    { m with
      calls := m.calls ++ [loginoutCall setting]
      isMainMenuRunning := m.isMainMenuRunning && !(loginoutCall setting).returned } := by
  unfold loginoutCall
  cases hsent : (SendCall.mk (loginoutRequest setting.currentUser.id) setting.sends).returned with
  | false => simp [loginout, hsent]
  | true => simp [loginout, hsent]

/-- Exceptions come from the texts. -/
theorem Command.handler_eq_none_iff (command : Command) :
    command.handler setting str m = none ↔ ∃ text ∈ command.texts str, text? text = none := by
  cases command with
  | help => simp [handler, Client.help, texts]
  | addfriend => simp [handler, Client.addfriend, askFor, texts]
  | addgroup => simp [handler, Client.addgroup, askFor, texts]
  | loginout => simp [handler, loginout_eq, texts]
  | chat | groupchat =>
      cases hidx : str.idxOf? colon with
      | none => simp [handler, Client.chat, Client.groupchat, talk, texts, hidx]
      | some idx =>
          simp [handler, Client.chat, Client.groupchat, talk, texts, hidx,
            MainMenu.send_eq_none_iff]
  | creategroup =>
      cases hidx : str.idxOf? colon with
      | none => simp [handler, Client.creategroup, texts, hidx]
      | some idx =>
          cases hname : text? (str.take idx) with
          | none => simp [handler, Client.creategroup, texts, hidx, hname]
          | some groupname =>
              cases hdesc : text? (str.drop (idx + 1)) with
              | none => simp [handler, Client.creategroup, texts, hidx, hname, hdesc]
              | some groupdesc => simp [handler, Client.creategroup, texts, hidx, hname, hdesc]

/-- A handler other than `loginout` lets the loop go on. -/
theorem Command.goesOn_handler {command : Command} (hne : command ≠ .loginout)
    (h : command.handler setting str m = some later) : m.GoesOn later := by
  cases command with
  | help =>
      cases h
      exact ⟨rfl, rfl⟩
  | addfriend => exact goesOn_askFor h
  | addgroup => exact goesOn_askFor h
  | chat => exact goesOn_talk h
  | groupchat => exact goesOn_talk h
  | creategroup => exact goesOn_creategroup h
  | loginout => exact absurd rfl hne

/-! ## One turn -/

variable {buffer : Bytes}

theorem dispatch_eq_none_iff : dispatch setting (cBytes buffer) m = none ↔ Undumpable buffer := by
  unfold dispatch Undumpable command?
  split
  · next command hcommand =>
    rw [command.handler_eq_none_iff]
    simp [hcommand]
  · next hnone => simp [hnone]

theorem dispatch_loginout (h : command? buffer = some .loginout) :
    dispatch setting (cBytes buffer) m = some
      { m with
        calls := m.calls ++ [loginoutCall setting]
        isMainMenuRunning := m.isMainMenuRunning && !(loginoutCall setting).returned } := by
  rw [command?] at h
  rw [dispatch, h]
  exact loginout_eq (argumentOf (cBytes buffer))

theorem goesOn_dispatch (hne : command? buffer ≠ some .loginout)
    (h : dispatch setting (cBytes buffer) m = some later) : m.GoesOn later := by
  rw [command?] at hne
  unfold dispatch at h
  split at h
  · next command hcommand =>
    apply Command.goesOn_handler _ h
    intro heq
    exact hne (by rw [hcommand, heq])
  · cases h
    exact ⟨rfl, rfl⟩

/-- No command touches the stream, and only a `loginout` that is sent stops the loop. -/
theorem dispatch_spec (h : dispatch setting (cBytes buffer) m = some later) :
    later.cin = m.cin ∧
      (m.isMainMenuRunning = true →
        (later.isMainMenuRunning = false ↔ LogsOut setting buffer)) := by
  by_cases hcommand : command? buffer = some .loginout
  · rw [dispatch_loginout hcommand, Option.some.injEq] at h
    subst h
    refine ⟨rfl, fun hm => ?_⟩
    rw [LogsOut, ← (loginoutCall setting).returned_iff]
    simp [hm, hcommand]
  · obtain ⟨hcin, hrunning⟩ := goesOn_dispatch hcommand h
    refine ⟨hcin, fun hm => ?_⟩
    simp [hrunning, hm, LogsOut, hcommand]

end Handler

/-- The lines that `cin` still has. -/
def linesOf (cin : Istream UInt8) : List Bytes := lines newline cin.rest

/-- A turn on a line that fits into the buffer. -/
theorem iterate_fits (setting : Setting) {m : MainMenu} {line : Bytes} {later : List Bytes}
    (hgood : m.cin.Good) (hlines : linesOf m.cin = line :: later) (hfits : line.length < 1024)
    (hdump : ¬ Undumpable line) (hrunning : m.isMainMenuRunning = true) :
    (m.cin.getline newline 1024).1 = line ∧
      ∃ m', iterate setting m = some m' ∧ linesOf m'.cin = later ∧
        m'.cin.rest.length < m.cin.rest.length ∧ (m'.cin.Good ∨ m'.cin.rest = []) ∧
        (m'.isMainMenuRunning = false ↔ LogsOut setting line) := by
  obtain ⟨hread, hlater, hless, hgood'⟩ := Istream.getline_fits hgood hlines hfits
  refine ⟨hread, ?_⟩
  cases hm : iterate setting m with
  | none =>
      rw [iterate, dispatch_eq_none_iff, hread] at hm
      exact absurd hm hdump
  | some m' =>
      rw [iterate, hread] at hm
      obtain ⟨hcin, hstops⟩ := dispatch_spec hm
      refine ⟨m', rfl, ?_⟩
      rw [hcin]
      exact ⟨hlater, hless, hgood', hstops hrunning⟩

/-- A turn that takes one whole line, read from the other side. -/
theorem fits_of_iterate {setting : Setting} {m m' : MainMenu}
    (hm : iterate setting m = some m')
    (hlines : linesOf m.cin = (m.cin.getline newline 1024).1 :: linesOf m'.cin) :
    m.cin.Good ∧ (m.cin.getline newline 1024).1.length < 1024 ∧
      ¬ Undumpable (m.cin.getline newline 1024).1 := by
  have hcin : m'.cin = (m.cin.getline newline 1024).2 := (dispatch_spec hm).1
  have hgood : m.cin.Good := by
    by_contra hbad
    have hrest := (Istream.getline_exhausted (t := newline) (n := 1024) (.inl hbad)).2.1
    rw [hcin, linesOf, linesOf, hrest] at hlines
    exact absurd (congrArg List.length hlines) (by simp)
  refine ⟨hgood, ?_, ?_⟩
  · by_contra hlong
    have hcut := (Istream.getline_cut hgood hlines (not_lt.mp hlong) (by decide)).1
    exact absurd hcut (lt_irrefl _)
  · intro hdump
    rw [iterate, dispatch_eq_none_iff.mpr hdump] at hm
    cases hm

/-! ## Progress -/

/-- The loop makes progress on what `cin` has. -/
structure Progresses (settings : ℕ → Setting) (cin : Istream UInt8) : Prop where
  /-- Every turn consumes a part of the input or leaves the loop. -/
  consumes : ∀ n m m', menuAfter settings cin n = some m → m.isMainMenuRunning = true →
    iterate (settings n) m = some m' →
      m'.cin.rest.length < m.cin.rest.length ∨ m'.isMainMenuRunning = false
  ends : ∃ n m, menuAfter settings cin n = some m ∧ m.isMainMenuRunning = false
  /-- Every turn takes one line and is finished with it. -/
  oneLine : ∀ n m, menuAfter settings cin n = some m → m.isMainMenuRunning = true →
    ∃ m', iterate (settings n) m = some m' ∧
      linesOf m.cin = (m.cin.getline newline 1024).1 :: linesOf m'.cin
  /-- A `loginout` is executed, if none before it has ended the loop. -/
  loginout : ∀ n line, (linesOf cin)[n]? = some line → command? line = some .loginout →
    ∃ m, menuAfter settings cin n = some m ∧ (m.isMainMenuRunning = true →
      ∃ m', iterate (settings n) m = some m' ∧ m'.calls = m.calls ++ [loginoutCall (settings n)])

/-- A `loginout` is sent, and nothing before it stops the loop from getting there. -/
def LogsOutInTime (settings : ℕ → Setting) (cin : Istream UInt8) : Prop :=
  cin.Good ∧ ∃ k, (∃ line, (linesOf cin)[k]? = some line ∧ LogsOut (settings k) line) ∧
    ∀ i ≤ k, ∀ line, (linesOf cin)[i]? = some line →
      line.length < 1024 ∧ (i < k → ¬ Undumpable line)

section Run
variable {settings : ℕ → Setting} {cin : Istream UInt8}

theorem menuAfter_running {n : ℕ} {m : MainMenu} (hm : menuAfter settings cin n = some m)
    (hrunning : m.isMainMenuRunning = true) :
    menuAfter settings cin (n + 1) = iterate (settings n) m := by
  rw [menuAfter, hm]
  exact if_pos hrunning

theorem menuAfter_left {n i : ℕ} {m : MainMenu} (hm : menuAfter settings cin n = some m)
    (hleft : m.isMainMenuRunning = false) (hle : n ≤ i) : menuAfter settings cin i = some m := by
  induction i, hle using Nat.le_induction with
  | base => exact hm
  | succ i hle ih =>
      rw [menuAfter, ih]
      exact if_neg (by simp [hleft])

namespace Progresses

/-- What a turn tells about the line it has taken. -/
theorem turn (h : Progresses settings cin) {n : ℕ} {m : MainMenu}
    (hm : menuAfter settings cin n = some m) (hrunning : m.isMainMenuRunning = true) :
    ∃ m' line, menuAfter settings cin (n + 1) = some m' ∧
      linesOf m.cin = line :: linesOf m'.cin ∧ m.cin.Good ∧ line.length < 1024 ∧
      ¬ Undumpable line ∧ (m'.isMainMenuRunning = false ↔ LogsOut (settings n) line) := by
  obtain ⟨m', hm', hline⟩ := h.oneLine n m hm hrunning
  obtain ⟨hgood, hfits, hdump⟩ := fits_of_iterate hm' hline
  exact ⟨m', _, (menuAfter_running hm hrunning).trans hm', hline, hgood, hfits, hdump,
    (dispatch_spec hm').2 hrunning⟩

/-- Before the loop is left, its turns take one line each. -/
theorem linesOf_menuAfter (h : Progresses settings cin) {n i : ℕ} (hle : i ≤ n)
    (hbefore : ∀ j < n, ∀ m, menuAfter settings cin j = some m → m.isMainMenuRunning = true) :
    ∃ m, menuAfter settings cin i = some m ∧ linesOf m.cin = (linesOf cin).drop i := by
  induction i with
  | zero => exact ⟨_, rfl, by simp⟩
  | succ i ih =>
      obtain ⟨m, hm, hlines⟩ := ih (by omega)
      obtain ⟨m', line, hm', hline, -⟩ := h.turn hm (hbefore i (by omega) m hm)
      refine ⟨m', hm', ?_⟩
      rw [← List.drop_drop, ← hlines, hline, List.drop_one, List.tail_cons]

/-- The first turn that leaves the loop. -/
theorem exists_last (h : Progresses settings cin) :
    ∃ k m, menuAfter settings cin (k + 1) = some m ∧ m.isMainMenuRunning = false ∧
      ∀ j < k + 1, ∀ m, menuAfter settings cin j = some m → m.isMainMenuRunning = true := by
  classical
  have hends := h.ends
  obtain ⟨m, hm, hleft⟩ := Nat.find_spec hends
  have hbefore : ∀ j < Nat.find hends, ∀ m, menuAfter settings cin j = some m →
      m.isMainMenuRunning = true := by
    intro j hj m hm
    have hnot := Nat.find_min hends hj
    by_contra hfalse
    exact hnot ⟨m, hm, by simpa using hfalse⟩
  cases hk : Nat.find hends with
  | zero =>
      rw [hk] at hm
      cases hm
      cases hleft
  | succ k =>
      rw [hk] at hm hbefore
      exact ⟨k, m, hm, hleft, hbefore⟩

theorem logsOutInTime (h : Progresses settings cin) : LogsOutInTime settings cin := by
  obtain ⟨k, last, hlast, hleft, hbefore⟩ := h.exists_last
  have hturn : ∀ i ≤ k, ∃ m m' line, menuAfter settings cin i = some m ∧
      menuAfter settings cin (i + 1) = some m' ∧ (linesOf cin)[i]? = some line ∧ m.cin.Good ∧
      line.length < 1024 ∧ ¬ Undumpable line ∧
      (m'.isMainMenuRunning = false ↔ LogsOut (settings i) line) := by
    intro i hi
    obtain ⟨m, hm, hlines⟩ := h.linesOf_menuAfter (by omega : i ≤ k + 1) hbefore
    obtain ⟨m', line, hm', hline, hrest⟩ := h.turn hm (hbefore i (by omega) m hm)
    refine ⟨m, m', line, hm, hm', ?_, hrest⟩
    rw [← List.head?_drop, ← hlines, hline, List.head?_cons]
  constructor
  · obtain ⟨m, -, -, hm, -, -, hgood, -⟩ := hturn 0 (Nat.zero_le k)
    cases hm
    exact hgood
  · refine ⟨k, ?_, fun i hi line hline => ?_⟩
    · obtain ⟨-, m', line, -, hm', hline, -, -, -, hstops⟩ := hturn k le_rfl
      rw [hlast, Option.some.injEq] at hm'
      subst hm'
      exact ⟨line, hline, hstops.mp hleft⟩
    · obtain ⟨-, -, line', -, -, hline', -, hfits, hdump, -⟩ := hturn i hi
      rw [hline, Option.some.injEq] at hline'
      subst hline'
      exact ⟨hfits, fun _ => hdump⟩

end Progresses

/-- The first `loginout` that is sent is in line `k`, and no line stops the loop before it. -/
structure FirstLogout (settings : ℕ → Setting) (cin : Istream UInt8) (k : ℕ) : Prop where
  good : cin.Good
  out : ∃ line, (linesOf cin)[k]? = some line ∧ LogsOut (settings k) line
  first : ∀ i < k, ∀ line, (linesOf cin)[i]? = some line → ¬ LogsOut (settings i) line
  fits : ∀ i ≤ k, ∀ line, (linesOf cin)[i]? = some line → line.length < 1024
  dump : ∀ i ≤ k, ∀ line, (linesOf cin)[i]? = some line → ¬ Undumpable line

theorem LogsOut.not_undumpable {setting : Setting} {line : Bytes} (h : LogsOut setting line) :
    ¬ Undumpable line := by
  intro hdump
  obtain ⟨command, hcommand, text, htext, -⟩ := hdump
  rw [h.1, Option.some.injEq] at hcommand
  subst hcommand
  simp [Command.texts] at htext

theorem exists_firstLogout (h : LogsOutInTime settings cin) : ∃ k, FirstLogout settings cin k := by
  classical
  obtain ⟨hgood, k, hout, hbefore⟩ := h
  have hsome : ∃ k, ∃ line, (linesOf cin)[k]? = some line ∧ LogsOut (settings k) line := ⟨k, hout⟩
  have hle : Nat.find hsome ≤ k := Nat.find_min' hsome hout
  refine ⟨Nat.find hsome, hgood, Nat.find_spec hsome, fun i hi line hline hlogs => ?_,
    fun i hi line hline => (hbefore i (by omega) line hline).1, fun i hi line hline => ?_⟩
  · exact Nat.find_min hsome hi ⟨line, hline, hlogs⟩
  · by_cases hik : i < k
    · exact (hbefore i (by omega) line hline).2 hik
    · obtain ⟨line', hline', hlogs⟩ := hout
      have heq : i = k := by omega
      subst heq
      rw [hline, Option.some.injEq] at hline'
      subst hline'
      exact hlogs.not_undumpable

/-- What holds before turn `n`. -/
structure Ready (cin : Istream UInt8) (n : ℕ) (m : MainMenu) : Prop where
  running : m.isMainMenuRunning = true
  lines : linesOf m.cin = (linesOf cin).drop n
  next : m.cin.Good ∨ m.cin.rest = []

/-- Turn `n` takes one line; turn `k` is the last one. -/
structure TakesLine (settings : ℕ → Setting) (cin : Istream UInt8) (k n : ℕ)
    (m m' : MainMenu) : Prop where
  turn : iterate (settings n) m = some m'
  line : linesOf m.cin = (m.cin.getline newline 1024).1 :: linesOf m'.cin
  less : m'.cin.rest.length < m.cin.rest.length
  ready : n < k → Ready cin (n + 1) m'
  left : n = k → m'.isMainMenuRunning = false

namespace FirstLogout
variable {k n : ℕ}

theorem takesLine (h : FirstLogout settings cin k) (hn : n ≤ k) {m : MainMenu}
    (hm : Ready cin n m) : ∃ m', TakesLine settings cin k n m m' := by
  obtain ⟨last, hlast, hout⟩ := h.out
  have hcount : n < (linesOf cin).length :=
    hn.trans_lt (List.getElem?_eq_some_iff.mp hlast).choose
  have hline : (linesOf cin)[n]? = some (linesOf cin)[n] := List.getElem?_eq_getElem hcount
  have hcons : linesOf m.cin = (linesOf cin)[n] :: (linesOf cin).drop (n + 1) := by
    rw [hm.lines]
    exact List.drop_eq_getElem_cons hcount
  have hgood : m.cin.Good := hm.next.resolve_right (ne_nil_of_lines hcons)
  obtain ⟨hread, m', hm', hlater, hless, hnext, hstops⟩ := iterate_fits (settings n) hgood
    hcons (h.fits n hn _ hline) (h.dump n hn _ hline) hm.running
  refine ⟨m', hm', ?_, hless, fun hlt => ⟨?_, hlater, hnext⟩, fun heq => ?_⟩
  · rw [hread, hlater, hcons]
  · by_contra hleft
    exact h.first n hlt _ hline (hstops.mp (by simpa using hleft))
  · subst heq
    rw [hline, Option.some.injEq] at hlast
    exact hstops.mpr (hlast ▸ hout)

theorem ready (h : FirstLogout settings cin k) (hn : n ≤ k) :
    ∃ m, menuAfter settings cin n = some m ∧ Ready cin n m := by
  induction n with
  | zero => exact ⟨_, rfl, rfl, by simp, .inl h.good⟩
  | succ n ih =>
      obtain ⟨m, hm, hready⟩ := ih (by omega)
      obtain ⟨m', hm'⟩ := h.takesLine (by omega) hready
      exact ⟨m', (menuAfter_running hm hready.running).trans hm'.turn, hm'.ready (by omega)⟩

theorem left (h : FirstLogout settings cin k) :
    ∃ m, menuAfter settings cin (k + 1) = some m ∧ m.isMainMenuRunning = false := by
  obtain ⟨m, hm, hready⟩ := h.ready le_rfl
  obtain ⟨m', hm'⟩ := h.takesLine le_rfl hready
  exact ⟨m', (menuAfter_running hm hready.running).trans hm'.turn, hm'.left rfl⟩

/-- Every turn of the loop is one of those that take a line. -/
theorem takesLine_of_running (h : FirstLogout settings cin k) {m : MainMenu}
    (hm : menuAfter settings cin n = some m) (hrunning : m.isMainMenuRunning = true) :
    ∃ m', TakesLine settings cin k n m m' := by
  by_cases hn : n ≤ k
  · obtain ⟨m₀, hm₀, hready⟩ := h.ready hn
    rw [hm, Option.some.injEq] at hm₀
    subst hm₀
    exact h.takesLine hn hready
  · obtain ⟨m₀, hm₀, hleft⟩ := h.left
    have hend := menuAfter_left hm₀ hleft (not_le.mp hn)
    rw [hm, Option.some.injEq] at hend
    subst hend
    simp [hleft] at hrunning

theorem progresses (h : FirstLogout settings cin k) : Progresses settings cin where
  consumes n m m' hm hrunning hm' := by
    obtain ⟨m₁, hm₁⟩ := h.takesLine_of_running hm hrunning
    rw [hm₁.turn, Option.some.injEq] at hm'
    subst hm'
    exact .inl hm₁.less
  ends := ⟨k + 1, h.left⟩
  oneLine n m hm hrunning := by
    obtain ⟨m', hm'⟩ := h.takesLine_of_running hm hrunning
    exact ⟨m', hm'.turn, hm'.line⟩
  loginout n line hline hcommand := by
    by_cases hn : n ≤ k
    · obtain ⟨m, hm, hready⟩ := h.ready hn
      refine ⟨m, hm, fun _ => ?_⟩
      obtain ⟨m', hm'⟩ := h.takesLine hn hready
      have hread : (m.cin.getline newline 1024).1 = line := by
        rw [← List.head?_drop, ← hready.lines, hm'.line, List.head?_cons,
          Option.some.injEq] at hline
        exact hline
      refine ⟨m', hm'.turn, ?_⟩
      have hturn := hm'.turn
      rw [iterate, hread, dispatch_loginout hcommand, Option.some.injEq] at hturn
      rw [← hturn]
    · obtain ⟨m, hm, hleft⟩ := h.left
      refine ⟨m, menuAfter_left hm hleft (not_le.mp hn), fun hrunning => ?_⟩
      simp [hleft] at hrunning

end FirstLogout

/-- The loop makes progress exactly on the inputs with a `loginout` that it gets to and
can send. -/
theorem progresses_iff (settings : ℕ → Setting) (cin : Istream UInt8) :
    Progresses settings cin ↔ LogsOutInTime settings cin := by
  constructor
  · intro h
    exact h.logsOutInTime
  · intro h
    obtain ⟨k, hk⟩ := exists_firstLogout h
    exact hk.progresses

end Run

/-! ## A line that does not fit -/

/-- Once `cin` has failed, every turn finds an empty command. -/
theorem iterate_exhausted {setting : Setting} {m : MainMenu} (h : m.cin.Exhausted) :
    iterate setting m = some { m with cin := (m.cin.getline newline 1024).2 } := by
  have hnone : Command.ofName? (commandOf (cBytes [])) = none := by decide
  rw [iterate, (Istream.getline_exhausted h).1, dispatch, hnone]

theorem menuAfter_exhausted {settings : ℕ → Setting} {cin : Istream UInt8} {n i : ℕ}
    {m : MainMenu} (hm : menuAfter settings cin n = some m) (h : m.cin.Exhausted) (hle : n ≤ i) :
    ∃ m', menuAfter settings cin i = some m' ∧ m'.cin.Exhausted ∧
      m'.isMainMenuRunning = m.isMainMenuRunning := by
  induction i, hle using Nat.le_induction with
  | base => exact ⟨m, hm, h, rfl⟩
  | succ i hle ih =>
      obtain ⟨m', hm', hcin, hrunning⟩ := ih
      rw [menuAfter, hm', Option.bind_some]
      split_ifs
      · rw [iterate_exhausted hcin]
        exact ⟨_, rfl, (Istream.getline_exhausted hcin).2.2, hrunning⟩
      · exact ⟨m', rfl, hcin, hrunning⟩

theorem Command.ofName?_of_long {command : Bytes} (hlong : 11 < command.length) :
    ofName? command = none := by
  apply List.find?_eq_none.mpr
  intro c _ heq
  have hname : (utf8 c.name).length ≤ 11 := by cases c <;> decide
  rw [of_decide_eq_true heq] at hname
  omega

/-- A long name is no command, and the loop goes on behind it with a stream that has
failed. -/
theorem exhausted_of_long (setting : Setting) (m : MainMenu) {name tail : Bytes}
    (hgood : m.cin.Good) (hrest : m.cin.rest = name ++ newline :: tail)
    (hname : ∀ b ∈ name, b ≠ newline ∧ b ≠ colon ∧ b ≠ 0) (hlong : 1024 ≤ name.length) :
    ∃ m', iterate setting m = some m' ∧ m'.cin.Exhausted ∧
      m'.isMainMenuRunning = m.isMainMenuRunning := by
  have hline : newline ∉ name := fun h => (hname _ h).1 rfl
  have hread : m.cin.getline newline 1024 =
      (name.take 1023, ⟨name.drop 1023 ++ newline :: tail, false, true⟩) := by
    rw [Istream.getline, if_pos hgood, hrest, if_neg (by simp)]
    exact Istream.extract_long hline hlong _
  have hcbytes : cBytes (name.take 1023) = name.take 1023 := by
    apply List.takeWhile_eq_self_iff.mpr
    intro b hb
    exact decide_eq_true (hname b (List.mem_of_mem_take hb)).2.2
  have hcolon : (name.take 1023).idxOf? colon = none := by
    apply List.idxOf?_eq_none_iff.mpr
    intro h
    exact (hname _ (List.mem_of_mem_take h)).2.1 rfl
  have hnone : Command.ofName? (commandOf (cBytes (name.take 1023))) = none := by
    apply Command.ofName?_of_long
    rw [hcbytes, commandOf, hcolon]
    simp only [List.length_take]
    omega
  refine ⟨{ m with cin := ⟨name.drop 1023 ++ newline :: tail, false, true⟩ }, ?_, ?_, rfl⟩
  · rw [iterate, hread, dispatch, hnone]
  · exact .inl (by simp [Istream.Good])

theorem endless_of_long (settings : ℕ → Setting) {name : Bytes} (tail : Bytes)
    (hname : ∀ b ∈ name, b ≠ newline ∧ b ≠ colon ∧ b ≠ 0) (hlong : 1024 ≤ name.length) (n : ℕ) :
    ∃ m, menuAfter settings ⟨name ++ newline :: tail, false, false⟩ n = some m ∧
      m.isMainMenuRunning = true := by
  cases n with
  | zero => exact ⟨_, rfl, rfl⟩
  | succ n =>
      obtain ⟨m₁, hturn, hcin, hrunning⟩ := exhausted_of_long (settings 0)
        ⟨⟨name ++ newline :: tail, false, false⟩, true, []⟩ ⟨rfl, rfl⟩ rfl hname hlong
      have hone : menuAfter settings ⟨name ++ newline :: tail, false, false⟩ 1 = some m₁ := hturn
      obtain ⟨m, hm, -, hm'⟩ := menuAfter_exhausted hone hcin (Nat.le_add_left 1 n)
      exact ⟨m, hm, hm'.trans hrunning⟩

/-- Behind a line of 1024 bytes the `loginout` is never read, and the loop never ends. -/
theorem endless_behind_long_line :
    ¬ Progresses (fun _ => ⟨{ id := 1, name := "alice" }, "2024-01-01 12:00:00", .whole⟩)
      ⟨List.replicate 1024 97 ++ newline :: utf8 "loginout\n", false, false⟩ := by
  intro h
  obtain ⟨n, m, hm, hleft⟩ := h.ends
  have hname : ∀ b ∈ List.replicate 1024 (97 : UInt8), b ≠ newline ∧ b ≠ colon ∧ b ≠ 0 := by
    intro b hb
    rw [List.eq_of_mem_replicate hb]
    decide
  obtain ⟨m', hm', hrunning⟩ :=
    endless_of_long _ (utf8 "loginout\n") hname (List.length_replicate ..).ge n
  rw [hm, Option.some.injEq] at hm'
  subst hm'
  simp [hleft] at hrunning

end Client
end ChatCluster
