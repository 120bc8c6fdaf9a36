import Commutil.Logging.LogBuffer

/-!
# Multi-Part Log Messages

The log calls of `commutil_log_imp.cpp` on one thread: the stack of `LogData` records, and the
messages that the log handler is told of.

Whether a message is open is read off the offset of the record on top.  `reset` keeps that offset,
so the first record counts as open ever after, which does no harm: the next message is given a new
one.  But the calls that append are given a new one as well, and find it not open.

`multi_part_messages_arrive_iff` says for which well-nested sequences of calls every message
arrives: those without a second part, and without a text that ends where its storage ends.
-/

namespace Commutil.Logging

open Commutil.Common Commutil.Library

/-! ## §1 The code -/

/-- `enum LogSeverity`. -/
inductive LogSeverity where
  | LS_FATAL
  | LS_ERROR
  | LS_WARN
  | LS_NOTICE
  | LS_INFO
  | LS_TRACE
  | LS_DEBUG
  | LS_DIAG
  deriving DecidableEq, Repr

/-- What a message shows of `struct Logger`. -/
structure Logger where
  m_loggerName : String
  m_loggerId : Nat
  deriving DecidableEq, Repr

/-- `struct LogData`; the records below it are the rest of the stack. -/
structure LogData where
  m_logger : Option Logger
  m_severity : LogSeverity
  m_buffer : LogBuffer
  deriving DecidableEq, Repr

/-- A call of `LogHandler::onMsg`. -/
structure OnMsg where
  severity : LogSeverity
  loggerId : Nat
  loggerName : String
  msg : List UInt8
  deriving DecidableEq, Repr

namespace LogData

/-- A new record. -/
def new (junk : Nat → UInt8) : LogData := ⟨none, .LS_INFO, (LogBuffer.new junk).reset⟩

/-- `LogData::reset`. -/
def reset (logData : LogData) (logger : Option Logger) (severity : LogSeverity) : LogData :=
  ⟨logger, severity, logData.m_buffer.reset⟩

/-- `isLogging`. -/
def isLogging (logData : LogData) : Prop := 0 < logData.m_buffer.m_offset

instance (logData : LogData) : Decidable logData.isLogging := inferInstanceAs (Decidable (_ < _))

/-- `appendMsgV` of a formatted text.  Whether it succeeds is not looked at. -/
def appendMsgV (junk : Nat → UInt8) (logData : LogData) (text : List UInt8) :
    Except Fault LogData := do
  let (_, buffer) ← logData.m_buffer.appendV junk text
  pure { logData with m_buffer := buffer }

/-- `appendMsg` of a string. -/
def appendMsg (junk : Nat → UInt8) (logData : LogData) (msg : List UInt8) :
    Except Fault LogData := do
  let (_, buffer) ← logData.m_buffer.append junk (msg ++ [0]) 0
  pure { logData with m_buffer := buffer }

end LogData

/-- `getLogData`: the record on top of the stack, made if there is none, and those below it.  The
    last record of the stack is `sLogDataHead`. -/
def getLogData (junk : Nat → UInt8) : List LogData → LogData × List LogData
  | [] => (.new junk, [])
  | logData :: below => (logData, below)

/-- `pushLogData`. -/
def pushLogData (junk : Nat → UInt8) (stack : List LogData) : LogData × List LogData :=
  (.new junk, stack)

/-- `popLogData`: the head stays. -/
def popLogData (logData : LogData) : List LogData → List LogData
  -- `sLogDataHead` is never freed
  | [] => [logData]
  | below => below

/-- The first lines of every log call but `finishLog`: the record on top, or a new one if that one
    is logging. -/
def nextLogData (junk : Nat → UInt8) (stack : List LogData) : LogData × List LogData :=
  let (logData, below) := getLogData junk stack
  if logData.isLogging then pushLogData junk (logData :: below) else (logData, below)

/-- `finishLogData`, with a log handler. -/
def finishLogData (logData : LogData) (below : List LogData) :
    Except Fault (List OnMsg × List LogData) :=
  if logData.isLogging then do
    let buffer ← logData.m_buffer.finalize
    match logData.m_logger with
    -- `m_logger` is followed without a check
    | none => .error .nullDereference
    | some logger =>
      -- the log handler gets a string
      let n ← strlen buffer.getRef
      let msg := buffer.getRef.take n
      let logData := { logData with m_buffer := buffer }
      pure ([⟨logData.m_severity, logger.m_loggerId, logger.m_loggerName, msg⟩],
        popLogData (logData.reset none .LS_INFO) below)
  else
    pure ([], logData :: below)

/-- `logMsg` of a formatted text. -/
def logMsg (junk : Nat → UInt8) (stack : List LogData) (logger : Logger) (severity : LogSeverity)
    (text : List UInt8) : Except Fault (List OnMsg × List LogData) := do
  let (logData, below) := nextLogData junk stack
  let logData ← (logData.reset (some logger) severity).appendMsgV junk text
  finishLogData logData below

/-- `startLog` of a formatted text. -/
def startLog (junk : Nat → UInt8) (stack : List LogData) (logger : Logger)
    (severity : LogSeverity) (text : List UInt8) : Except Fault (List LogData) := do
  let (logData, below) := nextLogData junk stack
  let logData ← (logData.reset (some logger) severity).appendMsgV junk text
  -- the record stays on top until the message is finished
  pure (logData :: below)

/-- `appendLog` of a formatted text. -/
def appendLog (junk : Nat → UInt8) (stack : List LogData) (text : List UInt8) :
    Except Fault (List LogData) :=
  let (logData, below) := nextLogData junk stack
  -- the record that was logging has just been covered by a new one
  if logData.isLogging then do
    let logData ← logData.appendMsgV junk text
    pure (logData :: below)
  else
    pure (logData :: below)

/-- `appendLogNoFormat`. -/
def appendLogNoFormat (junk : Nat → UInt8) (stack : List LogData) (msg : List UInt8) :
    Except Fault (List LogData) :=
  let (logData, below) := nextLogData junk stack
  if logData.isLogging then do
    let logData ← logData.appendMsg junk msg
    pure (logData :: below)
  else
    pure (logData :: below)

/-- `finishLog`. -/
def finishLog (junk : Nat → UInt8) (stack : List LogData) :
    Except Fault (List OnMsg × List LogData) :=
  let (logData, below) := getLogData junk stack
  finishLogData logData below

/-- A log call. -/
inductive LogCall where
  | logMsg (logger : Logger) (severity : LogSeverity) (text : List UInt8)
  | startLog (logger : Logger) (severity : LogSeverity) (text : List UInt8)
  | appendLog (text : List UInt8)
  | appendLogNoFormat (msg : List UInt8)
  | finishLog
  deriving DecidableEq, Repr

/-- The messages that a call tells the log handler of, and the stack afterwards. -/
def performLog (junk : Nat → UInt8) (stack : List LogData) :
    LogCall → Except Fault (List OnMsg × List LogData)
  | .logMsg logger severity text => Logging.logMsg junk stack logger severity text
  -- only a message that is finished is told
  | .startLog logger severity text => do
    let stack ← Logging.startLog junk stack logger severity text
    pure ([], stack)
  | .appendLog text => do
    let stack ← Logging.appendLog junk stack text
    pure ([], stack)
  | .appendLogNoFormat msg => do
    let stack ← Logging.appendLogNoFormat junk stack msg
    pure ([], stack)
  | .finishLog => Logging.finishLog junk stack

/-! ## §2 Well-nested sequences -/

/-- A text that is not empty, without a terminator in it. -/
structure Text where
  bytes : List UInt8
  ne : bytes ≠ []
  string : 0 ∉ bytes

/-- **A well-nested sequence of log calls**, inside a message or not.  Only a message has further
    parts. -/
inductive Script : Bool → Type where
  | done {inside : Bool} : Script inside
  | logMsg {inside : Bool} (logger : Logger) (severity : LogSeverity) (text : Text)
      (rest : Script inside) : Script inside
  | message {inside : Bool} (logger : Logger) (severity : LogSeverity) (first : Text)
      (body : Script true) (rest : Script inside) : Script inside
  | part (noFormat : Bool) (text : Text) (rest : Script true) : Script true

/-- The number of records above the head. -/
def depth (stack : List LogData) : Nat := stack.length - 1

/-- `appendLogNoFormat` or `appendLog`. -/
def appendPart (junk : Nat → UInt8) (noFormat : Bool) (stack : List LogData) (text : List UInt8) :
    Except Fault (List LogData) :=
  if noFormat then appendLogNoFormat junk stack text else appendLog junk stack text

namespace Script

variable {inside : Bool}

/-- What a sequence appends to the message it is inside of. -/
def ownParts : {inside : Bool} → Script inside → List UInt8
  | _, done => []
  | _, logMsg _ _ _ rest => rest.ownParts
  | _, message _ _ _ _ rest => rest.ownParts
  | _, part _ text rest => text.bytes ++ rest.ownParts

/-- The calls of a sequence. -/
def calls : {inside : Bool} → Script inside → List LogCall
  | _, done => []
  | _, logMsg logger severity text rest => .logMsg logger severity text.bytes :: rest.calls
  | _, message logger severity first body rest =>
    .startLog logger severity first.bytes :: (body.calls ++ .finishLog :: rest.calls)
  | _, part true text rest => .appendLogNoFormat text.bytes :: rest.calls
  | _, part false text rest => .appendLog text.bytes :: rest.calls

/-- What the log handler should be told of by each call. -/
def expected : {inside : Bool} → Script inside → List (List OnMsg)
  | _, done => []
  | _, logMsg logger severity text rest =>
    [⟨severity, logger.m_loggerId, logger.m_loggerName, text.bytes⟩] :: rest.expected
  | _, message logger severity first body rest =>
    [] :: (body.expected ++
      [⟨severity, logger.m_loggerId, logger.m_loggerName, first.bytes ++ body.ownParts⟩] ::
        rest.expected)
  | _, part _ _ rest => [] :: rest.expected

/-- **Every message arrives**: the calls of the sequence turn the first stack into the second, the
    log handler is told of each message once, where it is finished, of the whole of it, and the
    stack is then as deep as before the message. -/
def Arrives (junk : Nat → UInt8) :
    {inside : Bool} → Script inside → List LogData → List LogData → Prop
  | _, done, s, t => t = s
  | _, logMsg logger severity text rest, s, t => ∃ s₁,
    Logging.logMsg junk s logger severity text.bytes =
      .ok ([⟨severity, logger.m_loggerId, logger.m_loggerName, text.bytes⟩], s₁) ∧
    depth s₁ = depth s ∧ rest.Arrives junk s₁ t
  | _, message logger severity first body rest, s, t => ∃ s₁ s₂ s₃,
    startLog junk s logger severity first.bytes = .ok s₁ ∧
    body.Arrives junk s₁ s₂ ∧
    finishLog junk s₂ = .ok ([⟨severity, logger.m_loggerId, logger.m_loggerName,
      first.bytes ++ body.ownParts⟩], s₃) ∧
    depth s₃ = depth s ∧ rest.Arrives junk s₃ t
  | _, part noFormat text rest, s, t => ∃ s₁,
    appendPart junk noFormat s text.bytes = .ok s₁ ∧ rest.Arrives junk s₁ t

/-- Every message is below the buffer limit. -/
def WithinLimit : {inside : Bool} → Script inside → Prop
  | _, done => True
  | _, logMsg _ _ text rest => text.bytes.length < COMMUTIL_MAX_BUFFER_SIZE ∧ rest.WithinLimit
  | _, message _ _ first body rest =>
    (first.bytes ++ body.ownParts).length < COMMUTIL_MAX_BUFFER_SIZE ∧ body.WithinLimit ∧
      rest.WithinLimit
  | _, part _ _ rest => rest.WithinLimit

end Script

/-- A text that ends where the storage of a message ends. -/
def Text.Fills (text : Text) : Prop := ∃ k, text.bytes.length = 1024 * 2 ^ k

/-- No message has a second part, and none ends where its storage ends. -/
def Script.Plain : {inside : Bool} → Script inside → Prop
  | _, done => True
  | _, logMsg _ _ text rest => ¬ text.Fills ∧ rest.Plain
  | _, message _ _ first body rest => ¬ first.Fills ∧ body.Plain ∧ rest.Plain
  | _, part _ _ _ => False

/-! ## §3 Records -/

variable {junk : Nat → UInt8} {logger : Logger} {severity : LogSeverity} {d : LogData}
  {stack : List LogData}

/-- A record that no text has been written to. -/
structure LogData.Blank (d : LogData) : Prop where
  sound : d.m_buffer.Sound
  offset : d.m_buffer.m_offset = 0
  notFull : d.m_buffer.m_bufferFull = false

/-- A record that holds a text to be logged. -/
structure LogData.Open (d : LogData) (logger : Logger) (severity : LogSeverity) (text : Text) :
    Prop where
  logger_eq : d.m_logger = some logger
  severity_eq : d.m_severity = severity
  holds : d.m_buffer.Holds text.bytes
  terminated : d.m_buffer.Terminated

theorem Text.length_pos (text : Text) : 0 < text.bytes.length :=
  List.length_pos_iff.mpr text.ne

/-- A text of one character. -/
def Text.char (c : UInt8) (hc : 0 ≠ c) : Text := ⟨[c], nofun, fun h => hc (List.mem_singleton.mp h)⟩

theorem Text.char_fits {c : UInt8} {hc : 0 ≠ c} : ¬ (Text.char c hc).Fills := by
  rintro ⟨k, hk⟩
  replace hk : 1 = 1024 * 2 ^ k := hk
  omega

theorem LogData.new_blank (junk : Nat → UInt8) : (LogData.new junk).Blank :=
  ⟨LogBuffer.reset_sound (LogBuffer.new_sound junk), rfl, rfl⟩

theorem LogData.Blank.not_logging (h : d.Blank) : ¬ d.isLogging := by
  rw [isLogging, h.offset]
  exact Nat.lt_irrefl 0

theorem LogData.Open.logging {text : Text} (h : d.Open logger severity text) : d.isLogging := by
  rw [isLogging, h.holds.offset]
  exact text.length_pos

/-- The record that a call uses is not logging. -/
theorem nextLogData_not_logging (junk : Nat → UInt8) (stack : List LogData) :
    ¬ (nextLogData junk stack).1.isLogging := by
  have hnew := (LogData.new_blank junk).not_logging
  unfold nextLogData
  dsimp only
  split
  · exact hnew
  · assumption

theorem nextLogData_nil (junk : Nat → UInt8) : nextLogData junk [] = (.new junk, []) := by
  unfold nextLogData
  exact if_neg (LogData.new_blank junk).not_logging

theorem nextLogData_logging (h : d.isLogging) :
    nextLogData junk (d :: stack) = (.new junk, d :: stack) :=
  if_pos h

theorem nextLogData_not (h : ¬ d.isLogging) : nextLogData junk (d :: stack) = (d, stack) :=
  if_neg h

/-- **A call that appends** finds its record not logging. -/
theorem appendPart_eq (junk : Nat → UInt8) (noFormat : Bool) (stack : List LogData)
    (text : List UInt8) :
    appendPart junk noFormat stack text =
      .ok ((nextLogData junk stack).1 :: (nextLogData junk stack).2) := by
  have hnot := nextLogData_not_logging junk stack
  cases noFormat with
  | true => exact if_neg hnot
  | false => exact if_neg hnot

/-- **The first text** of a message opens a record that nothing has been written to, unless it
    ends where the storage ends. -/
theorem LogData.Blank.start (h : d.Blank) (junk : Nat → UInt8) (logger : Logger)
    (severity : LogSeverity) {text : Text}
    (hlimit : text.bytes.length < COMMUTIL_MAX_BUFFER_SIZE) :
    ∃ d', (d.reset (some logger) severity).appendMsgV junk text.bytes = .ok d' ∧
      (¬ text.Fills ∧ d'.Open logger severity text ∨ text.Fills ∧ d'.Blank) := by
  have hreset : (d.reset (some logger) severity).m_buffer.Holds [] :=
    LogBuffer.reset_holds h.sound h.offset h.notFull
  by_cases hfills : text.Fills
  · obtain ⟨k, hk⟩ := hfills
    obtain ⟨b, hrun, hsound, hoffset, hfull⟩ :=
      LogBuffer.appendV_fills junk hreset (Nat.le_of_lt hlimit) hk
    refine ⟨⟨some logger, severity, b⟩, ?_, .inr ⟨⟨k, hk⟩, ⟨hsound, hoffset, hfull⟩⟩⟩
    rw [appendMsgV, bind_of_ok hrun]
    rfl
  · have hoffset := hreset.offset
    rw [List.length_nil] at hoffset
    have hfits : LogBuffer.Fits (d.reset (some logger) severity).m_buffer text.bytes.length := by
      refine ⟨?_, fun k hk => hfills ⟨k, ?_⟩, fun _ => ?_⟩
      · rw [hoffset, Nat.zero_add]
        exact hlimit
      · rw [← hk, hoffset, Nat.zero_add]
      · rw [hreset.content]
        exact List.not_mem_nil
    obtain ⟨b, hrun, hholds, hterminated⟩ := LogBuffer.appendV_holds junk hreset hfits
    refine ⟨⟨some logger, severity, b⟩, ?_, .inl ⟨hfills, ⟨rfl, rfl, hholds, hterminated⟩⟩⟩
    rw [appendMsgV, bind_of_ok hrun]
    rfl

/-- **The end of a message** tells the log handler of the text that its record holds. -/
theorem LogData.Open.finish {text : Text} (h : d.Open logger severity text)
    (below : List LogData) :
    finishLogData d below =
      .ok ([⟨severity, logger.m_loggerId, logger.m_loggerName, text.bytes⟩],
        popLogData (d.reset none .LS_INFO) below) := by
  obtain ⟨hlogger, hseverity, hholds, hterminated⟩ := h
  obtain ⟨hlen, htake⟩ := hholds.strlen hterminated text.string
  have hfinal : d.m_buffer.finalize = .ok d.m_buffer := by
    rw [LogBuffer.finalize, hholds.notFull]
    rfl
  have hlogging : d.isLogging := (LogData.Open.mk hlogger hseverity hholds hterminated).logging
  rw [finishLogData, if_pos hlogging, bind_of_ok hfinal, hlogger]
  dsimp only
  rw [bind_of_ok hlen, htake, hseverity]
  rfl

/-- `logMsg` is `startLog` and `finishLog`. -/
theorem logMsg_eq (junk : Nat → UInt8) (stack : List LogData) (logger : Logger)
    (severity : LogSeverity) (text : List UInt8) :
    logMsg junk stack logger severity text =
      startLog junk stack logger severity text >>= finishLog junk := by
  unfold logMsg startLog
  dsimp only
  cases ((nextLogData junk stack).1.reset (some logger) severity).appendMsgV junk text with
  | error fault => rfl
  | ok d => rfl

/-! ## §4 Plain messages arrive -/

/-- No record has been made yet, or the one on top counts as logging. -/
def Ready : List LogData → Prop
  | [] => True
  | top :: _ => top.isLogging

/-- A plain message is logged by a new record, or by the head if that is not there yet. -/
theorem startLog_ready (junk : Nat → UInt8) (logger : Logger) (severity : LogSeverity)
    {text : Text} (hlimit : text.bytes.length < COMMUTIL_MAX_BUFFER_SIZE) (hfills : ¬ text.Fills)
    (hready : Ready stack) :
    ∃ d, startLog junk stack logger severity text.bytes = .ok (d :: stack) ∧
      d.Open logger severity text := by
  have hnext : nextLogData junk stack = (.new junk, stack) := by
    cases stack with
    | nil => exact nextLogData_nil junk
    | cons top below => exact nextLogData_logging hready
  obtain ⟨d, hrun, ⟨-, hopen⟩ | ⟨hfull, -⟩⟩ :=
    (LogData.new_blank junk).start junk logger severity hlimit
  · refine ⟨d, ?_, hopen⟩
    rw [startLog, hnext]
    dsimp only
    rw [bind_of_ok hrun]
    rfl
  · exact absurd hfull hfills

theorem finishLog_open {text : Text} (h : d.Open logger severity text) :
    finishLog junk (d :: stack) =
      .ok ([⟨severity, logger.m_loggerId, logger.m_loggerName, text.bytes⟩],
        popLogData (d.reset none .LS_INFO) stack) :=
  h.finish stack

namespace Script

variable {inside : Bool}

/-- `logMsg` is a message without a body. -/
theorem arrives_logMsg_iff {text : Text} {rest : Script inside} {t : List LogData} :
    (logMsg logger severity text rest).Arrives junk stack t ↔
      (message logger severity text done rest).Arrives junk stack t := by
  simp only [Arrives, ownParts, List.append_nil, logMsg_eq]
  constructor
  · rintro ⟨s₁, hrun, hdepth, hrest⟩
    obtain ⟨s, hstart, hfinish⟩ := of_bind_ok hrun
    exact ⟨s, s, s₁, hstart, rfl, hfinish, hdepth, hrest⟩
  · rintro ⟨s, _, s₁, hstart, rfl, hfinish, hdepth, hrest⟩
    exact ⟨s₁, (bind_of_ok hstart _).trans hfinish, hdepth, hrest⟩

/-- A plain sequence appends nothing to the message around it. -/
theorem Plain.ownParts_eq {script : Script inside} (h : script.Plain) : script.ownParts = [] := by
  induction script with
  | done => rfl
  | logMsg _ _ _ _ ih => exact ih h.2
  | message _ _ _ _ _ _ ih => exact ih h.2.2
  | part => exact h.elim

/-- **A plain message arrives** where its body leaves its record as it is, and leaves the stack as
    it was, or the head behind. -/
theorem message_arrives (junk : Nat → UInt8) (logger : Logger) (severity : LogSeverity)
    {first : Text} {body : Script true}
    (hlimit : (first.bytes ++ body.ownParts).length < COMMUTIL_MAX_BUFFER_SIZE)
    (hfills : ¬ first.Fills) (hparts : body.ownParts = [])
    (hready : Ready stack)
    (hbody : ∀ d : LogData, d.isLogging → body.Arrives junk (d :: stack) (d :: stack)) :
    ∃ d : LogData, d.isLogging ∧ ∀ (rest : Script inside) (t : List LogData),
      rest.Arrives junk (popLogData d stack) t →
        (message logger severity first body rest).Arrives junk stack t := by
  rw [hparts, List.append_nil] at hlimit
  obtain ⟨d, hstart, hopen⟩ := startLog_ready junk logger severity hlimit hfills hready
  have hdepth : depth (popLogData (d.reset none .LS_INFO) stack) = depth stack := by
    cases stack with
    | nil => rfl
    | cons => rfl
  refine ⟨d.reset none .LS_INFO, hopen.logging, fun rest t hrest =>
    ⟨_, _, _, hstart, hbody d hopen.logging, ?_, hdepth, hrest⟩⟩
  rw [hparts, List.append_nil]
  exact finishLog_open hopen

/-- **On a stack whose top is logging** every message of a plain sequence arrives, and the stack
    is afterwards as before. -/
theorem Plain.arrives (junk : Nat → UInt8) {script : Script inside} (hplain : script.Plain)
    (hlimit : script.WithinLimit) {top : LogData} {below : List LogData} (htop : top.isLogging) :
    script.Arrives junk (top :: below) (top :: below) := by
  induction script generalizing top below with
  | done => rfl
  | logMsg logger severity text rest ih =>
    obtain ⟨_, -, hmessage⟩ := @message_arrives (top :: below) _ junk logger severity text done
      (by rw [ownParts, List.append_nil]; exact hlimit.1) hplain.1 rfl htop fun _ _ => rfl
    exact arrives_logMsg_iff.mpr (hmessage rest _ (ih hplain.2 hlimit.2 htop))
  | message logger severity first body rest ihbody ihrest =>
    obtain ⟨hfills, hbody, hrest⟩ := hplain
    obtain ⟨hbelow, hlbody, hlrest⟩ := hlimit
    have hready : Ready (top :: below) := htop
    obtain ⟨_, -, hmessage⟩ := message_arrives junk logger severity hbelow hfills
      hbody.ownParts_eq hready fun _ hlogging => ihbody hbody hlbody hlogging
    exact hmessage rest _ (ihrest hrest hlrest htop)
  | part => exact hplain.elim

/-- **On a new thread** the first message leaves the head behind, which then counts as logging. -/
theorem Plain.arrives_new (junk : Nat → UInt8) {script : Script inside} (hplain : script.Plain)
    (hlimit : script.WithinLimit) : ∃ t, script.Arrives junk [] t := by
  cases script with
  | done => exact ⟨[], rfl⟩
  | logMsg logger severity text rest =>
    obtain ⟨_, hlogging, hmessage⟩ := @message_arrives [] _ junk logger severity text done
      (by rw [ownParts, List.append_nil]; exact hlimit.1) hplain.1 rfl trivial fun _ _ => rfl
    exact ⟨_, arrives_logMsg_iff.mpr
      (hmessage rest _ (hplain.2.arrives junk hlimit.2 hlogging))⟩
  | message logger severity first body rest =>
    obtain ⟨hfills, hbody, hrest⟩ := hplain
    obtain ⟨hbelow, hlbody, hlrest⟩ := hlimit
    obtain ⟨_, hlogging, hmessage⟩ := @message_arrives [] _ junk logger severity _ _ hbelow hfills
      hbody.ownParts_eq trivial fun _ htop => hbody.arrives junk hlbody htop
    exact ⟨_, hmessage rest _ (hrest.arrives junk hlrest hlogging)⟩
  | part => exact hplain.elim

end Script

/-! ## §5 What is still to be told -/

/-- A record between two calls: with nothing in it, with the text of a message, or the head after
    its message. -/
inductive LogData.Settled (d : LogData) : Prop where
  | blank (h : d.Blank)
  | opened {logger : Logger} {severity : LogSeverity} {text : Text}
      (h : d.Open logger severity text)
  | spent (hlogger : d.m_logger = none) (hlogging : d.isLogging)

/-- The characters that a record still has for the log handler. -/
def LogData.pending (d : LogData) : Nat := if d.m_logger = none then 0 else d.m_buffer.m_offset

/-- The characters that the records of a stack still have for it. -/
def pending (stack : List LogData) : Nat := (stack.map LogData.pending).sum

def AllSettled (stack : List LogData) : Prop := ∀ d ∈ stack, d.Settled

theorem LogData.Blank.pending_eq (h : d.Blank) : d.pending = 0 := by
  rw [pending, h.offset, ite_self]

theorem LogData.Open.pending_eq {text : Text} (h : d.Open logger severity text) :
    d.pending = text.bytes.length := by
  rw [pending, h.logger_eq, if_neg (Option.some_ne_none logger)]
  exact h.holds.offset

theorem pending_cons (d : LogData) (below : List LogData) :
    pending (d :: below) = d.pending + pending below :=
  List.sum_cons

theorem AllSettled.cons (hd : d.Settled) (h : AllSettled stack) : AllSettled (d :: stack) :=
  List.forall_mem_cons.mpr ⟨hd, h⟩

/-- The record that a call uses is blank, and the others have all that is pending. -/
theorem nextLogData_settled (junk : Nat → UInt8) (h : AllSettled stack) :
    (nextLogData junk stack).1.Blank ∧ AllSettled (nextLogData junk stack).2 ∧
      pending (nextLogData junk stack).2 = pending stack := by
  cases stack with
  | nil =>
    rw [nextLogData_nil]
    exact ⟨LogData.new_blank junk, h, rfl⟩
  | cons top below =>
    by_cases htop : top.isLogging
    · rw [nextLogData_logging htop]
      exact ⟨LogData.new_blank junk, h, rfl⟩
    · rw [nextLogData_not htop]
      obtain ⟨hsettled, hbelow⟩ := List.forall_mem_cons.mp h
      cases hsettled with
      | blank hblank =>
        refine ⟨hblank, hbelow, ?_⟩
        rw [pending_cons, hblank.pending_eq, Nat.zero_add]
      | opened hopen => exact absurd hopen.logging htop
      | spent _ hlogging => exact absurd hlogging htop

/-- **A message that is started** adds its first text, or nothing. -/
theorem startLog_pending (h : AllSettled stack) {text : Text} {s₁ : List LogData}
    (hlimit : text.bytes.length < COMMUTIL_MAX_BUFFER_SIZE)
    (hrun : startLog junk stack logger severity text.bytes = .ok s₁) :
    AllSettled s₁ ∧ pending s₁ ≤ pending stack + text.bytes.length ∧
      (text.Fills → pending s₁ ≤ pending stack) := by
  obtain ⟨hblank, hbelow, hpending⟩ := nextLogData_settled junk h
  obtain ⟨d, happend, hresult⟩ := hblank.start junk logger severity hlimit
  rw [startLog] at hrun
  dsimp only at hrun
  rw [bind_of_ok happend] at hrun
  cases hrun
  rw [pending_cons, hpending]
  rcases hresult with ⟨hfills, hopen⟩ | ⟨-, hblank'⟩
  · rw [hopen.pending_eq]
    exact ⟨hbelow.cons (.opened hopen), by omega, fun hfull => absurd hfull hfills⟩
  · rw [hblank'.pending_eq]
    exact ⟨hbelow.cons (.blank hblank'), by omega, fun _ => by omega⟩

/-- **A further part** adds nothing. -/
theorem appendPart_pending (h : AllSettled stack) {noFormat : Bool} {text : List UInt8}
    {s₁ : List LogData} (hrun : appendPart junk noFormat stack text = .ok s₁) :
    AllSettled s₁ ∧ pending s₁ = pending stack := by
  obtain ⟨hblank, hbelow, hpending⟩ := nextLogData_settled junk h
  rw [appendPart_eq] at hrun
  cases hrun
  refine ⟨hbelow.cons (.blank hblank), ?_⟩
  rw [pending_cons, hblank.pending_eq, Nat.zero_add, hpending]

/-- **A message that the log handler is told of** was pending. -/
theorem finishLog_pending (h : AllSettled stack) {message : OnMsg} {t : List LogData}
    (hrun : finishLog junk stack = .ok ([message], t)) :
    AllSettled t ∧ pending t + message.msg.length = pending stack := by
  have hblank : ∀ {d : LogData} {below : List LogData}, d.Blank →
      finishLogData d below ≠ .ok ([message], t) := by
    intro d below hd heq
    rw [finishLogData, if_neg hd.not_logging] at heq
    cases heq
  cases stack with
  | nil => exact absurd hrun (hblank (LogData.new_blank junk))
  | cons top below =>
    obtain ⟨hsettled, hbelow⟩ := List.forall_mem_cons.mp h
    replace hrun : finishLogData top below = .ok ([message], t) := hrun
    cases hsettled with
    | blank htop => exact absurd hrun (hblank htop)
    | spent hlogger hlogging =>
      rw [finishLogData, if_pos hlogging, hlogger] at hrun
      obtain ⟨_, -, hrun⟩ := of_bind_ok hrun
      cases hrun
    | opened hopen =>
      rw [hopen.finish below] at hrun
      cases hrun
      rw [pending_cons, hopen.pending_eq]
      cases below with
      | nil =>
        -- the head stays, without a logger
        have hspent : (top.reset none .LS_INFO).Settled := .spent rfl hopen.logging
        exact ⟨AllSettled.cons hspent hbelow, Nat.add_comm _ _⟩
      | cons next rest => exact ⟨hbelow, Nat.add_comm _ _⟩

namespace Script

variable {inside : Bool}

/-- A sequence whose messages arrive leaves no more pending than there was, and as much only if
    it is plain. -/
def Accounted (junk : Nat → UInt8) (script : Script inside) : Prop :=
  ∀ s t, AllSettled s → script.Arrives junk s t → AllSettled t ∧ pending t ≤ pending s ∧
    (pending s ≤ pending t → script.ownParts = [] → script.Plain)

theorem message_accounted {first : Text} {body : Script true} {rest : Script inside}
    (hlimit : (first.bytes ++ body.ownParts).length < COMMUTIL_MAX_BUFFER_SIZE)
    (hbody : body.Accounted junk) (hrest : rest.Accounted junk) :
    (message logger severity first body rest).Accounted junk := by
  rintro s t hs ⟨s₁, s₂, s₃, hstart, hinner, hfinish, -, houter⟩
  rw [List.length_append] at hlimit
  obtain ⟨hs₁, hadded, hfills⟩ := startLog_pending hs (by omega) hstart
  obtain ⟨hs₂, hle₂, hplain₂⟩ := hbody s₁ s₂ hs₁ hinner
  obtain ⟨hs₃, hdelivered⟩ := finishLog_pending hs₂ hfinish
  obtain ⟨ht, hle, hplain⟩ := hrest s₃ t hs₃ houter
  rw [List.length_append] at hdelivered
  have hpos := first.length_pos
  refine ⟨ht, by omega, fun hall hown => ⟨fun hfull => ?_, hplain₂ (by omega) ?_, ?_⟩⟩
  · have hnone := hfills hfull
    omega
  · apply List.eq_nil_of_length_eq_zero
    omega
  · exact hplain (by omega) hown

/-- **Nothing is told twice**: what the log handler is told of is no more than what was started. -/
theorem accounted {script : Script inside} (hlimit : script.WithinLimit) :
    script.Accounted junk := by
  have hdone : (done : Script true).Accounted junk := by
    rintro s _ hs rfl
    exact ⟨hs, Nat.le_refl _, fun _ _ => trivial⟩
  induction script with
  | done =>
    rintro s _ hs rfl
    exact ⟨hs, Nat.le_refl _, fun _ _ => trivial⟩
  | logMsg logger severity text rest ih =>
    intro s t hs harrives
    obtain ⟨ht, hle, hplain⟩ := message_accounted
      (by rw [ownParts, List.append_nil]; exact hlimit.1) hdone (ih hlimit.2) s t hs
      (arrives_logMsg_iff.mp harrives)
    refine ⟨ht, hle, fun hall hown => ?_⟩
    obtain ⟨hfills, -, hrest⟩ := hplain hall hown
    exact ⟨hfills, hrest⟩
  | message logger severity first body rest ihbody ihrest =>
    exact message_accounted hlimit.1 (ihbody hlimit.2.1) (ihrest hlimit.2.2)
  | part noFormat text rest ih =>
    rintro s t hs ⟨s₁, happend, hrest⟩
    obtain ⟨hs₁, heq⟩ := appendPart_pending hs happend
    obtain ⟨ht, hle, -⟩ := ih hlimit s₁ t hs₁ hrest
    refine ⟨ht, heq ▸ hle, fun _ hown => ?_⟩
    exact absurd (List.append_eq_nil_iff.mp hown).1 text.ne

/-- Outside of a message there is nothing to append to. -/
theorem ownParts_outside : ∀ script : Script false, script.ownParts = []
  | done => rfl
  | logMsg _ _ _ rest => ownParts_outside rest
  | message _ _ _ _ rest => ownParts_outside rest

/-! ## §6 Which messages arrive -/

/-- A sequence whose messages arrive is a run of its calls, each with the answer that is expected
    of it. -/
theorem Arrives.run {script : Script inside} {s t : List LogData}
    (h : script.Arrives junk s t) :
    runCalls (performLog junk) s script.calls = .ok (script.expected, t) := by
  induction script generalizing s t with
  | done =>
    cases h
    rfl
  | logMsg logger severity text rest ih =>
    obtain ⟨s₁, hrun, -, hrest⟩ := h
    exact runCalls_cons hrun (ih hrest)
  | message logger severity first body rest ihbody ihrest =>
    obtain ⟨s₁, s₂, s₃, hstart, hbody, hfinish, -, hrest⟩ := h
    have hopened : performLog junk s (.startLog logger severity first.bytes) = .ok ([], s₁) :=
      bind_of_ok hstart _
    exact runCalls_cons hopened
      (runCalls_append (ihbody hbody) (runCalls_cons hfinish (ihrest hrest)))
  | part noFormat text rest ih =>
    obtain ⟨s₁, happend, hrest⟩ := h
    cases noFormat with
    | true => exact runCalls_cons (bind_of_ok happend _) (ih hrest)
    | false => exact runCalls_cons (bind_of_ok happend _) (ih hrest)

/-- **Which messages arrive**: on a new thread, with every message below the buffer limit, the
    messages of a well-nested sequence all arrive if and only if none has a second part, and none
    ends where its storage ends. -/
theorem multi_part_messages_arrive_iff (junk : Nat → UInt8) (script : Script false)
    (hlimit : script.WithinLimit) : (∃ t, script.Arrives junk [] t) ↔ script.Plain := by
  constructor
  · rintro ⟨t, harrives⟩
    obtain ⟨-, -, hplain⟩ := accounted hlimit [] t nofun harrives
    exact hplain (Nat.zero_le _) script.ownParts_outside
  · intro hplain
    exact hplain.arrives_new junk hlimit

/-- A message inside of another one. -/
theorem multi_part_messages_arrive_nested :
    ∃ t, (message ⟨"outer", 1⟩ .LS_INFO (Text.char 97 (by decide))
      (logMsg ⟨"inner", 2⟩ .LS_WARN (Text.char 98 (by decide)) done) done :
        Script false).Arrives (fun _ => 7) [] t := by
  refine (multi_part_messages_arrive_iff (fun _ => 7) _ ?_).mpr
    ⟨Text.char_fits, ⟨Text.char_fits, trivial⟩, trivial⟩
  exact ⟨show 1 < 16384 by decide, ⟨show 1 < 16384 by decide, trivial⟩, trivial⟩

/-- A message of two parts. -/
def twoParts : Script false :=
  message ⟨"net", 1⟩ .LS_INFO (Text.char 97 (by decide))
    (part false (Text.char 98 (by decide)) done) done

/-- A message of two parts does not arrive. -/
theorem second_part_lost :
    twoParts.WithinLimit ∧
      (runCalls (performLog fun _ => 0) [] twoParts.calls).map Prod.fst = .ok [[], [], []] ∧
      twoParts.expected = [[], [], [⟨.LS_INFO, 1, "net", [97, 98]⟩]] ∧
      ¬ ∃ t, twoParts.Arrives (fun _ => 0) [] t := by
  have hrun : (runCalls (performLog fun _ => 0) [] twoParts.calls).map Prod.fst =
      .ok [[], [], []] := by decide +kernel
  refine ⟨⟨show 2 < 16384 by decide, trivial, trivial⟩, hrun, rfl, ?_⟩
  rintro ⟨t, harrives⟩
  rw [harrives.run] at hrun
  cases hrun

end Script

end Commutil.Logging
