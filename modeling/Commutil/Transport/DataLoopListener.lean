import Commutil.Basic

/-!
# Timers of an I/O Loop

The timers of `data_loop_listener.cpp`.  The map from timer ids to timers is a list with
the ids as keys; of the libuv handle a timer keeps the timeout that it was last started
with, until it fires.  The results of the libuv calls come with the calls.
-/

namespace Commutil.Transport

/-- `TimerType`. -/
inductive TimerType where
  | none
  | oneShot
  | periodic
  deriving DecidableEq, Repr

/-- `struct TimerData`. -/
structure TimerData where
  m_timerId : UInt64
  m_timerType : TimerType
  /-- The timeout of the handle, if it is active. -/
  m_timer : Option UInt64
  deriving DecidableEq, Repr

/-- The timers of a `DataLoopListener`. -/
structure DataLoopListener where
  m_timerMap : List TimerData
  m_nextTimerId : UInt64
  deriving DecidableEq, Repr

namespace DataLoopListener

/-- The entry of a timer id. -/
def find (d : DataLoopListener) (timerId : UInt64) : Option TimerData :=
  d.m_timerMap.find? fun timer => timer.m_timerId = timerId

/-- Remove the entry of a timer id. -/
def erase (d : DataLoopListener) (timerId : UInt64) : DataLoopListener :=
  { d with m_timerMap := d.m_timerMap.filter fun timer => timer.m_timerId ≠ timerId }

/-- Change the entry of a timer id. -/
def update (d : DataLoopListener) (timerId : UInt64) (f : TimerData → TimerData) :
    DataLoopListener :=
  { d with m_timerMap := d.m_timerMap.map fun timer =>
      if timer.m_timerId = timerId then f timer else timer }

/-- `startLoopTimer`: the result, the timer id, and the listener afterwards. -/
def startLoopTimer (d : DataLoopListener) (wakeUpMillis periodMillis : UInt64)
    (uv_timer_init uv_timer_start : Int) : ErrorCode × UInt64 × DataLoopListener :=
  let timerId := d.m_nextTimerId
  let d := { d with m_nextTimerId := d.m_nextTimerId + 1 }
  if (d.find timerId).isSome then (.internalError, timerId, d)
  else if uv_timer_init < 0 then (.systemFailure, timerId, d)
  else if uv_timer_start < 0 then (.systemFailure, timerId, d)
  else
    (.ok, timerId, { d with m_timerMap := d.m_timerMap ++
      [⟨timerId, if periodMillis = 0 then .oneShot else .periodic, some wakeUpMillis⟩] })

/-- `setNextLoopTimer`. -/
def setNextLoopTimer (d : DataLoopListener) (timerId wakeUpMillis : UInt64)
    (uv_timer_start : Int) : ErrorCode × DataLoopListener :=
  match d.find timerId with
  | none => (.notFound, d)
  | some timerData =>
    if timerData.m_timerType ≠ .oneShot then (.invalidArgument, d)
    else if uv_timer_start < 0 then (.systemFailure, d)
    else (.ok, d.update timerId fun timer => { timer with m_timer := some wakeUpMillis })

/-- `stopLoopTimer`. -/
def stopLoopTimer (d : DataLoopListener) (timerId : UInt64) (uv_timer_stop : Int) :
    ErrorCode × DataLoopListener :=
  match d.find timerId with
  | none => (.notFound, d)
  | some timerData =>
    if timerData.m_timerType ≠ .periodic then (.invalidArgument, d)
    else if uv_timer_stop < 0 then (.systemFailure, d)
    else (.ok, d.erase timerId)

/-- libuv takes an active timer off its list before the callback. -/
def fire (d : DataLoopListener) (timerId : UInt64) : Option DataLoopListener :=
  match d.find timerId with
  | none => none
  | some timerData =>
    match timerData.m_timer with
    | none => none
    | some _ => some (d.update timerId fun timer =>
        { timer with m_timer := if timer.m_timerType = .oneShot then none else timer.m_timer })

end DataLoopListener

end Commutil.Transport
