import DDFramework.Model.Scheduler

/-! Times in nanoseconds and in ticks: `util_timestamp.x64.cpp`, `util_timespan.hpp` and the
sleeping calls. The numbers are `s64` and wrap around. -/

namespace DDFramework

/-! ### `util_timestamp.x64.cpp`, for the frequency that `InitializeTimeStamp` stores -/

/-- The function returns an `s32`, which its callers store in an `s64`. -/
def getSystemTickFrequency (systemFrequency : BitVec 64) : BitVec 64 :=
  (systemFrequency.setWidth 32).signExtend 64

namespace TimeSpan

def maxTime : BitVec 64 := 0x7fffffffffffffff#64

def minTime : BitVec 64 := 0x8000000000000000#64

end TimeSpan

def getMaxTickToTimeSpan (systemFrequency : BitVec 64) : BitVec 64 :=
  (TimeSpan.maxTime - TimeSpan.maxTime.srem systemFrequency).sdiv 1000000000#64 * systemFrequency

/-! ### `TimeSpan`, as its nanoseconds -/

namespace TimeSpan

def fromTick (systemFrequency tick : BitVec 64) : BitVec 64 :=
  let frequency := getSystemTickFrequency systemFrequency
  let maxTickToTimeSpan := getMaxTickToTimeSpan systemFrequency
  if maxTickToTimeSpan.slt tick then maxTime
  else if tick.slt (-maxTickToTimeSpan) then minTime
  else
    let residual := (tick.srem frequency * 1000000000#64).sdiv frequency
    let quotient := tick.sdiv frequency * 1000000000#64
    residual + quotient

/-- The time from `systemTick`, which the call reads, to a later tick. -/
def getTimeLeftOnTarget (systemFrequency systemTick tick : BitVec 64) : BitVec 64 :=
  if tick = 0#64 then 0#64
  else
    let tickLeft := tick - systemTick
    if tickLeft = 0#64 ∨ tickLeft.slt tick then 0#64 else fromTick systemFrequency tickLeft

def getTick (systemFrequency timeNs : BitVec 64) : BitVec 64 :=
  if timeNs = minTime then minTime
  else
    let frequency := getSystemTickFrequency systemFrequency
    let negative := timeNs.sle (-1#64)
    let rCoeff := timeNs.srem 1000000000#64
    let rCoeff := if negative then -timeNs.srem 1000000000#64 else rCoeff
    let pCoeff := timeNs.sdiv 1000000000#64
    let pCoeff := if negative then -timeNs.sdiv 1000000000#64 else pCoeff
    let residual := (rCoeff * frequency + 999999999#64).sdiv 1000000000#64
    let product := pCoeff * frequency
    let result := residual + product
    if result.sle (-1#64) then -result else result

def getMilliSeconds (timeNs : BitVec 64) : BitVec 64 := timeNs.sdiv 1000000#64

end TimeSpan

/-- `util_time.cpp`. -/
def getMillisecondsFromTick (systemFrequency tick : BitVec 64) : BitVec 64 :=
  (tick.srem (getSystemTickFrequency systemFrequency) * 1000#64).sdiv
      (getSystemTickFrequency systemFrequency) +
    tick.sdiv (getSystemTickFrequency systemFrequency) * 1000#64

/-! ### Sleeping -/

def getAbsoluteTimeToWakeup (systemFrequency systemTick timeoutNs : BitVec 64) : BitVec 64 :=
  let timeoutTick := TimeSpan.getTick systemFrequency timeoutNs
  if timeoutTick.sle 0#64 then TimeSpan.maxTime
  else
    let absoluteTime := timeoutTick + systemTick
    if (absoluteTime + 1#64).sle 1#64 then TimeSpan.maxTime else absoluteTime + 2#64

namespace UserScheduler

/-- `Sleep` of `ukern_threadapi.cpp` up to the switch to the scheduler fiber. -/
def sleep (s : UserScheduler) (current : FiberId) (systemFrequency systemTick timeoutSpan : BitVec 64) :
    UserScheduler :=
  s.sleepThreadImpl current (getAbsoluteTimeToWakeup systemFrequency systemTick timeoutSpan)

end UserScheduler

end DDFramework
