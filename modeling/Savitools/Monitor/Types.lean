import Mathlib.Logic.Basic

namespace Savitools.Monitor.Types

inductive NotificationChannel
  | inApp
  | email
  | webhook
deriving DecidableEq

inductive WatchType
  | account
  | contract
deriving DecidableEq

inductive StreamMode
  | sse
  | poll
deriving DecidableEq

/-- The event sources that an account watch streams from. -/
inductive AccountSource
  | transaction
  | payment
deriving DecidableEq

inductive DeliveryStatus
  | pending
  | delivered
  | failed
  | retrying
  | held
  | claimed
deriving DecidableEq

/-- What becomes of a call to a store or a database: it is served and answered, or
fails before it gets there, or is served while its answer is lost, so that the
caller sees an error. -/
inductive Outcome
  | answered
  | rejected
  | lost
deriving DecidableEq

structure DeliveryAttempt where
  channel : NotificationChannel
  status : DeliveryStatus
  attemptedAt : Option Nat := none
  error : Option String := none
deriving DecidableEq

end Savitools.Monitor.Types
