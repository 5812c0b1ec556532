import LibDht.Net.Message
import Mathlib.Data.Nat.Log

/-!
# The wrapper of the connection table

Several users of one server tell their connections apart by handlers: a connection that is
made for a handler starts with a line that has the handler's number. The number is checked
under `handlers_lock`; the connection is used without asking whether there is one.
-/

/-- A use of `handlers_lock`, and whether it was held. -/
inductive NetwUse where
  | lock (held : Bool)
  | unlock (held : Bool)
  deriving DecidableEq, Repr

/-- The variables of `net_wrapper.c` that making a connection reads, and the uses of their
mutex. -/
structure Netw where
  numHandlers : ℤ
  handlersLock : Bool
  log : List NetwUse
  deriving DecidableEq, Repr

namespace Netw

/-- `pthread_mutex_lock(&handlers_lock)`. -/
def lock (w : Netw) : Netw :=
  { w with handlersLock := true, log := w.log ++ [.lock w.handlersLock] }

/-- `pthread_mutex_unlock(&handlers_lock)`. -/
def unlock (w : Netw) : Netw :=
  { w with handlersLock := false, log := w.log ++ [.unlock w.handlersLock] }

/-- There is no handler with the number, as far as the wrapper can tell. -/
def Refuses (w : Netw) (handlerId : ℤ) : Prop :=
  handlerId < 0 ∨ handlerId > w.numHandlers

instance (w : Netw) (handlerId : ℤ) : Decidable (w.Refuses handlerId) :=
  inferInstanceAs (Decidable (_ ∨ _))

@[simp] theorem lock_numHandlers (w : Netw) : w.lock.numHandlers = w.numHandlers := rfl

end Netw

/-- What `%X` prints. -/
def hexNumeral (n : ℕ) : List UInt8 :=
  hexDigits (Nat.log 16 n + 1) n

/-- The line that a connection for a handler starts with: `"%X\n"`. -/
def handlerLine (handlerId : ℤ) : List UInt8 :=
  hexNumeral handlerId.toNat ++ [10]

/-- Initialise a connection to the handler of another node. What formatting the line returns
is not looked at. -/
def netwNetConnectionCreate {D E A : Type} (w : Netw) (srv : NetServer D E A) (IP : UInt32)
    (port : UInt16) (handlerId : ℤ) : ℤ × Netw × NetServer D E A :=
  let w := w.lock
  if w.Refuses handlerId then (-1, w.unlock, srv)
  else
    let w := w.unlock
    let (conn, srv) := netConnectionCreate srv IP port
    match netConnectionGetBuffer srv conn with
    | (none, srv) => (conn, w, srv.crash)
    | (some (i, _), srv) =>
      let (o, srv) := srv.ask
      (conn, w, if o.printf then srv.write i (handlerLine handlerId) else srv)
