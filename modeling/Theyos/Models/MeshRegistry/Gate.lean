import Theyos.Core.Machine.Tasks

/-!
# The gate of a session

A session forwards only under a guard. A reader is admitted when no writer has announced itself
and the session is active, first without the lock and again under it.
-/

namespace Theyos.MeshRegistry

open Machine

/-- The lifecycle of a session. -/
inductive Phase where
  | pending
  | active
  | closed
  deriving DecidableEq, Repr

/-- Where a call of `try_enter`, or the guard it returned, is. -/
inductive ReaderPc where
  | entered
  /-- No writer was announced. -/
  | sawNoIntent
  /-- The session was active; the lock is next. -/
  | sawActive
  /-- Under the lock. -/
  | locked
  /-- Under the lock, no writer was announced. -/
  | lockedNoIntent
  /-- Under the lock, the session was active. -/
  | lockedActive
  | refused
  /-- A guard was returned. -/
  | holding
  /-- Under the lock, the guard is being dropped. -/
  | dropping
  | dropped
  deriving DecidableEq, Repr

/-- A call of `try_enter`. -/
structure Reader where
  pc : ReaderPc
  /-- Whether a writer had been announced when the call started. -/
  late : Bool
  deriving DecidableEq, Repr

/-- Where a revoker is. -/
inductive RevokerPc where
  | announced
  /-- Under the lock, before the phase is read. -/
  | atPhase
  /-- Under the lock, the session was pending. -/
  | beforeWait
  /-- Waiting for the phase to change, for a limited time. -/
  | phaseWait
  /-- Under the lock, the session was not pending. -/
  | closing
  /-- Under the lock, the session is closed. -/
  | atReaders
  /-- Waiting for the guards to be dropped. -/
  | readerWait
  /-- Woken; the lock is next. -/
  | readerWoken
  /-- Under the lock, no guard is left. -/
  | draining
  /-- The lock is released. -/
  | released
  | finished
  deriving DecidableEq, Repr

/-- The permit of a pending session. -/
inductive Permit where
  | held
  /-- The phase is changed, and the waiters are not notified yet. -/
  | signalling
  | consumed
  deriving DecidableEq, Repr

/-- Who holds the lock. -/
inductive Holder where
  | reader (i : ℕ)
  | revoker (j : ℕ)
  deriving DecidableEq, Repr

/-- The synchronization of a session, with everyone who uses it. -/
structure SessionSync where
  writerIntent : ℕ
  phase : Phase
  writerActive : Bool
  activeReaders : ℕ
  poisoned : Bool
  holder : Option Holder
  permit : Permit
  readers : List Reader
  revokers : List RevokerPc
  deriving DecidableEq, Repr

/-- What can happen next. -/
inductive Action where
  /-- A call of `try_enter` starts. -/
  | enter
  /-- A revoker announces itself. -/
  | announce
  /-- A reader takes its next step. -/
  | reader (i : ℕ)
  /-- The owner of a guard starts to drop it. -/
  | drop (i : ℕ)
  /-- A revoker takes its next step. -/
  | revoker (j : ℕ)
  | commitAfterAck
  | closeIfPending
  /-- The owner of the permit notifies the waiters. -/
  | notify
  /-- Someone panics under the lock. -/
  | poison
  /-- A waiter wakes for no reason. -/
  | wake (j : ℕ)
  deriving DecidableEq, Repr

namespace SessionSync

/-- A pending session that nobody uses yet. -/
def newPending : SessionSync :=
  ⟨0, .pending, false, 0, false, none, .held, [], []⟩

/-- Wake a revoker that waits for the guards. -/
def wakeRevoker : RevokerPc → RevokerPc
  | .readerWait => .readerWoken
  | pc => pc

variable (s : SessionSync)

/-- Wake everyone who waits on the condition variable. -/
def notifyAll : SessionSync :=
  { s with revokers := s.revokers.map wakeRevoker }

/-- Move a reader. -/
def setReader (i : ℕ) (r : Reader) (pc : ReaderPc) : SessionSync :=
  { s with readers := s.readers.set i { r with pc := pc } }

/-- Move a revoker. -/
def setRevoker (j : ℕ) (pc : RevokerPc) : SessionSync :=
  { s with revokers := s.revokers.set j pc }

/-- Take the lock, when it is free. -/
def lock (holder : Holder) : Option SessionSync :=
  if s.holder = none then some { s with holder := some holder } else none

/-- Release the lock. -/
def unlock : SessionSync := { s with holder := none }

/-- The next step of a reader. -/
def readerStep (i : ℕ) (r : Reader) : Option SessionSync :=
  match r.pc with
  | .entered =>
    some (s.setReader i r (if 0 < s.writerIntent then .refused else .sawNoIntent))
  | .sawNoIntent => some (s.setReader i r (if s.phase = .active then .sawActive else .refused))
  | .sawActive =>
    if s.poisoned then
      (s.lock (.reader i)).map fun s => (s.setReader i r .refused).unlock
    else
      (s.lock (.reader i)).map (·.setReader i r .locked)
  | .locked =>
    some (if 0 < s.writerIntent then (s.setReader i r .refused).unlock
      else s.setReader i r .lockedNoIntent)
  | .lockedNoIntent =>
    some (if s.writerActive = false ∧ s.phase = .active then s.setReader i r .lockedActive
      else (s.setReader i r .refused).unlock)
  | .lockedActive =>
    some { s.setReader i r .holding with activeReaders := s.activeReaders + 1 }.unlock
  | .dropping =>
    let left := { s.setReader i r .dropped with activeReaders := s.activeReaders - 1 }.unlock
    some (if left.activeReaders = 0 then left.notifyAll else left)
  | .refused | .holding | .dropped => none

/-- The next step of a revoker. -/
def revokerStep (j : ℕ) : RevokerPc → Option SessionSync
  | .announced => (s.lock (.revoker j)).map (·.setRevoker j .atPhase)
  | .atPhase => some (s.setRevoker j (if s.phase = .pending then .beforeWait else .closing))
  | .beforeWait => some (s.setRevoker j .phaseWait).unlock
  | .phaseWait => (s.lock (.revoker j)).map (·.setRevoker j .atPhase)
  | .closing => some { s.setRevoker j .atReaders with phase := .closed }
  | .atReaders =>
    some (if 0 < s.activeReaders then (s.setRevoker j .readerWait).unlock
      else { s.setRevoker j .draining with writerActive := true })
  | .readerWait => none
  | .readerWoken => (s.lock (.revoker j)).map (·.setRevoker j .atReaders)
  | .draining => some { s.setRevoker j .released with writerActive := false }.unlock
  | .released => some { s.setRevoker j .finished with writerIntent := s.writerIntent - 1 }
  | .finished => none

/-- The state after an action, if it is possible. -/
def next : Action → Option SessionSync
  | .enter => some { s with readers := s.readers ++ [⟨.entered, !s.revokers.isEmpty⟩] }
  | .announce =>
    some { s with writerIntent := s.writerIntent + 1, revokers := s.revokers ++ [.announced] }
  | .reader i =>
    match s.readers[i]? with
    | some r => s.readerStep i r
    | none => none
  | .drop i =>
    match s.readers[i]? with
    | some r =>
      if r.pc = .holding then (s.lock (.reader i)).map (·.setReader i r .dropping) else none
    | none => none
  | .revoker j =>
    match s.revokers[j]? with
    | some pc => s.revokerStep j pc
    | none => none
  | .commitAfterAck =>
    if s.permit = .held then
      some { s with
        permit := .signalling
        phase := if s.phase = .pending then .active else s.phase }
    else none
  | .closeIfPending =>
    if s.permit = .held then
      some { s with
        permit := .signalling
        phase := if s.phase = .pending then .closed else s.phase }
    else none
  | .notify =>
    if s.permit = .signalling then some { s with permit := .consumed }.notifyAll else none
  | .poison => if s.holder = none then some { s with poisoned := true } else none
  | .wake j =>
    match s.revokers[j]? with
    | some pc => some (s.setRevoker j (wakeRevoker pc))
    | none => none

/-- The state after a list of actions, if each was possible. -/
def run (s : SessionSync) : List Action → Option SessionSync
  | [] => some s
  | a :: actions => (s.next a).bind (·.run actions)

end SessionSync

end Theyos.MeshRegistry
