import Theyos.Core.Machine.Program
import Theyos.Models.MeshSession.Rekey.State
import Theyos.Models.MeshSession.Wire.Typed

/-!
# Operations on an active session

An active session sends and receives records, and it can be closed from either side. Every
operation is a program over the session. The answers of the gate, the clock and the stream are
listed per operation; a read is answered with the record that was decrypted and decoded. What a
call does with the stream, the forwarding guard and the caller's buffer is noted as it does it.
-/

namespace Theyos.MeshSession

open Machine

/-- A record on an active session. -/
inductive PostActiveRecord where
  | data (payload : List UInt8)
  | revokeNotice
  | close
  | rekey (nextGeneration : UInt64)
  deriving DecidableEq, Repr

/-- What a record means for the rekey counters. -/
def PostActiveRecord.incoming : PostActiveRecord → IncomingRecord
  | .data _ | .revokeNotice | .close => .nonMarker
  | .rekey nextGeneration => .marker nextGeneration

/-- The length check of opaque bodies looks at 32 bits of the length. -/
def checkOpaqueBodyLen (len : ℕ) : Except PostActiveError Unit :=
  if maxCborBodyLen < len % 2 ^ 32 then .error (.oversizeBody (len % 2 ^ 32) maxCborBodyLen)
  else .ok ()

/-- How often the keys of each direction were replaced. -/
structure Transport where
  outgoing : ℕ
  incoming : ℕ
  deriving DecidableEq, Repr

/-- What was observed when the stream was admitted. -/
structure IngressEvidence where
  observedAt : UInt64
  ingressExpiry : UInt64
  deriving DecidableEq, Repr

/-- The result of a completed ceremony. -/
structure ActiveMeshSession where
  transport : Transport
  rekey : SessionRekeyState
  peerHhId : String
  peerMId : String
  peerCertFingerprint : List UInt8
  ingressEvidence : IngressEvidence
  hFinal : List UInt8
  expiresAt : UInt64
  closed : Bool
  deriving DecidableEq, Repr

/-- A record that was written in full, the keys it was written under, and the clock reading a
payload was sent at. -/
structure Emission where
  record : PostActiveRecord
  key : ℕ
  sampled : Option UInt64
  deriving DecidableEq, Repr

/-- What a call does with the stream, the forwarding guard and the caller's buffer. -/
inductive SessionEvent where
  | acquire
  | release
  /-- A record is awaited, whether or not one is read. -/
  | read
  /-- A record is handed to the stream, whether or not all of it is written. -/
  | write (record : PostActiveRecord) (sampled : Option UInt64)
  /-- A payload is copied to the caller's buffer. -/
  | copy (payload : List UInt8) (sampled : UInt64)
  deriving DecidableEq, Repr

/-- A session with what it sent, the counters after each commit, and what its calls did. -/
structure SessionWorld where
  session : ActiveMeshSession
  sent : List Emission
  commits : List (UInt64 × UInt64)
  events : List SessionEvent
  deriving DecidableEq, Repr

/-- A program over a session. -/
abbrev SessionProgram := Program PostActiveError SessionWorld

/-- The answers to an operation that sends. -/
structure SendAnswers where
  /-- The result of writing a marker. -/
  marker : Except PostActiveError Unit
  /-- The gate authorizes forwarding. -/
  authorized : Bool
  clock : Except IntentError UInt64
  /-- The result of writing the record itself. -/
  written : Except PostActiveError Unit

/-- The answers to one read. -/
structure ReadAnswers where
  /-- The record that was read, decrypted and decoded. -/
  read : Except PostActiveError PostActiveRecord
  authorized : Bool
  clock : Except IntentError UInt64

namespace SessionWorld

variable (w : SessionWorld)

/-- Replace the outgoing counters. -/
def setTx (tx : DirectionalRekeyState) : SessionWorld :=
  { w with session := { w.session with rekey := { w.session.rekey with tx := tx } } }

/-- Replace the incoming counters. -/
def setRx (rx : DirectionalRekeyState) : SessionWorld :=
  { w with session := { w.session with rekey := { w.session.rekey with rx := rx } } }

/-- Commit outgoing counters. -/
def commitTx (tx : DirectionalRekeyState) : SessionWorld :=
  { w.setTx tx with commits := w.commits ++ [(tx.generation, tx.policyCount)] }

/-- Replace the outgoing keys. -/
def rekeyOutgoing : SessionWorld :=
  { w with session := { w.session with
      transport := { w.session.transport with outgoing := w.session.transport.outgoing + 1 } } }

/-- Replace the incoming keys. -/
def rekeyIncoming : SessionWorld :=
  { w with session := { w.session with
      transport := { w.session.transport with incoming := w.session.transport.incoming + 1 } } }

/-- Withdraw local authority. -/
def close : SessionWorld :=
  { w with session := { w.session with closed := true } }

/-- Note a record that was written in full. -/
def emit (record : PostActiveRecord) (sampled : Option UInt64) : SessionWorld :=
  { w with sent := w.sent ++ [⟨record, w.session.transport.outgoing, sampled⟩] }

/-- Note what a call does. -/
def note (event : SessionEvent) : SessionWorld := { w with events := w.events ++ [event] }

end SessionWorld

/-- A rekey computation inside an operation. -/
def rekeying {α : Type} (x : Except RekeyError α) : SessionProgram α :=
  Program.ofExcept (x.mapError .rekey)

/-- Count a record that was sent under a permit. -/
def commitNonMarker (permit : SendNonMarkerPermit) : SessionProgram Unit := do
  let w ← get
  let tx ← rekeying (w.session.rekey.tx.afterSendNonMarker permit)
  modify (·.commitTx tx)

/-- Check a marker's permit, replace the keys, and begin the generation. -/
def commitOutgoingRekey (permit : SendMarkerPermit) : SessionProgram Unit := do
  let w ← get
  rekeying (w.session.rekey.tx.validateMarkerPermit permit)
  modify (·.rekeyOutgoing)
  let tx ← rekeying (w.session.rekey.tx.afterSendMarker permit)
  modify (·.commitTx tx)

/-- Encrypt a record and write it; only a failed encryption leaves the stream alone. -/
def writeRecord (record : PostActiveRecord) (sampled : Option UInt64)
    (written : Except PostActiveError Unit) : SessionProgram Unit :=
  match written with
  | .error (.noise e) => throw (.noise e)
  | .error e => do
    modify (·.note (.write record sampled))
    throw e
  | .ok _ => do
    modify (·.note (.write record sampled))
    modify (·.emit record sampled)

/-- Run a program under the forwarding guard, which is dropped however the program ends. -/
def underGuard {α : Type} (authorized : Bool) (x : SessionProgram α) : SessionProgram α := do
  Program.require (authorized = true) .notAuthorized
  modify (·.note .acquire)
  let a ← x.onError (·.note .release)
  modify (·.note .release)
  return a

/-- Send the marker that is due. -/
def sendOutgoingRekeyMarker (budget : ℕ) (written : Except PostActiveError Unit) :
    SessionProgram Unit := do
  let w ← get
  let permit ← rekeying w.session.rekey.tx.beforeSendMarker
  Program.require (budget ≠ 0) .expired
  writeRecord (.rekey permit.nextGeneration) none written
  commitOutgoingRekey permit

/-- The permit for a record, after the marker that is due before it. -/
def permitNonMarker (budget : ℕ) (marker : Except PostActiveError Unit) :
    SessionProgram SendNonMarkerPermit := do
  let w ← get
  match w.session.rekey.tx.beforeSendNonMarker with
  | .ok permit => return permit
  | .error .expectedRekeyMarker => do
    sendOutgoingRekeyMarker budget marker
    let w ← get
    rekeying w.session.rekey.tx.beforeSendNonMarker
  | .error e => throw (.rekey e)

variable (payload : List UInt8)

/-- Send a payload, after the marker that is due before it. -/
def sendDataInner (budget : ℕ) (a : SendAnswers) :
    SessionProgram Unit := do
  let permit ← permitNonMarker budget a.marker
  underGuard a.authorized do
    let now ← Program.ofExcept (a.clock.mapError .intent)
    let w ← get
    Program.require (now < w.session.expiresAt) .expired
    Program.require (budget ≠ 0) .expired
    Program.ofExcept (checkOpaqueBodyLen payload.length)
    writeRecord (.data payload) (some now) a.written
  commitNonMarker permit

/-- Send a payload; a failure closes the session. -/
def sendData (budget : ℕ) (a : SendAnswers) : SessionProgram Unit := do
  let w ← get
  Program.require (w.session.closed = false) .closed
  (sendDataInner payload budget a).onError (·.close)

/-- Process a received record. -/
def observeIncoming (record : IncomingRecord) : SessionProgram Unit := do
  let w ← get
  let rx ← rekeying (w.session.rekey.rx.onReceive record)
  modify (·.setRx rx)

/-- Hand a payload to the caller. -/
def deliverData (bufferLen : ℕ) (a : ReadAnswers) : SessionProgram ℕ :=
  underGuard a.authorized do
    let now ← Program.ofExcept (a.clock.mapError .intent)
    let w ← get
    Program.require (now < w.session.expiresAt) .expired
    Program.require (payload.length ≤ bufferLen) (.receiveBufferTooSmall bufferLen payload.length)
    modify (·.note (.copy payload now))
    return payload.length

/-- Read records until a payload was delivered; nothing is returned while the answers end before
the operation does. -/
def receiveDataInner (bufferLen budget : ℕ) : List ReadAnswers → SessionProgram (Option ℕ)
  | [] => return none
  | a :: answers => do
    Program.require (budget ≠ 0) .expired
    modify (·.note .read)
    match ← Program.ofExcept a.read with
    | .rekey nextGeneration => do
      observeIncoming (.marker nextGeneration)
      modify (·.rekeyIncoming)
      receiveDataInner bufferLen budget answers
    | .close => do
      observeIncoming .nonMarker
      throw .peerClosed
    | .revokeNotice => do
      observeIncoming .nonMarker
      throw .peerRevoked
    | .data payload => do
      observeIncoming .nonMarker
      some <$> deliverData payload bufferLen a

/-- Receive a payload; a failure closes the session. -/
def receiveData (bufferLen budget : ℕ) (answers : List ReadAnswers) :
    SessionProgram (Option ℕ) := do
  let w ← get
  Program.require (w.session.closed = false) .closed
  (receiveDataInner bufferLen budget answers).onError (·.close)

/-- Withdraw authority, then send the marker that is due and a close record. -/
def closeGracefully (budget : ℕ) (a : SendAnswers) : SessionProgram Unit := do
  let w ← get
  if w.session.closed then return
  modify (·.close)
  let permit ← permitNonMarker budget a.marker
  Program.require (budget ≠ 0) .expired
  writeRecord .close none a.written
  commitNonMarker permit

/-- Count a record that may have been sent, whatever comes of it. -/
def commitNonMarkerQuietly (permit : SendNonMarkerPermit) : SessionProgram Unit := do
  let w ← get
  match w.session.rekey.tx.afterSendNonMarker permit with
  | .ok tx => modify (·.commitTx tx)
  | .error _ => return

/-- Withdraw authority, then send a notice unless a marker is due; failures are not reported. A
notice that was encrypted is counted whether or not it was written. -/
def notifyRevokedAndClose (budget : ℕ) (a : SendAnswers) : SessionProgram Unit := do
  let w ← get
  if w.session.closed then return
  modify (·.close)
  match w.session.rekey.tx.beforeSendNonMarker with
  | .error _ => return
  | .ok permit =>
    if budget = 0 then return
    match ← (writeRecord .revokeNotice none a.written).attempt with
    | .error (.noise _) => return
    | _ => commitNonMarkerQuietly permit

/-- A call on a session, with the answers to it. -/
inductive SessionOp where
  | sendData (payload : List UInt8) (budget : ℕ) (answers : SendAnswers)
  | receiveData (bufferLen budget : ℕ) (answers : List ReadAnswers)
  | closeGracefully (budget : ℕ) (answers : SendAnswers)
  | notifyRevokedAndClose (budget : ℕ) (answers : SendAnswers)

/-- The world after a call, whether it succeeded or failed. -/
def SessionOp.exec (w : SessionWorld) : SessionOp → SessionWorld
  | .sendData payload budget a => ((MeshSession.sendData payload budget a).exec w).2
  | .receiveData bufferLen budget answers =>
    ((MeshSession.receiveData bufferLen budget answers).exec w).2
  | .closeGracefully budget a => ((MeshSession.closeGracefully budget a).exec w).2
  | .notifyRevokedAndClose budget a => ((MeshSession.notifyRevokedAndClose budget a).exec w).2

/-- The world after a sequence of calls. -/
def SessionWorld.runOps (w : SessionWorld) (ops : List SessionOp) : SessionWorld :=
  ops.foldl SessionOp.exec w

/-- A session on which nothing was called yet. -/
def SessionWorld.init (session : ActiveMeshSession) : SessionWorld := ⟨session, [], [], []⟩

/-- What every call preserves holds after every sequence of calls. -/
theorem SessionWorld.runOps_invariant {P : SessionWorld → Prop} {w : SessionWorld} (h0 : P w)
    (hstep : ∀ w op, P w → P (SessionOp.exec w op)) (ops : List SessionOp) :
    P (w.runOps ops) :=
  List.foldlRecOn ops _ h0 fun w h op _ => hstep w op h

/-- What a note keeps is kept by an attempt to write, up to the record that was written. -/
theorem ends_writeRecord {P : SessionWorld → Prop} {record : PostActiveRecord}
    {sampled : Option UInt64} (hnote : ∀ w, P w → P (w.note (.write record sampled)))
    (written : Except PostActiveError Unit) :
    Ends P (writeRecord record sampled written) (fun _ w => ∃ v, P v ∧ w = v.emit record sampled)
      fun e w => P w ∧ written = .error e := by
  unfold writeRecord
  split
  · exact .throw fun _ h => ⟨h, rfl⟩
  · exact .update_bind hnote (.throw fun _ h => ⟨h, rfl⟩)
  · exact .update_bind hnote fun w h => ⟨w, h, rfl⟩

/-- The guard is taken before a program and dropped after it. -/
theorem ends_underGuard {α : Type} {x : SessionProgram α} {authorized : Bool}
    {P M : SessionWorld → Prop} {Q Q' : α → SessionWorld → Prop}
    {E E' : PostActiveError → SessionWorld → Prop}
    (hacquire : authorized = true → ∀ w, P w → M (w.note .acquire)) (hx : Ends M x Q E)
    (hok : ∀ a w, Q a w → Q' a (w.note .release))
    (herror : ∀ e w, E e w → E' e (w.note .release)) (hdenied : ∀ w, P w → E' .notAuthorized w) :
    Ends P (underGuard authorized x) Q' E' := by
  refine .require_bind (fun h => .update_bind (hacquire h) ?_) hdenied
  refine .bind ((Ends.onError hx).weakenError fun e _ ⟨_, h, ht⟩ => ht ▸ herror e _ h) fun a => ?_
  exact .update_bind (hok a) (.pure fun _ h => h)

/-- What the steps of a receipt keep is kept by the receipt, up to the delivery. -/
theorem meets_receiveDataInner {I : SessionWorld → Prop} {Q : Option ℕ → SessionWorld → Prop}
    (hread : ∀ w, I w → I (w.note .read)) (hrx : ∀ w rx, I w → I (w.setRx rx))
    (hrekey : ∀ w, I w → I w.rekeyIncoming) (hnone : ∀ w, I w → Q none w) {bufferLen budget : ℕ}
    {answers : List ReadAnswers} (hdeliver : ∀ a ∈ answers, ∀ payload, a.read = .ok (.data payload) →
      Meets I (deliverData payload bufferLen a) (fun n => Q (some n)) I) :
    Meets I (receiveDataInner bufferLen budget answers) Q I := by
  have hobserve (record : IncomingRecord) : Keeps I (observeIncoming record) :=
    .get_bind fun _ _ => (Keeps.ofExcept _).bind fun rx => .update fun w => hrx w rx
  induction answers with
  | nil => exact .pure fun w h => hnone w h
  | cons a answers ih =>
    obtain ⟨hfirst, hrest⟩ := List.forall_mem_cons.mp hdeliver
    refine .require_bind (fun _ => .update_bind hread ?_) fun _ h => h
    refine .ofExcept_bind (fun record hanswer => ?_) fun _ h => h
    cases record with
    | rekey g => exact Meets.bind (hobserve _) fun _ => .update_bind hrekey (ih hrest)
    | close | revokeNotice => exact Meets.bind (hobserve _) fun _ => .throw fun _ h => h
    | data payload => exact Meets.bind (hobserve _) fun _ => .map (hfirst payload hanswer)

end Theyos.MeshSession
