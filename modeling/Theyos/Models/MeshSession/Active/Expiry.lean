import Theyos.Models.MeshSession.Active.Session

/-!
# Nothing crosses an expired or a closed session

A payload is written to the stream or copied to the caller only while the forwarding guard is held
and at a clock reading before the end of the session's validity, and no call moves that end. Every
call that fails closes the session, as far as the source does, and no call on a closed one does
anything.
-/

namespace Theyos.MeshSession

open Machine

/-- The forwarding guard after an event, if the event is allowed: the guard is taken and dropped in
turn, and payloads cross while it is held and before the end of validity. -/
def SessionEvent.guard (expiresAt : UInt64) (held : Bool) : SessionEvent → Option Bool
  | .acquire => if held then none else some true
  | .release => if held then some false else none
  | .write (.data _) sampled => if held ∧ sampled.any (· < expiresAt) then some held else none
  | .copy _ sampled => if held ∧ sampled < expiresAt then some held else none
  | .read | .write .. => some held

/-- The guard after a sequence of events that begins without it, if all of them are allowed. -/
def guardAfter (expiresAt : UInt64) (events : List SessionEvent) : Option Bool :=
  events.foldlM (SessionEvent.guard expiresAt) false

/-- The payload that an event hands to the caller. -/
def SessionEvent.copied : SessionEvent → Option (List UInt8)
  | .copy payload _ => some payload
  | _ => none

/-- The session ends at `expiresAt`, its payloads crossed before, and only under the guard. -/
structure Timely (expiresAt : UInt64) (w : SessionWorld) : Prop where
  ends : w.session.expiresAt = expiresAt
  sent : ∀ x ∈ w.sent, ∀ payload, x.record = .data payload →
    ∃ now, x.sampled = some now ∧ now < expiresAt
  events : guardAfter expiresAt w.events = some false

/-- The worlds of a call from `w₀`: whether the guard is held, what was copied to the caller, and
that payloads crossed under the guard and in time. -/
structure Sending (granted : Prop) (held : Bool) (copied : List (List UInt8))
    (w₀ w : SessionWorld) : Prop where
  ends : w.session.expiresAt = w₀.session.expiresAt
  sent : ∃ new, w.sent = w₀.sent ++ new ∧ ∀ x ∈ new, ∀ payload, x.record = .data payload →
    ∃ now, x.sampled = some now ∧ now < w₀.session.expiresAt
  events : ∃ new, w.events = w₀.events ++ new ∧ guardAfter w₀.session.expiresAt new = some held ∧
    (.acquire ∈ new → granted) ∧ new.filterMap SessionEvent.copied = copied
  closed : w₀.session.closed = true → w.session.closed = true

variable {granted : Prop} {held : Bool} {w₀ : SessionWorld}

namespace Sending

variable {w : SessionWorld} {copied : List (List UInt8)}

theorem refl : Sending granted false [] w₀ w₀ :=
  ⟨rfl, ⟨[], by simp⟩, ⟨[], by simp, rfl, nofun, rfl⟩, id⟩

variable (h : Sending granted held copied w₀ w)

include h

theorem note {event : SessionEvent} {held' : Bool} {copied' : List (List UInt8)}
    (hguard : event.guard w₀.session.expiresAt held = some held')
    (hgranted : event = .acquire → granted) (hcopied : copied ++ event.copied.toList = copied') :
    Sending granted held' copied' w₀ (w.note event) := by
  obtain ⟨new, hevents, hheld, hacquire, hnew⟩ := h.events
  refine ⟨h.ends, h.sent, ⟨new ++ [event], ?_, ?_, ?_, ?_⟩, h.closed⟩
  · rw [SessionWorld.note, hevents, List.append_assoc]
  · rw [guardAfter] at hheld
    simp [guardAfter, List.foldlM_append, hheld, hguard]
  · rw [List.mem_append, List.mem_singleton]
    exact fun hmem => hmem.elim hacquire fun heq => hgranted heq.symm
  · rw [← hcopied, ← hnew, List.filterMap_append]
    cases event <;> rfl

theorem commitTx (tx : DirectionalRekeyState) : Sending granted held copied w₀ (w.commitTx tx) :=
  ⟨h.ends, h.sent, h.events, h.closed⟩

theorem emit {record : PostActiveRecord} {sampled : Option UInt64}
    (hrecord : ∀ payload, record = .data payload →
      ∃ now, sampled = some now ∧ now < w₀.session.expiresAt) :
    Sending granted held copied w₀ (w.emit record sampled) := by
  obtain ⟨new, hsent, hnew⟩ := h.sent
  exact ⟨h.ends, ⟨new ++ [_], (congrArg (· ++ [_]) hsent).trans (List.append_assoc ..),
    List.forall_mem_append.mpr ⟨hnew, List.forall_mem_singleton.mpr hrecord⟩⟩, h.events, h.closed⟩

theorem close : Sending granted held copied w₀ w.close :=
  ⟨h.ends, h.sent, h.events, fun _ => rfl⟩

end Sending

theorem Sending.timely {w : SessionWorld} {copied : List (List UInt8)} {E : UInt64}
    (h : Sending granted false copied w₀ w) (h₀ : Timely E w₀) : Timely E w := by
  obtain ⟨new, hsent, hnew⟩ := h.sent
  obtain ⟨events, hevents, hheld, _⟩ := h.events
  have hbefore := h₀.events
  rw [guardAfter] at hheld hbefore
  refine ⟨h.ends.trans h₀.ends, ?_, ?_⟩
  · rw [hsent]
    exact List.forall_mem_append.mpr ⟨h₀.sent, fun x hx payload hp => h₀.ends ▸ hnew x hx payload hp⟩
  · rw [h₀.ends] at hheld
    simp [guardAfter, hevents, List.foldlM_append, hbefore, hheld]

theorem keeps_commitNonMarker (permit : SendNonMarkerPermit) :
    Keeps (Sending granted false [] w₀) (commitNonMarker permit) :=
  .get_bind fun _ _ => (Keeps.ofExcept _).bind fun tx => .update fun _ h => h.commitTx tx

/-- A record may be written, whether or not that succeeds, if it is no payload or crosses under
the guard and in time. -/
theorem keeps_writeRecord {record : PostActiveRecord} {sampled : Option UInt64}
    (hrecord : ∀ payload, record = .data payload →
      held = true ∧ ∃ now, sampled = some now ∧ now < w₀.session.expiresAt)
    (written : Except PostActiveError Unit) :
    Keeps (Sending granted held [] w₀) (writeRecord record sampled written) := by
  have hguard : (SessionEvent.write record sampled).guard w₀.session.expiresAt held =
      some held := by
    cases record with
    | data payload =>
      obtain ⟨rfl, now, rfl, hnow⟩ := hrecord payload rfl
      simp [SessionEvent.guard, hnow]
    | revokeNotice | close | rekey g => rfl
  refine (ends_writeRecord (fun _ h => h.note hguard nofun rfl) written).weaken ?_ fun _ _ h => h.1
  rintro _ _ ⟨_, h, rfl⟩
  exact h.emit fun payload hpayload => (hrecord payload hpayload).2

/-- A program under the guard takes and drops it. -/
theorem meets_underGuard {α : Type} {x : SessionProgram α} {q : α → Prop} {authorized : Bool}
    {copied : List (List UInt8)} (hgranted : authorized = true → granted)
    (hx : Meets (Sending granted true [] w₀) x
      (fun a w => q a ∧ Sending granted true copied w₀ w) (Sending granted true [] w₀)) :
    Meets (Sending granted false [] w₀) (underGuard authorized x)
      (fun a w => q a ∧ Sending granted false copied w₀ w) (Sending granted false [] w₀) :=
  ends_underGuard (fun h _ hw => hw.note rfl (fun _ => hgranted h) rfl) hx
    (fun _ _ h => ⟨h.1, h.2.note rfl nofun (List.append_nil _)⟩) (fun _ _ h => h.note rfl nofun rfl)
    fun _ h => h

theorem keeps_permitNonMarker (budget : ℕ) (marker : Except PostActiveError Unit) :
    Keeps (Sending granted false [] w₀) (permitNonMarker budget marker) := by
  refine .get_bind fun w _ => ?_
  split
  · exact .pure _
  · refine Keeps.bind ?_ fun _ => .get_bind fun _ _ => .ofExcept _
    exact .get_bind fun _ _ => (Keeps.ofExcept _).bind fun _ => .require_bind fun _ =>
      (keeps_writeRecord (by nofun) marker).bind fun _ => .get_bind fun _ _ =>
      (Keeps.ofExcept _).bind fun _ =>
      (Keeps.update fun _ h => ⟨h.ends, h.sent, h.events, h.closed⟩).bind fun _ =>
      (Keeps.ofExcept _).bind fun tx => .update fun _ h => h.commitTx tx
  · exact .throw _

theorem keeps_sendDataInner (payload : List UInt8) (budget : ℕ) (a : SendAnswers) :
    Keeps (Sending (a.authorized = true) false [] w₀) (sendDataInner payload budget a) := by
  refine (keeps_permitNonMarker budget a.marker).bind fun permit => ?_
  refine Meets.bind ((meets_underGuard (q := fun _ => True) id ?_).weaken (fun _ _ h => h.2)
    fun _ _ h => h) fun _ => keeps_commitNonMarker permit
  refine .ofExcept_bind (fun now _ => .get_bind fun w hw => ?_) fun _ h => h
  refine .require_bind (fun hnow => ?_) fun _ h => h ▸ hw
  rw [hw.ends] at hnow
  have hwrite : Keeps (Sending (a.authorized = true) true [] w₀)
      (writeRecord (.data payload) (some now) a.written) :=
    keeps_writeRecord (fun _ _ => ⟨rfl, now, rfl, hnow⟩) _
  refine .require_bind (fun _ => ?_) fun _ h => h ▸ hw
  exact .ofExcept_bind (fun _ _ => hwrite.mono (fun _ h => h ▸ hw) fun _ _ h => ⟨trivial, h⟩)
    fun _ h => h ▸ hw

/-- After a receipt that did not fail, a payload among the answers was copied and its length
returned, unless the answers ended before. -/
def Receiving (answers : List ReadAnswers) (w₀ : SessionWorld) (n : Option ℕ) (w : SessionWorld) :
    Prop :=
  ∃ copied, Sending (∃ a ∈ answers, a.authorized = true) false copied w₀ w ∧
    n.elim (copied = []) fun n => ∃ payload, n = payload.length ∧ copied = [payload] ∧
      ∃ a ∈ answers, a.read = .ok (.data payload)

theorem receiveDataInner_receiving (bufferLen budget : ℕ) (answers : List ReadAnswers) :
    Meets (Sending (∃ a ∈ answers, a.authorized = true) false [] w₀)
      (receiveDataInner bufferLen budget answers) (Receiving answers w₀)
      (Sending (∃ a ∈ answers, a.authorized = true) false [] w₀) := by
  refine meets_receiveDataInner (fun _ h => h.note rfl nofun rfl)
    (fun _ _ h => ⟨h.ends, h.sent, h.events, h.closed⟩)
    (fun _ h => ⟨h.ends, h.sent, h.events, h.closed⟩) (fun _ h => ⟨[], h, rfl⟩)
    fun a ha payload hread => ?_
  refine (meets_underGuard (q := (· = payload.length)) (fun h => ⟨a, ha, h⟩) ?_).weaken
    (fun _ _ h => ⟨[payload], h.2, payload, h.1, rfl, a, ha, hread⟩) fun _ _ h => h
  refine .ofExcept_bind (fun now _ => .get_bind fun w hw => ?_) fun _ h => h
  refine .require_bind (fun hnow => .require_bind (fun _ => ?_) fun _ h => h ▸ hw) fun _ h => h ▸ hw
  rw [hw.ends] at hnow
  refine .update_bind (M := Sending _ true [payload] w₀) (fun _ h => h ▸ hw.note ?_ nofun rfl)
    (.pure fun _ h => ⟨rfl, h⟩)
  simp [SessionEvent.guard, hnow]

theorem keeps_commitNonMarkerQuietly (permit : SendNonMarkerPermit) :
    Keeps (Sending granted false [] w₀) (commitNonMarkerQuietly permit) := by
  refine .get_bind fun w _ => ?_
  split
  · exact .update fun _ h => h.commitTx _
  · exact .pure _

/-- The worlds of a call that closed the session and copied nothing. -/
def Shut (granted : Prop) (w₀ w : SessionWorld) : Prop :=
  w.session.closed = true ∧ Sending granted false [] w₀ w

/-- A call that closes the session first and then goes on. -/
theorem meets_closing {x : SessionWorld → SessionProgram Unit}
    (hx : Keeps (Sending False false [] w₀.close) (x w₀)) :
    Meets (· = w₀) (do
      let w ← get
      if w.session.closed then return
      modify (·.close)
      x w) (fun _ => Shut False w₀) (Shut False w₀) := by
  have hshut : ∀ w, Sending False false [] w₀.close w → Shut False w₀ w :=
    fun _ h => ⟨h.closed rfl, h.ends, h.sent, h.events, fun _ => h.closed rfl⟩
  refine .get_bind fun w hw => ?_
  subst hw
  split
  · rename_i h
    exact .pure fun s hs => ⟨hs ▸ h, hs ▸ .refl⟩
  · refine .update_bind (M := Sending False false [] w.close) (fun _ hs => hs ▸ .refl) ?_
    exact hx.weaken (fun _ => hshut) fun _ => hshut

/-- A call that is refused on a closed session and closes it on failure. -/
theorem meets_guarded {α : Type} {x : SessionProgram α} {Q : α → SessionWorld → Prop}
    (hx : Meets (Sending granted false [] w₀) x Q (Sending granted false [] w₀)) :
    Meets (· = w₀) (do
      let w ← get
      Program.require (w.session.closed = false) .closed
      x.onError (·.close)) Q (Shut granted w₀) := by
  intro w hw
  subst hw
  have hclosing := hx.onError (E := Shut granted w) fun _ h => ⟨rfl, h.close⟩
  cases hclosed : w.session.closed with
  | true => simp [Program.exec_bind, Program.require, Machine.require, hclosed, Shut, Sending.refl]
  | false =>
    simpa [Program.exec_bind, Program.require, Machine.require, hclosed] using hclosing w .refl

/-- What the calls on a session do, whatever the gate, the clock and the stream answer: each takes
the guard only as the gate grants it, and copies nothing when it fails. -/
structure Calls (w : SessionWorld) : Prop where
  sendData : ∀ payload budget a, Meets (· = w) (sendData payload budget a)
    (fun _ => Sending (a.authorized = true) false [] w) (Shut (a.authorized = true) w)
  receiveData : ∀ bufferLen budget answers, Meets (· = w) (receiveData bufferLen budget answers)
    (Receiving answers w) (Shut (∃ a ∈ answers, a.authorized = true) w)
  closeGracefully : ∀ budget a, Meets (· = w) (closeGracefully budget a)
    (fun _ => Shut False w) (Shut False w)
  notifyRevokedAndClose : ∀ budget a, Meets (· = w) (notifyRevokedAndClose budget a)
    (fun _ => Shut False w) (Shut False w)

theorem calls (w : SessionWorld) : Calls w where
  sendData payload budget a := meets_guarded (keeps_sendDataInner payload budget a)
  receiveData bufferLen budget answers :=
    meets_guarded (receiveDataInner_receiving bufferLen budget answers)
  closeGracefully budget a :=
    meets_closing <| (keeps_permitNonMarker budget a.marker).bind fun permit =>
      .require_bind fun _ => (keeps_writeRecord (by nofun) _).bind fun _ =>
      keeps_commitNonMarker permit
  notifyRevokedAndClose budget a := by
    refine meets_closing ?_
    split
    · exact .pure _
    · split
      · exact .pure _
      · refine Ends.attempt_bind (keeps_writeRecord (by nofun) _)
          (fun _ => keeps_commitNonMarkerQuietly _) fun e => ?_
        cases e with
        | noise e => exact Ends.pure fun _ h => h
        | _ => exact keeps_commitNonMarkerQuietly _

/-- Every call keeps payloads before the end of validity and under the guard. -/
theorem Timely.exec {E : UInt64} {w : SessionWorld} (h : Timely E w) (op : SessionOp) :
    Timely E (SessionOp.exec w op) := by
  have hsent : ∀ {granted : Prop} {copied} w', Sending granted false copied w w' → Timely E w' :=
    fun _ hs => hs.timely h
  cases op with
  | sendData payload budget a =>
    exact (((calls w).sendData payload budget a).weaken (fun _ => hsent)
      fun _ _ hs => hsent _ hs.2).exec rfl
  | receiveData bufferLen budget answers =>
    exact (((calls w).receiveData bufferLen budget answers).weaken
      (fun _ _ ⟨_, hs, _⟩ => hsent _ hs) fun _ _ hs => hsent _ hs.2).exec rfl
  | closeGracefully budget a =>
    exact (((calls w).closeGracefully budget a).weaken (fun _ _ hs => hsent _ hs.2)
      fun _ _ hs => hsent _ hs.2).exec rfl
  | notifyRevokedAndClose budget a =>
    exact (((calls w).notifyRevokedAndClose budget a).weaken (fun _ _ hs => hsent _ hs.2)
      fun _ _ hs => hsent _ hs.2).exec rfl

/-- Whatever calls are made on a session, its payloads cross before it expires and under the
guard. -/
theorem timely_runOps (session : ActiveMeshSession) (ops : List SessionOp) :
    Timely session.expiresAt ((SessionWorld.init session).runOps ops) :=
  SessionWorld.runOps_invariant ⟨rfl, nofun, rfl⟩ (fun _ op h => h.exec op) ops

/-- A closed session answers every call without its stream and stays as it is; a failed call, and
one that closes, leaves it closed and copies nothing; and payloads cross, in every sequence of
calls, only under the guard and in time. -/
theorem closed_absorbing (w : SessionWorld) : Calls w ∧ (w.session.closed = true →
    (∀ ops, w.runOps ops = w) ∧ ∀ payload bufferLen budget a answers,
      (sendData payload budget a).exec w = (.error .closed, w) ∧
      (receiveData bufferLen budget answers).exec w = (.error .closed, w) ∧
      (closeGracefully budget a).exec w = (.ok (), w) ∧
      (notifyRevokedAndClose budget a).exec w = (.ok (), w)) ∧
    ∀ ops, guardAfter w.session.expiresAt
      ((SessionWorld.init w.session).runOps ops).events = some false := by
  refine ⟨calls w, fun hclosed => ?_, fun ops => (timely_runOps w.session ops).events⟩
  have hsame : ∀ op, SessionOp.exec w op = w := by
    intro op
    cases op <;> simp [SessionOp.exec, sendData, receiveData, closeGracefully,
      notifyRevokedAndClose, Program.exec_bind, Program.require, Machine.require, hclosed] <;> rfl
  refine ⟨SessionWorld.runOps_invariant (P := (· = w)) rfl fun _ op h => h ▸ hsame op,
    fun _ _ _ _ _ => ⟨?_, ?_, ?_, ?_⟩⟩ <;>
    simp [sendData, receiveData, closeGracefully, notifyRevokedAndClose, Program.exec_bind,
      Program.require, Machine.require, hclosed] <;> rfl

end Theyos.MeshSession
