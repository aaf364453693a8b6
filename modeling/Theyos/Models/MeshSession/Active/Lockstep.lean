import Theyos.Core.Machine.Tasks
import Theyos.Models.MeshSession.Active.Session
import Theyos.Models.MeshSession.Rekey.Position

/-!
# Two ends in lockstep

The records a session writes follow the rekey schedule, whatever calls are made on it and however
they end. A receiver with the same threshold that processes the records in order accepts every one
of them.
-/

namespace Theyos.MeshSession

open Machine DirectionalRekeyState SessionWorld Program

variable {T : RekeyThreshold} {w : SessionWorld} {tx' : DirectionalRekeyState}

/-- What was sent and committed follows the schedule. -/
structure Following (T : RekeyThreshold) (w : SessionWorld) : Prop where
  position : AtPosition T w.commits.length w.session.rekey.tx
  key : w.session.transport.outgoing = w.commits.length / T.value.toNat
  committed : ∀ i c, w.commits[i]? = some c →
    c.1.toNat = (i + 1) / T.value.toNat ∧ c.2.toNat = (i + 1) % T.value.toNat
  sent : ∀ i x, w.sent[i]? = some x → x.record.incoming = scheduled T.value.toNat i ∧
    (i + 1) / T.value.toNat ≤ maxU64.toNat ∧ x.key = i / T.value.toNat

/-- Every record that was sent is committed. -/
structure Aligned (T : RekeyThreshold) (w : SessionWorld) : Prop extends Following T w where
  aligned : w.sent.length = w.commits.length

/-- Every record that was sent is committed, and the last commit of a closed session may be that
of a notice that was not written. -/
structure Settled (T : RekeyThreshold) (w : SessionWorld) : Prop extends Following T w where
  settled : w.sent.length = w.commits.length ∨
    w.session.closed = true ∧ w.sent.length ≤ w.commits.length

theorem Aligned.settled (h : Aligned T w) : Settled T w := ⟨h.toFollowing, .inl h.aligned⟩

theorem Settled.aligned_of_open (h : Settled T w) (hopen : w.session.closed = false) :
    Aligned T w :=
  ⟨h.toFollowing, h.settled.resolve_right (by simp [hopen])⟩

theorem Aligned.close (h : Aligned T w) : Aligned T w.close :=
  ⟨⟨h.position, h.key, h.committed, h.sent⟩, h.aligned⟩

theorem Aligned.note (h : Aligned T w) (event : SessionEvent) : Aligned T (w.note event) :=
  ⟨⟨h.position, h.key, h.committed, h.sent⟩, h.aligned⟩

theorem committed_snoc (h : Following T w)
    (hposition : AtPosition T (w.commits.length + 1) tx') (i : ℕ) (c : UInt64 × UInt64)
    (hc : (w.commits ++ [(tx'.generation, tx'.policyCount)])[i]? = some c) :
    c.1.toNat = (i + 1) / T.value.toNat ∧ c.2.toNat = (i + 1) % T.value.toNat :=
  AllTasks.append h.committed ⟨hposition.generation, hposition.policyCount⟩ (fun _ _ => id) i c hc

variable {record : PostActiveRecord} {sampled : Option UInt64}

theorem sent_snoc (h : Aligned T w)
    (hreceive : w.session.rekey.tx.onReceive record.incoming = .ok tx') (i : ℕ) (x : Emission)
    (hx : (w.emit record sampled).sent[i]? = some x) :
    x.record.incoming = scheduled T.value.toNat i ∧
      (i + 1) / T.value.toNat ≤ maxU64.toNat ∧ x.key = i / T.value.toNat := by
  obtain ⟨hrecord, hle⟩ := h.position.onReceive_iff.mp ⟨tx', hreceive⟩
  rw [← h.aligned] at hrecord hle
  exact AllTasks.append h.sent ⟨hrecord, hle, h.aligned ▸ h.key⟩ (fun _ _ => id) i x hx

/-- Sending and counting a record keeps step. -/
theorem Aligned.nonMarker (h : Aligned T w) (hrecord : record.incoming = .nonMarker)
    (hreceive : w.session.rekey.tx.onReceive .nonMarker = .ok tx') :
    Aligned T ((w.emit record sampled).commitTx tx') := by
  have hposition := h.position.advance hreceive
  have hdue := mt h.position.due_iff.mpr (onReceive_nonMarker_eq_ok.mp hreceive).1
  have hcommitted := committed_snoc h.toFollowing hposition
  refine ⟨⟨?_, ?_, hcommitted, ?_⟩, ?_⟩
  · simpa [commitTx, setTx, emit] using hposition
  · have hkey := h.key
    rw [← succ_div_of_not_due hdue] at hkey
    simpa [commitTx, setTx, emit] using hkey
  · rw [← hrecord] at hreceive
    exact sent_snoc h hreceive
  · simp [commitTx, setTx, emit, h.aligned]

/-- Sending a marker and beginning its generation keeps step. -/
theorem Aligned.marker (h : Aligned T w) {g : UInt64}
    (hreceive : w.session.rekey.tx.onReceive (.marker g) = .ok tx') :
    Aligned T ((w.emit (.rekey g) none).rekeyOutgoing.commitTx tx') := by
  have hposition := h.position.advance hreceive
  have hdue := h.position.due_iff.mp (onReceive_marker_eq_ok.mp hreceive).2.1
  have hcommitted := committed_snoc h.toFollowing hposition
  refine ⟨⟨?_, ?_, hcommitted, sent_snoc h hreceive⟩, ?_⟩
  · simpa [commitTx, setTx, emit, rekeyOutgoing] using hposition
  · have hkey := congrArg (· + 1) h.key
    rw [← succ_div_of_due hdue] at hkey
    simpa [commitTx, setTx, emit, rekeyOutgoing] using hkey
  · simp [commitTx, setTx, emit, rekeyOutgoing, h.aligned]

/-- A session in step that may send a record with the permit. -/
def Permitted (T : RekeyThreshold) (permit : SendNonMarkerPermit) (w : SessionWorld) : Prop :=
  Aligned T w ∧ w.session.rekey.tx.beforeSendNonMarker = .ok permit

/-- A permitted record was written and is not counted yet. -/
def Written (T : RekeyThreshold) (permit : SendNonMarkerPermit) (record : PostActiveRecord)
    (w : SessionWorld) : Prop :=
  ∃ sampled v, Permitted T permit v ∧ w = v.emit record sampled

variable {permit : SendNonMarkerPermit}

theorem Permitted.note (h : Permitted T permit w) (event : SessionEvent) :
    Permitted T permit (w.note event) :=
  ⟨h.1.note event, h.2⟩

theorem Written.note (h : Written T permit record w) (event : SessionEvent) :
    Written T permit record (w.note event) := by
  obtain ⟨sampled, v, hv, rfl⟩ := h
  exact ⟨sampled, v.note event, hv.note event, rfl⟩

/-- Counting a permitted record that was written does not fail, and it keeps step. -/
theorem ends_commitNonMarker (hrecord : record.incoming = .nonMarker) :
    Ends (Written T permit record) (commitNonMarker permit) (fun _ => Aligned T)
      fun _ _ => False := by
  rintro _ ⟨sampled, w, ⟨haligned, hpermit⟩, rfl⟩
  obtain ⟨tx', hreceive⟩ := haligned.position.permitted hpermit
  have hafter := (afterSendNonMarker_eq hpermit).trans hreceive
  have htx : (w.emit record sampled).session.rekey.tx = w.session.rekey.tx := rfl
  simp only [commitNonMarker, exec_bind, exec_get, htx, hafter, rekeying, Except.mapError,
    exec_ofExcept]
  exact haligned.nonMarker hrecord hreceive

/-- A session in step, in the generation. -/
def Started (T : RekeyThreshold) (g : UInt64) (w : SessionWorld) : Prop :=
  Aligned T w ∧ w.session.rekey.tx.generation = g

/-- The counters are the reason of a failure only under a threshold of one or in the last
generation. -/
def Roomy (T : RekeyThreshold) (g : UInt64) (a : SendAnswers) (e : PostActiveError) : Prop :=
  ∀ r, e = .rekey r → T.value.get = 1 ∨ g = maxU64 ∨ a.marker = .error e ∨ a.written = .error e

variable {g : UInt64} (budget : ℕ) (a : SendAnswers)

/-- Obtaining a permit keeps step. -/
theorem ends_permitNonMarker :
    Ends (Started T g) (permitNonMarker budget a.marker) (Permitted T)
      fun e w => Aligned T w ∧ Roomy T g a e := by
  rintro w ⟨hw, rfl⟩
  simp only [permitNonMarker, exec_bind, exec_get]
  cases hpermit : w.session.rekey.tx.beforeSendNonMarker with
  | ok permit => exact ⟨hw, hpermit⟩
  | error e =>
    obtain ⟨rfl, hdue⟩ := beforeSendNonMarker_eq_error.mp hpermit
    simp only [sendOutgoingRekeyMarker, exec_bind, exec_get, rekeying, exec_ofExcept]
    cases hmarker : w.session.rekey.tx.beforeSendMarker with
    | error e => exact ⟨hw, fun _ _ => .inr (.inl (last_of_beforeSendMarker hdue hmarker))⟩
    | ok permit =>
      obtain ⟨hafter, hvalid, tx', hreceive⟩ := afterSendMarker_eq hmarker
      simp only [Except.mapError, Program.require, Program.exec_ofExcept, Machine.require]
      by_cases hbudget : budget = 0
      · simp only [hbudget, ne_eq, not_true_eq_false, if_false]
        exact ⟨hw, by rintro _ ⟨⟩⟩
      · simp only [hbudget, ne_eq, not_false_eq_true, if_true]
        have hwrite := ends_writeRecord (P := fun v => Aligned T v ∧ v.session = w.session)
          (fun _ h => ⟨h.1.note (.write (.rekey permit.nextGeneration) none), h.2⟩) a.marker w
          ⟨hw, rfl⟩
        rcases hexec : (writeRecord (.rekey permit.nextGeneration) none a.marker).exec w with
          ⟨e | _, _⟩ <;> rw [hexec] at hwrite
        · exact ⟨hwrite.1.1, fun _ _ => .inr (.inr (.inl hwrite.2))⟩
        · obtain ⟨v, ⟨hv, hsession⟩, rfl⟩ := hwrite
          rw [← hsession] at hreceive hvalid hafter
          have haligned := hv.marker hreceive
          have htx : (v.emit (.rekey permit.nextGeneration) none).session.rekey.tx =
              v.session.rekey.tx := rfl
          have hcommit : ((v.emit (.rekey permit.nextGeneration) none).rekeyOutgoing.commitTx
              tx').session.rekey.tx = tx' := rfl
          simp only [commitOutgoingRekey, exec_bind, exec_modify, exec_get, htx, hvalid, hafter,
            hreceive, hcommit, rekeying, Except.mapError, Program.exec_ofExcept]
          cases hnext : tx'.beforeSendNonMarker with
          | error e =>
            exact ⟨haligned, fun _ _ => .inl (hv.position.threshold ▸ one_of_due hreceive hnext)⟩
          | ok next => exact ⟨haligned, hnext⟩

/-- Sending a payload keeps step. -/
theorem ends_sendDataInner (payload : List UInt8) :
    Ends (Started T g) (sendDataInner payload budget a) (fun _ => Aligned T)
      fun e w => Aligned T w ∧ Roomy T g a e := by
  refine .bind (ends_permitNonMarker budget a) fun permit => ?_
  refine .bind (Q := fun _ => Written T permit (.data payload)) ?_
    fun _ => (ends_commitNonMarker rfl).weakenError fun _ _ h => h.elim
  refine ends_underGuard (M := Permitted T permit) (Q := fun _ => Written T permit (.data payload))
    (E := fun e w => Permitted T permit w ∧ Roomy T g a e) (fun _ _ h => h.note _)
    (.ofExcept_bind (fun now _ => .get_bind fun w hw => ?_) ?_) (fun _ _ h => h.note _)
    (fun _ _ h => ⟨h.1.1.note _, h.2⟩) fun _ h => ⟨h.1, by rintro _ ⟨⟩⟩
  · refine .require_bind (fun _ => ?_) fun _ h => ⟨h ▸ hw, by rintro _ ⟨⟩⟩
    refine .require_bind (fun _ => ?_) fun _ h => ⟨h ▸ hw, by rintro _ ⟨⟩⟩
    refine .ofExcept_bind (fun _ _ => ?_) fun e he _ h => ⟨h ▸ hw, ?_⟩
    · exact (ends_writeRecord (fun _ h => h.note _) a.written).mono (fun _ h => h ▸ hw)
        (fun _ _ h => ⟨some now, h⟩) fun _ _ h => ⟨h.1, fun _ _ => .inr (.inr (.inr h.2))⟩
    · rintro r rfl
      unfold checkOpaqueBodyLen at he
      split at he <;> cases he
  · intro e he w h
    refine ⟨h, ?_⟩
    rintro r rfl
    cases hclock : a.clock <;> rw [hclock] at he <;> cases he

variable {rx : DirectionalRekeyState}

theorem Aligned.of_rx (h : Aligned T w) : Aligned T (w.setRx rx) :=
  ⟨⟨h.position, h.key, h.committed, h.sent⟩, h.aligned⟩

/-- Receiving does not touch the outgoing direction. -/
theorem keeps_receiveDataInner (bufferLen budget : ℕ) (answers : List ReadAnswers) :
    Keeps (Aligned T) (receiveDataInner bufferLen budget answers) := by
  refine meets_receiveDataInner (I := Aligned T) (Q := fun _ => Aligned T) (fun _ h => h.note _)
    (fun _ _ h => h.of_rx)
    (fun _ h => ⟨⟨h.position, h.key, h.committed, h.sent⟩, h.aligned⟩) (fun _ h => h)
    fun a _ payload _ => ?_
  refine ends_underGuard (M := Aligned T) (Q := fun _ => Aligned T) (E := fun _ => Aligned T)
    (fun _ _ h => h.note _) ?_ (fun _ _ h => h.note _) (fun _ _ h => h.note _) fun _ h => h
  exact (Keeps.ofExcept _).bind fun now => .get_bind fun _ _ => .require_bind fun _ =>
    .require_bind fun _ => (Keeps.update fun _ h => h.note _).bind fun _ => .pure _

/-- A notice that may not have been written is counted by a closed session only. -/
theorem Aligned.quietly (h : Aligned T w) (hclosed : w.session.closed = true)
    (hreceive : w.session.rekey.tx.onReceive .nonMarker = .ok tx') : Settled T (w.commitTx tx') := by
  have hposition := h.position.advance hreceive
  have hcommitted := committed_snoc h.toFollowing hposition
  have hdue := mt h.position.due_iff.mpr (onReceive_nonMarker_eq_ok.mp hreceive).1
  refine ⟨⟨?_, ?_, hcommitted, h.sent⟩, .inr ⟨hclosed, ?_⟩⟩
  · simpa [commitTx, setTx] using hposition
  · have hkey := h.key
    rw [← succ_div_of_not_due hdue] at hkey
    simpa [commitTx, setTx] using hkey
  · simp [commitTx, setTx, h.aligned]

/-- A closing call on an open session in step leaves it settled. -/
theorem ends_closeGracefully :
    Ends (fun w => Settled T w ∧ w.session.rekey.tx.generation = g) (closeGracefully budget a)
      (fun _ => Settled T) fun e w => Settled T w ∧ Roomy T g a e := by
  refine .get_bind fun w ⟨hw, hg⟩ => ?_
  split
  · exact .pure fun _ h => h ▸ hw
  · rename_i hopen
    have haligned := hw.aligned_of_open (Bool.eq_false_of_not_eq_true hopen)
    refine .update_bind (M := Started T g) (fun _ h => h ▸ ⟨haligned.close, hg⟩) ?_
    refine .bind ((ends_permitNonMarker budget a).weakenError fun _ _ h => ⟨h.1.settled, h.2⟩)
      fun permit => ?_
    refine .require_bind (fun _ => ?_) fun _ h => ⟨h.1.settled, by rintro _ ⟨⟩⟩
    refine .bind ((ends_writeRecord (fun _ h => h.note _) a.written).weakenError
      fun _ _ h => ⟨h.1.1.settled, fun _ _ => .inr (.inr (.inr h.2))⟩) fun _ => ?_
    exact (ends_commitNonMarker rfl).mono (fun _ h => ⟨none, h⟩) (fun _ _ h => h.settled)
      fun _ _ h => h.elim

/-- A notice leaves the session settled. -/
theorem meets_notifyRevokedAndClose (budget : ℕ) (a : SendAnswers) :
    Meets (Settled T) (notifyRevokedAndClose budget a) (fun _ => Settled T) (Settled T) := by
  intro w hw
  rw [notifyRevokedAndClose, exec_bind, exec_get]
  cases hclosed : w.session.closed with
  | true =>
    simp only [hclosed, if_true]
    exact hw
  | false =>
    have haligned := hw.aligned_of_open hclosed
    simp only [hclosed, Bool.false_eq_true, if_false, exec_bind, exec_modify]
    cases hpermit : w.session.rekey.tx.beforeSendNonMarker with
    | error e => exact haligned.close.settled
    | ok permit =>
      obtain ⟨tx', hreceive⟩ := haligned.position.permitted hpermit
      have hafter := (afterSendNonMarker_eq hpermit).trans hreceive
      have hquietly : ∀ v : SessionWorld, v.session.rekey.tx = w.session.rekey.tx →
          (commitNonMarkerQuietly permit).exec v = (.ok (), v.commitTx tx') := by
        intro v hv
        simp only [commitNonMarkerQuietly, exec_bind, exec_get, hv, hafter]
        rfl
      by_cases hbudget : budget = 0
      · simp only [hbudget, if_true]
        exact haligned.close.settled
      · simp only [hbudget, if_false]
        refine Ends.attempt_bind (ends_writeRecord (P := fun v => Aligned T v ∧
          v.session = w.close.session) (fun _ h => ⟨h.1.note _, h.2⟩) a.written) (fun _ => ?_)
          (fun e => ?_) w.close ⟨haligned.close, rfl⟩
        · rintro _ ⟨v, ⟨hv, hsession⟩, rfl⟩
          simp only [hquietly (v.emit _ _) (congrArg (·.rekey.tx) hsession)]
          exact (hv.nonMarker rfl (hsession ▸ hreceive)).settled
        · cases e with
          | noise e => exact .pure fun _ h => h.1.1.settled
          | _ =>
            rintro v ⟨⟨hv, hsession⟩, _⟩
            simp only [hquietly v (congrArg (·.rekey.tx) hsession)]
            exact hv.quietly (hsession ▸ rfl) (hsession ▸ hreceive)

/-- A call that a closed session refuses, and whose failure closes the session. -/
theorem ends_closing {α : Type} {x : SessionProgram α} {B : PostActiveError → Prop}
    (hB : B .closed)
    (hx : Ends (Started T g) x (fun _ => Aligned T) fun e w => Aligned T w ∧ B e) :
    Ends (fun w => Settled T w ∧ w.session.rekey.tx.generation = g) (do
      let w ← get
      require (w.session.closed = false) .closed
      x.onError (·.close)) (fun _ => Settled T) fun e w => Settled T w ∧ B e := by
  refine .get_bind fun w ⟨hw, hg⟩ => ?_
  refine .require_bind (fun hopen => ?_) fun _ h => ⟨h ▸ hw, hB⟩
  have haligned := hw.aligned_of_open hopen
  exact .mono (.onError hx) (fun _ h => h ▸ ⟨haligned, hg⟩) (fun _ _ h => h.settled)
    fun _ _ ⟨_, h, ht⟩ => ht ▸ ⟨h.1.close.settled, h.2⟩

/-- Every call on a session leaves it settled. -/
theorem Settled.exec (h : Settled T w) (op : SessionOp) : Settled T (SessionOp.exec w op) := by
  have hexec {α : Type} {x : SessionProgram α} {B : PostActiveError → Prop}
      (hx : Ends (fun v => Settled T v ∧ v.session.rekey.tx.generation =
        w.session.rekey.tx.generation) x (fun _ => Settled T) fun e v => Settled T v ∧ B e) :
      Settled T (x.exec w).2 :=
    (hx.weakenError fun _ _ h => h.1).exec ⟨h, rfl⟩
  cases op with
  | sendData payload budget a =>
    exact hexec (ends_closing (by rintro _ ⟨⟩) (ends_sendDataInner budget a payload))
  | receiveData bufferLen budget answers =>
    have hreceive := keeps_receiveDataInner (T := T) bufferLen budget answers
    exact hexec (ends_closing trivial
      (Ends.mono hreceive (fun _ h => h.1) (fun _ _ h => h) fun _ _ h => ⟨h, trivial⟩))
  | closeGracefully budget a => exact hexec (ends_closeGracefully budget a)
  | notifyRevokedAndClose budget a => exact Keeps.exec (meets_notifyRevokedAndClose budget a) h

/-- A session that has sent nothing yet is settled. -/
theorem settled_init {session : ActiveMeshSession} (htx : AtPosition T 0 session.rekey.tx)
    (hkey : session.transport.outgoing = 0) : Settled T (.init session) where
  position := htx
  key := by simp [init, hkey]
  committed := by simp [init]
  sent := by simp [init]
  settled := .inl rfl

/-- A receiver at the start accepts what was sent, up to any record. -/
theorem Following.received (h : Following T w) (hrx : AtPosition T 0 rx) (n : ℕ) :
    ∃ rx', rx.receiveAll ((w.sent.take n).map (·.record.incoming)) = .ok rx' ∧
      AtPosition T (min n w.sent.length) rx' := by
  induction n with
  | zero => exact ⟨rx, rfl, by simpa using hrx⟩
  | succ n ih =>
    obtain ⟨mid, hmid, hposition⟩ := ih
    cases hx : w.sent[n]? with
    | none =>
      have hle := List.getElem?_eq_none_iff.mp hx
      rw [List.take_of_length_le (by omega)] at hmid ⊢
      rw [Nat.min_eq_right hle] at hposition
      exact ⟨mid, hmid, by rwa [Nat.min_eq_right (by omega)]⟩
    | some x =>
      have hlt := (List.getElem?_eq_some_iff.mp hx).1
      rw [Nat.min_eq_left hlt.le] at hposition
      obtain ⟨hrecord, hle, _⟩ := h.sent n x hx
      obtain ⟨rx', hreceive⟩ := hposition.onReceive_iff.mpr ⟨hrecord, hle⟩
      refine ⟨rx', ?_, ?_⟩
      · rw [List.take_add_one, hx, List.map_append, receiveAll_append, hmid]
        simp [Except.bind, receiveAll, hreceive, bind]
      · rw [Nat.min_eq_left hlt]
        exact hposition.advance hreceive

/-- The receiver follows every sender, and it follows nothing but the schedule. -/
theorem rekey_lockstep {session : ActiveMeshSession} {rx : DirectionalRekeyState}
    {txId rxId : Option RekeyStateId}
    (htx : DirectionalRekeyState.new T txId = .ok session.rekey.tx)
    (hkey : session.transport.outgoing = 0) (hrx : DirectionalRekeyState.new T rxId = .ok rx)
    (ops : List SessionOp) (hw : (SessionWorld.init session).runOps ops = w) :
    (∀ i x, w.sent[i]? = some x → ∃ before after c,
      rx.receiveAll ((w.sent.take i).map (·.record.incoming)) = .ok before ∧
      before.onReceive x.record.incoming = .ok after ∧ x.key = before.generation.toNat ∧
      w.commits[i]? = some c ∧ (after.generation, after.policyCount) = c) ∧
    ∀ records, rx.Accepts records →
      (∀ i g, records[i]? = some (.marker g) ↔ i < records.length ∧
        (i + 1) % T.value.toNat = 0 ∧ g.toNat = (i + 1) / T.value.toNat) ∧
      (∀ before g after, records = before ++ .marker g :: after → after ≠ [] →
        ¬ rx.Accepts (before ++ after)) ∧
      (∀ before g after, records = before ++ after → (after ≠ [] ∨ .marker g ∈ before) →
        ¬ rx.Accepts (before ++ .marker g :: after)) ∧
      ∀ others, others.Perm records → others ≠ records → ¬ rx.Accepts others := by
  have hposition := atPosition_new hrx
  have hsettled : Settled T w := hw ▸ runOps_invariant
    (settled_init (atPosition_new htx) hkey) (fun _ op h => h.exec op) ops
  refine ⟨fun i x hx => ?_, fun records hrecords => ⟨fun i g => hposition.marker_iff hrecords,
    ?_, ?_, ?_⟩⟩
  · have hlt := (List.getElem?_eq_some_iff.mp hx).1
    obtain ⟨hrecord, hle, hkeys⟩ := hsettled.sent i x hx
    obtain ⟨before, hbefore, hat⟩ := hsettled.toFollowing.received hposition i
    rw [Nat.min_eq_left hlt.le] at hat
    obtain ⟨after, hafter⟩ := hat.onReceive_iff.mpr ⟨hrecord, hle⟩
    have hcommit : i < w.commits.length := by
      rcases hsettled.settled with h | ⟨_, h⟩ <;> omega
    have hnext := hat.advance hafter
    obtain ⟨hg, hc⟩ := hsettled.committed i _ (List.getElem?_eq_getElem hcommit)
    exact ⟨before, after, _, hbefore, hafter, hkeys.trans hat.generation.symm,
      List.getElem?_eq_getElem hcommit, Prod.ext (UInt64.toNat_inj.mp (hnext.generation.trans hg.symm))
        (UInt64.toNat_inj.mp (hnext.policyCount.trans hc.symm))⟩
  · rintro before g after rfl hne hdropped
    exact hne (hposition.accepts_marker hrecords hdropped).1
  · rintro before g after rfl hne hinserted
    obtain ⟨hlast, hnew⟩ := hposition.accepts_marker hinserted hrecords
    exact hne.elim (· hlast) hnew
  · intro others hperm hne hothers
    exact hne (hposition.accepts_unique hothers hrecords hperm.length_eq)

theorem threshold_ne_zero : (3 : UInt64) ≠ 0 := by decide

/-- A threshold of three. -/
def smallThreshold : RekeyThreshold := ⟨⟨3, threshold_ne_zero⟩⟩

/-- A fresh direction under the small threshold. -/
def smallDirection (n : UInt8) : DirectionalRekeyState :=
  ⟨Vector.replicate 32 n, 0, 0, smallThreshold⟩

/-- A fresh session that expires at time ten. -/
def smallSession : ActiveMeshSession where
  transport := ⟨0, 0⟩
  rekey := ⟨smallDirection 1, smallDirection 2⟩
  peerHhId := "h"
  peerMId := "p"
  peerCertFingerprint := []
  ingressEvidence := ⟨0, 10⟩
  hFinal := []
  expiresAt := 10
  closed := false

/-- Every answer lets the call go on. -/
def SendAnswers.clean : SendAnswers := ⟨.ok (), true, .ok 5, .ok ()⟩

/-- Two payloads and a close, which needs a marker before it. -/
def threeRecords : List SessionOp :=
  [.sendData [1] 1 .clean, .sendData [2] 1 .clean, .closeGracefully 1 .clean]

theorem rekey_lockstep_threeRecords :
    ((SessionWorld.init smallSession).runOps threeRecords).sent.map Emission.record =
        [.data [1], .data [2], .rekey 1, .close] ∧
      (smallDirection 3).Accepts [.nonMarker, .nonMarker, .marker 1, .nonMarker] ∧
      ¬ (smallDirection 3).Accepts [.nonMarker, .nonMarker, .nonMarker] := by
  have hlockstep := @rekey_lockstep smallThreshold _ smallSession (smallDirection 3)
    (some (Vector.replicate 32 1)) (some (Vector.replicate 32 3)) rfl rfl rfl threeRecords rfl
  have haccepts : (smallDirection 3).Accepts [.nonMarker, .nonMarker, .marker 1, .nonMarker] :=
    ⟨_, rfl⟩
  refine ⟨by decide, haccepts, ?_⟩
  exact (hlockstep.2 _ haccepts).2.1 [.nonMarker, .nonMarker] 1 [.nonMarker] rfl (by simp)

/-- The last marker of a sequence can be dropped. -/
theorem last_marker_droppable :
    (smallDirection 3).Accepts ([.nonMarker, .nonMarker] ++ [.marker 1]) ∧
      (smallDirection 3).Accepts [.nonMarker, .nonMarker] :=
  ⟨⟨_, rfl⟩, ⟨_, rfl⟩⟩

/-- Under every threshold but one, a session is not stuck before its last generation: the marker
that is due can be sent, a record may follow it, and neither sending nor closing fails for a reason
of the counters. -/
theorem sending_progresses {n : UInt64} (hT : RekeyThreshold.new n = .ok T) (hn : n ≠ 1) :
    (∀ s : DirectionalRekeyState, s.threshold = T → s.generation ≠ maxU64 →
      s.beforeSendNonMarker = .error .expectedRekeyMarker → ∃ marker s' permit,
        s.beforeSendMarker = .ok marker ∧ s.afterSendMarker marker = .ok s' ∧
        s'.beforeSendNonMarker = .ok permit) ∧
    ∀ session txId ops, DirectionalRekeyState.new T txId = .ok session.rekey.tx →
      session.transport.outgoing = 0 → (init session).runOps ops = w →
      w.session.rekey.tx.generation ≠ maxU64 → ∀ budget (a : SendAnswers) r,
      a.marker ≠ .error (.rekey r) → a.written ≠ .error (.rekey r) →
        (∀ payload, ((sendData payload budget a).exec w).1 ≠ .error (.rekey r)) ∧
        ((closeGracefully budget a).exec w).1 ≠ .error (.rekey r) := by
  have hone : T.value.get ≠ 1 := by
    simp only [RekeyThreshold.new, okOr_eq_ok, NonZeroU64.new] at hT
    split at hT <;> cases hT
    exact hn
  constructor
  · intro s hs hlast hdue
    cases hmarker : s.beforeSendMarker with
    | error e =>
      exact absurd (last_of_beforeSendMarker (beforeSendNonMarker_eq_error.mp hdue).2 hmarker) hlast
    | ok marker =>
      obtain ⟨hafter, _, s', hreceive⟩ := afterSendMarker_eq hmarker
      cases hpermit : s'.beforeSendNonMarker with
      | error e => exact absurd (hs ▸ one_of_due hreceive hpermit) hone
      | ok permit => exact ⟨marker, s', permit, rfl, hafter.trans hreceive, hpermit⟩
  · rintro session txId ops htx hkey rfl hlast budget a r hmarker hwritten
    have hsettled : Settled T ((init session).runOps ops) := runOps_invariant
      (settled_init (atPosition_new htx) hkey) (fun _ op h => h.exec op) ops
    have hroomy : ¬ Roomy T ((init session).runOps ops).session.rekey.tx.generation a
        (.rekey r) := by
      intro h
      rcases h r rfl with h | h | h | h <;> contradiction
    constructor
    · intro payload he
      refine hroomy (Ends.error (ends_closing (by rintro _ ⟨⟩) ?_) ⟨hsettled, rfl⟩ he).2
      exact ends_sendDataInner budget a payload
    · intro he
      exact hroomy ((ends_closeGracefully budget a).error ⟨hsettled, rfl⟩ he).2

theorem sending_progresses_threeRecords :
    let w := (init smallSession).runOps (threeRecords.take 2)
    w.session.rekey.tx.beforeSendNonMarker = .error .expectedRekeyMarker ∧
      ((sendData [3] 1 .clean).exec w).1 ≠ .error (.rekey .expectedRekeyMarker) :=
  ⟨by decide, ((sending_progresses (T := smallThreshold) (n := 3) rfl (by decide)).2 smallSession
    (some (Vector.replicate 32 1)) _ rfl rfl rfl (by decide) 1 .clean _ nofun nofun).1 [3]⟩

/-- A fresh session under a threshold of one. -/
def unitSession : ActiveMeshSession :=
  { smallSession with rekey := ⟨⟨Vector.replicate 32 1, 0, 0, ⟨.one⟩⟩, smallDirection 2⟩ }

/-- A threshold of one is accepted, and no payload can be sent under it. -/
theorem sendData_stuck_of_one : RekeyThreshold.new 1 = .ok ⟨.one⟩ ∧
    ((sendData [3] 1 .clean).exec (init unitSession)).1 =
      .error (.rekey .expectedRekeyMarker) ∧
    ((init unitSession).runOps [.sendData [3] 1 .clean]).sent.map Emission.record = [.rekey 1] := by
  decide

end Theyos.MeshSession
