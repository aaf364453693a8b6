import Theyos.Core.Machine.History
import Theyos.Models.OwnerEvents.Durability

/-!
# Cursors of the owner-event log

Processes append, read and repair, and power is lost. The events in the log are numbered without a
gap, one that was acknowledged is read ever after, and a machine joins once. A reader can also see
an event whose sync failed.
-/

namespace Theyos.OwnerEvents

open Machine

/-- What a process calls, or the loss of power. -/
inductive Op where
  | append (env : Circumstances) (request : AppendRequest)
  | appendMachineJoinedExactlyOnce (env : Circumstances) (issuerMId : String)
    (payload : MachineJoinedPayload)
  | readSince (env : Circumstances) (since : UInt64)
  | repair (env : Circumstances)
  /-- Power is lost; one of the contents that may be left is left. -/
  | lose (left : ℕ)

/-- What was returned. -/
inductive Entry where
  | appended (result : Except EventError OwnerEvent)
  | read (since : UInt64) (result : Except EventError (List OwnerEvent))
  | repaired (result : Except EventError UInt64)
  | lost

/-- The event that was appended or found. -/
def Entry.acknowledged : Entry → Option OwnerEvent
  | .appended (.ok event) => some event
  | _ => none

/-- The events that were handed out. -/
def Entry.returned : Entry → List OwnerEvent
  | .appended (.ok event) => [event]
  | .read _ (.ok events) => events
  | _ => []

/-- The log file, and what was returned. -/
structure World where
  file : LogFile
  log : List Entry

/-- Whether an event for a machine is appended without a look for another one. -/
def Op.PlainlyJoins (machine : String) : Op → Prop
  | .append _ request => ∃ payload, request.payload = .machineJoined payload ∧ payload.mId = machine
  | _ => False

section

variable (codec : EventCodec)

/-- What is returned with the outcome of a call, and the file after it. -/
def outcome {α : Type} (entry : Except EventError α → Entry)
    (result : Except EventError α × LogFile) : Entry × LogFile := (entry result.1, result.2)

/-- What happens next, and what is returned. -/
def perform (f : LogFile) : Op → Entry × LogFile
  | .append env request => outcome .appended ((append codec env request).exec f)
  | .appendMachineJoinedExactlyOnce env issuerMId payload =>
    outcome .appended ((appendMachineJoinedExactlyOnce codec env issuerMId payload).exec f)
  | .readSince env since => outcome (.read since) ((readSince codec env since).exec f)
  | .repair env => outcome .repaired ((repair codec env).exec f)
  | .lose left => (.lost, f.lose left)

/-- Record what happens next. -/
def World.step (w : World) (op : Op) : World :=
  let (entry, f) := perform codec w.file op
  ⟨f, w.log ++ [entry]⟩

/-- An empty log. -/
def World.start : World := ⟨.settled [], []⟩

/-- What happened. -/
def World.run (ops : List Op) : World := ops.foldl (World.step codec) .start

/-- No complete record can be lost. -/
def Settled (f : LogFile) : Prop :=
  ∀ left ∈ f.survivors, ∀ event ∈ seenEvents codec f, event ∈ storedEvents codec left

/-- Whenever the log is read no complete record can be lost. -/
def ReadsSettled : World → List Op → Prop
  | _, [] => True
  | w, op :: ops =>
    (match op with
      | .readSince _ _ => Settled codec w.file
      | _ => True) ∧ ReadsSettled (w.step codec op) ops

end

/-- The events are numbered from one without a gap. -/
def Numbered (events : List OwnerEvent) : Prop :=
  events.map (·.cursor.toNat) = List.range' 1 events.length

variable {codec : EventCodec}

variable {events : List OwnerEvent}

theorem Numbered.lastCursor (h : Numbered events) : (lastCursor events).toNat = events.length := by
  rcases List.eq_nil_or_concat events with rfl | ⟨before, event, rfl⟩
  · rfl
  · have hlast := congrArg List.getLast? h
    simp only [List.concat_eq_append, List.map_append, List.map_singleton, List.length_append,
      List.length_singleton, List.range'_concat, List.getLast?_append, List.getLast?_singleton,
      Option.some_or] at hlast
    simp only [List.concat_eq_append, OwnerEvents.lastCursor, List.getLast?_append,
      List.getLast?_singleton, Option.some_or, Option.elim_some, List.length_append,
      List.length_singleton]
    have := Option.some.inj hlast
    omega

variable {event : OwnerEvent}

theorem Numbered.concat (h : Numbered events)
    (hcursor : event.cursor.toNat = (OwnerEvents.lastCursor events).toNat + 1) :
    Numbered (events ++ [event]) := by
  rw [h.lastCursor] at hcursor
  unfold Numbered at h ⊢
  rw [List.map_append, h, List.length_append, List.length_singleton, List.range'_concat,
    List.map_singleton, hcursor]
  simp [Nat.add_comm]

/-- A cursor stands for one event. -/
theorem Numbered.unique (h : Numbered events) {e e' : OwnerEvent} (he : e ∈ events)
    (he' : e' ∈ events) (hcursor : e.cursor = e'.cursor) : e = e' := by
  have hnodup : (events.map (·.cursor.toNat)).Nodup := h ▸ List.nodup_range'
  exact List.inj_on_of_nodup_map hnodup he he' (congrArg UInt64.toNat hcursor)

/-- A property of the events, whatever is lost. -/
def Always (codec : EventCodec) (G : List OwnerEvent → Prop) (f : LogFile) : Prop :=
  ∀ left ∈ f.survivors, G (storedEvents codec left)

variable {f f' : LogFile}

theorem Always.seen {G : List OwnerEvent → Prop} (h : Always codec G f) :
    G (seenEvents codec f) := h f.visible f.visible_mem_survivors

theorem MayAdd.always {P : OwnerEvent → Prop} {G : List OwnerEvent → Prop}
    (h : MayAdd codec P f f') (hG : Always codec G f)
    (hadd : ∀ event, P event → G (seenEvents codec f) → G (seenEvents codec f ++ [event])) :
    Always codec G f' := by
  intro left hleft
  rcases h left hleft with ⟨left', hleft', heq⟩ | ⟨event, hP, heq⟩
  · rw [heq]
    exact hG left' hleft'
  · rw [heq]
    exact hadd event hP hG.seen

theorem Lasts.mayAdd {P : OwnerEvent → Prop} (h : Lasts codec (seenEvents codec f ++ [event]) f')
    (hP : P event) : MayAdd codec P f f' :=
  fun left hleft => .inr ⟨event, hP, h left hleft⟩

theorem Lasts.noNews (h : Lasts codec (seenEvents codec f) f') :
    NoNews codec f f' := fun left hleft => ⟨f.visible, f.visible_mem_survivors, h left hleft⟩

/-- The event that a step can add: it has the next cursor, and a machine does not join
twice unless it is joined plainly. -/
structure Addable (events : List OwnerEvent) (op : Op) (event : OwnerEvent) : Prop where
  cursor : event.cursor.toNat = (lastCursor events).toNat + 1
  joined : ∀ machine, event.joinedMachine = some machine →
    op.PlainlyJoins machine ∨ ¬ Joined machine events

theorem IsNext.addable_append {env : Circumstances} {request : AppendRequest}
    (h : IsNext events request event) :
    Addable events (.append env request) event := by
  refine ⟨h.cursor, fun machine hmachine => .inl ?_⟩
  unfold OwnerEvent.joinedMachine at hmachine
  split at hmachine
  · next payload hpayload =>
    exact ⟨payload, h.payload.symm.trans hpayload, Option.some.inj hmachine⟩
  · cases hmachine

theorem IsNext.addable_joined {env : Circumstances} {issuerMId : String}
    {payload : MachineJoinedPayload}
    (h : IsNext events ⟨issuerMId, .machineJoined, .machineJoined payload⟩ event)
    (hnone : ¬ Joined payload.mId events) :
    Addable events (.appendMachineJoinedExactlyOnce env issuerMId payload) event := by
  refine ⟨h.cursor, fun machine hmachine => .inr ?_⟩
  unfold OwnerEvent.joinedMachine at hmachine
  rw [h.payload] at hmachine
  exact Option.some.inj hmachine ▸ hnone

/-- What a step does to the log. -/
structure Stepped (codec : EventCodec) (op : Op) (f : LogFile) (entry : Entry) (f' : LogFile) :
    Prop where
  mayAdd : MayAdd codec (Addable (seenEvents codec f) op) f f'
  acknowledged : ∀ event, entry.acknowledged = some event →
    Always codec (event ∈ ·) f'
  read : ∀ since events, entry = .read since (.ok events) →
    f' = f ∧ events = (seenEvents codec f).filter (since < ·.cursor)

theorem readSince_ends (env : Circumstances) (since : UInt64) (f : LogFile) :
    Ends (· = f) (readSince codec env since)
      (fun events f' => f' = f ∧ events = (seenEvents codec f).filter (since < ·.cursor))
      (fun _ f' => f' = f) := by
  refine .bind (failWith_ends env.binding f) fun _ => .bind (readLogBytes_ends env.reread f)
    fun bytes => .assume ?_
  rintro rfl
  exact .pure fun _ h => ⟨h, rfl⟩

theorem repair_ends (env : Circumstances) (f : LogFile) :
    Ends (· = f) (repair codec env) (fun _ f' => NoNews codec f f')
      (fun _ f' => NoNews codec f f') := by
  refine .bind ((failWith_ends env.binding f).weakenError ?_) fun _ =>
    (scanAndRepair_ends env.repair f).weaken (fun _ _ h => h.2.noNews) fun _ _ h => h
  rintro _ _ rfl
  exact .refl _

theorem perform_stepped (f : LogFile) (op : Op) :
    Stepped codec op f (perform codec f op).1 (perform codec f op).2 := by
  cases op with
  | append env request =>
    have hends := @append_ends codec env request f f rfl
    simp only [perform]
    generalize (append codec env request).exec f = result at hends ⊢
    obtain ⟨e | event, f'⟩ := result
    · exact ⟨hends.imp fun _ h => h.addable_append, nofun,
        nofun⟩
    · refine ⟨hends.2.mayAdd hends.1.addable_append, ?_, nofun⟩
      rintro _ ⟨⟩ left hleft
      rw [hends.2 left hleft]
      simp
  | appendMachineJoinedExactlyOnce env issuerMId payload =>
    have hends := @appendMachineJoinedExactlyOnce_ends codec env issuerMId payload f f rfl
    simp only [perform]
    generalize (appendMachineJoinedExactlyOnce codec env issuerMId payload).exec f = result
      at hends ⊢
    obtain ⟨e | event, f'⟩ := result
    · exact ⟨hends.imp fun _ h => h.2.addable_joined h.1, nofun,
        nofun⟩
    · rcases hends with ⟨hmem, hlasts⟩ | ⟨hnone, hnext, hlasts⟩
      · refine ⟨hlasts.noNews.mayAdd, ?_, nofun⟩
        rintro _ ⟨⟩ left hleft
        rw [hlasts left hleft]
        exact hmem
      · refine ⟨hlasts.mayAdd (hnext.addable_joined hnone), ?_, nofun⟩
        rintro _ ⟨⟩ left hleft
        rw [hlasts left hleft]
        simp
  | readSince env since =>
    have hends := @readSince_ends codec env since f f rfl
    simp only [perform]
    generalize (readSince codec env since).exec f = result at hends ⊢
    obtain ⟨e | events, f'⟩ := result
    · obtain rfl := hends
      exact ⟨.of_eq rfl, nofun, nofun⟩
    · obtain ⟨rfl, rfl⟩ := hends
      refine ⟨.of_eq rfl, nofun, ?_⟩
      rintro _ _ ⟨⟩
      exact ⟨rfl, rfl⟩
  | repair env =>
    have hends := @repair_ends codec env f f rfl
    simp only [perform]
    generalize (repair codec env).exec f = result at hends ⊢
    obtain ⟨e | head, f'⟩ := result <;>
    exact ⟨hends.mayAdd, nofun, nofun⟩
  | lose left =>
    exact ⟨(NoNews.lose f left).mayAdd, nofun, nofun⟩

/-- Every event that was acknowledged is there, whatever is lost. -/
def Acknowledged (log : List Entry) (events : List OwnerEvent) : Prop :=
  ∀ entry ∈ log, ∀ event, entry.acknowledged = some event → event ∈ events

/-- A read has every event that was acknowledged before. -/
def ReadsAll (before : List Entry) (entry : Entry) : Prop :=
  ∀ since events, entry = .read since (.ok events) → ∀ earlier ∈ before, ∀ event,
    earlier.acknowledged = some event → since < event.cursor → event ∈ events

/-- What holds of the log at any time. -/
structure World.Sound (codec : EventCodec) (w : World) : Prop where
  numbered : Always codec Numbered w.file
  acknowledged : Always codec (Acknowledged w.log) w.file
  reads : Justified ReadsAll w.log

theorem World.Sound.step {w : World} (h : w.Sound codec) (op : Op) :
    (w.step codec op).Sound codec := by
  have hstepped := @perform_stepped codec w.file op
  refine ⟨?_, ?_, ?_⟩
  · exact hstepped.mayAdd.always h.numbered fun event hadd hnumbered => hnumbered.concat hadd.cursor
  · have hold : Always codec (Acknowledged w.log) (perform codec w.file op).2 :=
      hstepped.mayAdd.always h.acknowledged fun event _ hack entry hentry e he =>
        List.mem_append_left _ (hack entry hentry e he)
    intro left hleft entry hentry event hevent
    rcases List.mem_append.mp hentry with hentry | hentry
    · exact hold left hleft entry hentry event hevent
    · rw [List.mem_singleton.mp hentry] at hevent
      exact hstepped.acknowledged event hevent left hleft
  · refine Justified.snoc_iff.mpr ⟨h.reads, fun since events hread => ?_⟩
    obtain ⟨-, rfl⟩ := hstepped.read since events hread
    intro earlier hearlier event hevent hsince
    exact List.mem_filter.mpr
      ⟨h.acknowledged.seen earlier hearlier event hevent, decide_eq_true hsince⟩

theorem World.run_concat (ops : List Op) (op : Op) :
    World.run codec (ops ++ [op]) = (World.run codec ops).step codec op := by
  simp [World.run]

theorem World.run_sound (ops : List Op) : (World.run codec ops).Sound codec := by
  induction ops using List.reverseRecOn with
  | nil =>
    refine ⟨fun left hleft => ?_, fun left hleft entry hentry => (nomatch hentry), .nil⟩
    rw [TornFile.mem_survivors_settled.mp hleft]
    rfl
  | append_singleton ops op ih =>
    rw [World.run_concat]
    exact ih.step op

/-- A machine joins at most once unless it is joined plainly. -/
theorem World.run_joined {machine : String} {ops : List Op}
    (h : ∀ op ∈ ops, ¬ op.PlainlyJoins machine) :
    Always codec (fun events => (events.filter (·.joinedMachine = some machine)).length ≤ 1)
      (World.run codec ops).file := by
  induction ops using List.reverseRecOn with
  | nil =>
    intro left hleft
    rw [TornFile.mem_survivors_settled.mp hleft]
    exact Nat.zero_le 1
  | append_singleton ops op ih =>
    rw [World.run_concat]
    have hstepped := @perform_stepped codec (World.run codec ops).file op
    refine hstepped.mayAdd.always (ih fun op hop => h op (List.mem_append_left _ hop))
      fun event hadd hone => ?_
    rw [List.filter_append]
    by_cases hevent : event.joinedMachine = some machine
    · have hnone := (hadd.joined machine hevent).resolve_left (h op (by simp))
      have hempty : (seenEvents codec (World.run codec ops).file).filter
          (·.joinedMachine = some machine) = [] :=
        List.filter_eq_nil_iff.mpr fun e he hjoined => hnone ⟨e, he, of_decide_eq_true hjoined⟩
      rw [hempty]
      simp [hevent]
    · simpa [hevent] using hone

/-- Every event that was handed out is there, whatever is lost. -/
theorem returned_always {ops : List Op} {w : World} (hsettled : ReadsSettled codec w ops)
    (h : Always codec (fun events => ∀ event ∈ w.log.flatMap Entry.returned, event ∈ events)
      w.file) :
    Always codec (fun events => ∀ event ∈ (ops.foldl (World.step codec) w).log.flatMap
      Entry.returned, event ∈ events) (ops.foldl (World.step codec) w).file := by
  induction ops generalizing w with
  | nil => exact h
  | cons op ops ih =>
    refine ih hsettled.2 ?_
    have hstepped := @perform_stepped codec w.file op
    have hold := hstepped.mayAdd.always h fun event _ hall e he =>
      List.mem_append_left _ (hall e he)
    intro left hleft event hevent
    rw [World.step, List.flatMap_append, List.mem_append] at hevent
    rcases hevent with hevent | hevent
    · exact hold left hleft event hevent
    · rw [List.flatMap_singleton] at hevent
      cases hentry : (perform codec w.file op).1 with
      | appended result =>
        rw [hentry] at hevent
        cases result with
        | error e => cases hevent
        | ok e =>
          rw [List.mem_singleton.mp hevent]
          exact hstepped.acknowledged e (by rw [hentry]; rfl) left hleft
      | read since result =>
        rw [hentry] at hevent
        cases result with
        | error e => cases hevent
        | ok events =>
          obtain ⟨hsame, rfl⟩ := hstepped.read since events hentry
          have hseen := (List.mem_filter.mp hevent).1
          cases op with
          | readSince env since' => exact hsettled.1 left (hsame ▸ hleft) event hseen
          | _ => cases hentry
      | repaired result | lost =>
        rw [hentry] at hevent
        cases hevent

section

/-- A codec that encodes the events of a table by their positions. -/
def tableCodec (table : List OwnerEvent) : EventCodec where
  encode event :=
    match table.findIdx? (· = event) with
    | some i => if i < 256 then .ok [UInt8.ofNat i] else .error "too many events"
    | none => .error "unknown event"
  decode bytes :=
    match bytes with
    | [b] => table[b.toNat]?
    | _ => none
  decode_encode h := by
    split at h
    · next i hfind =>
      split at h
      · next hi =>
        cases h
        obtain ⟨hlt, heq, -⟩ := List.findIdx?_eq_some_iff_getElem.mp hfind
        dsimp only
        rw [UInt8.toNat_ofNat', Nat.mod_eq_of_lt hi, List.getElem?_eq_getElem hlt]
        exact congrArg some (of_decide_eq_true heq)
      · cases h
    · cases h

/-- A call that nothing goes wrong with. -/
def quiet : Circumstances where
  binding := none
  repair := ⟨none, none, .done, ⟨false, false⟩⟩
  reread := none
  now := some 100
  signature := .ok []
  append := ⟨none, none, ⟨false, false⟩⟩
  stabilize := ⟨none, ⟨false, false⟩⟩

/-- A call whose record is written and not synced. -/
def syncLost : Circumstances := { quiet with append := ⟨none, none, ⟨true, false⟩⟩ }

/-- A machine that joins. -/
def sampleJoin (machine : String) : MachineJoinedPayload := ⟨[], machine, "host", 100⟩

/-- The event that a machine joined. -/
def sampleEvent (cursor : UInt64) (machine : String) : OwnerEvent :=
  ⟨ownerEventVersion, cursor, 100, .machineJoined, .machineJoined (sampleJoin machine), "issuer",
    []⟩

/-- The events of the runs below. -/
def sampleCodec : EventCodec :=
  tableCodec [sampleEvent 1 "a", sampleEvent 1 "b", sampleEvent 2 "b"]

/-- An event is read before it is synced, and lost with the power. -/
def reusedCursor : List Op :=
  [.appendMachineJoinedExactlyOnce syncLost "issuer" (sampleJoin "a"), .readSince quiet 0, .lose 0,
    .appendMachineJoinedExactlyOnce quiet "issuer" (sampleJoin "b"), .readSince quiet 0]

/-- The append is repeated before the log is read. -/
def retriedAppend : List Op :=
  [.appendMachineJoinedExactlyOnce syncLost "issuer" (sampleJoin "a"),
    .appendMachineJoinedExactlyOnce quiet "issuer" (sampleJoin "a"), .lose 0,
    .appendMachineJoinedExactlyOnce quiet "issuer" (sampleJoin "b"), .readSince quiet 0]

instance (codec : EventCodec) (f : LogFile) : Decidable (Settled codec f) :=
  inferInstanceAs (Decidable (∀ left ∈ f.survivors, ∀ event ∈ seenEvents codec f,
    event ∈ storedEvents codec left))

instance decidableReadsSettled (codec : EventCodec) :
    (w : World) → (ops : List Op) → Decidable (ReadsSettled codec w ops)
  | _, [] => .isTrue trivial
  | w, op :: ops =>
    have := decidableReadsSettled codec (w.step codec op) ops
    match op with
    | .readSince _ _ => inferInstanceAs (Decidable (_ ∧ _))
    | .append _ _ | .appendMachineJoinedExactlyOnce _ _ _ | .repair _ | .lose _ =>
      inferInstanceAs (Decidable (True ∧ _))

end

/-- The events that were handed out. -/
def World.returned (w : World) : List OwnerEvent := w.log.flatMap Entry.returned

/-- The log keeps every acknowledged event, numbers its events without a gap, returns those
above a cursor, and lets a machine join once; where no complete record can be lost when
the log is read, a cursor never stands for two events. -/
theorem owner_event_log (codec : EventCodec) (ops : List Op) :
    (∀ before ack middle since events after event,
      (World.run codec ops).log = before ++ ack :: middle ++ .read since (.ok events) :: after →
      ack.acknowledged = some event → since < event.cursor → event ∈ events) ∧
    Numbered (seenEvents codec (World.run codec ops).file) ∧
    (∀ env since events, ((readSince codec env since).exec (World.run codec ops).file).1 =
        .ok events →
      events = (seenEvents codec (World.run codec ops).file).filter (since < ·.cursor)) ∧
    (∀ env issuerMId payload, Joined payload.mId (seenEvents codec (World.run codec ops).file) →
      NoNews codec (World.run codec ops).file
        ((appendMachineJoinedExactlyOnce codec env issuerMId payload).exec
          (World.run codec ops).file).2) ∧
    (∀ machine, (∀ op ∈ ops, ¬ op.PlainlyJoins machine) →
      ((seenEvents codec (World.run codec ops).file).filter
        (·.joinedMachine = some machine)).length ≤ 1) ∧
    (ReadsSettled codec .start ops → ∀ event ∈ (World.run codec ops).returned,
      ∀ event' ∈ (World.run codec ops).returned, event.cursor = event'.cursor →
        event = event') := by
  have hsound := @World.run_sound codec ops
  refine ⟨?_, hsound.numbered.seen, ?_, ?_, fun machine h => (World.run_joined h).seen, ?_⟩
  · intro before ack middle since events after event hlog hack hsince
    exact hsound.reads (before ++ ack :: middle) _ after hlog since events rfl ack (by simp) event
      hack hsince
  · intro env since events hexec
    have hends := @readSince_ends codec env since (World.run codec ops).file _ rfl
    generalize (readSince codec env since).exec (World.run codec ops).file = result at hends hexec
    obtain ⟨_ | _, f⟩ := result
    · cases hexec
    · cases hexec
      exact hends.2
  · intro env issuerMId payload hjoined
    have hends := @appendMachineJoinedExactlyOnce_ends codec env issuerMId payload
      (World.run codec ops).file _ rfl
    generalize (appendMachineJoinedExactlyOnce codec env issuerMId payload).exec
      (World.run codec ops).file = result at hends
    obtain ⟨_ | _, f⟩ := result
    · intro left hleft
      exact (hends left hleft).resolve_right fun ⟨_, hevent, _⟩ => hevent.1 hjoined
    · rcases hends with ⟨-, hlasts⟩ | ⟨hnone, -⟩
      · exact hlasts.noNews
      · exact absurd hjoined hnone
  · intro hsettled event hevent event' hevent' hcursor
    have hreturned := returned_always hsettled (nofun)
    exact hsound.numbered.seen.unique (hreturned.seen event hevent)
      (hreturned.seen event' hevent') hcursor

theorem owner_event_log_retried :
    ReadsSettled sampleCodec .start retriedAppend ∧
      (World.run sampleCodec retriedAppend).returned =
        [sampleEvent 1 "a", sampleEvent 2 "b", sampleEvent 1 "a", sampleEvent 2 "b"] ∧
      ∀ event ∈ (World.run sampleCodec retriedAppend).returned,
        ∀ event' ∈ (World.run sampleCodec retriedAppend).returned, event.cursor = event'.cursor →
          event = event' := by
  have hsettled : ReadsSettled sampleCodec .start retriedAppend := by decide +kernel
  exact ⟨hsettled, by decide +kernel,
    (owner_event_log sampleCodec retriedAppend).2.2.2.2.2 hsettled⟩

/-- A cursor that was read before its event was synced is given to another event. -/
theorem cursor_reassigned :
    (World.run sampleCodec reusedCursor).returned =
        [sampleEvent 1 "a", sampleEvent 1 "b", sampleEvent 1 "b"] ∧
      (sampleEvent 1 "a").cursor = (sampleEvent 1 "b").cursor ∧
      sampleEvent 1 "a" ≠ sampleEvent 1 "b" := by
  decide +kernel

end Theyos.OwnerEvents
