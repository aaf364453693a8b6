import Theyos.Models.OwnerEvents.Log

/-!
# What a call leaves in the log

A loss of power leaves one of the contents that a file may have. Repairs add none to the
events of these, an append adds at most the new event behind those that were seen, and a
call that succeeds leaves nothing but what it saw and what it returned.
-/

namespace Theyos.OwnerEvents

open Machine RecordReader TornFile

variable {codec : EventCodec}

/-- The events that are seen in the log. -/
def seenEvents (codec : EventCodec) (f : LogFile) : List OwnerEvent :=
  storedEvents codec f.visible

/-- The cursor of the last event. -/
def lastCursor (events : List OwnerEvent) : UInt64 := events.getLast?.elim 0 (·.cursor)

/-- Whatever a loss of power leaves of the second file, it may leave of the first. -/
def NoNews (codec : EventCodec) (f f' : LogFile) : Prop :=
  ∀ left ∈ f'.survivors, ∃ left' ∈ f.survivors, storedEvents codec left = storedEvents codec left'

variable (f : LogFile)

theorem NoNews.refl : NoNews codec f f := fun left hleft => ⟨left, hleft, rfl⟩

theorem NoNews.sync : NoNews codec f f.sync := fun _ hleft =>
  ⟨f.visible, f.visible_mem_survivors, by rw [mem_survivors_sync.mp hleft]⟩

theorem NoNews.lose (i : ℕ) : NoNews codec f (f.lose i) := fun left hleft =>
  ⟨left, mem_survivors_lose hleft, rfl⟩

/-- Cutting off a torn end takes no event away. -/
theorem NoNews.truncate :
    NoNews codec f (f.truncate (storedLength codec f.visible)) := by
  intro left hleft
  rcases mem_survivors_truncate hleft with hold | rfl
  · exact ⟨left, hold, rfl⟩
  · exact ⟨f.visible, f.visible_mem_survivors, (take_validLen f.visible).1⟩

/-- An event that satisfies a condition may have been added behind those that were seen. -/
def MayAdd (codec : EventCodec) (P : OwnerEvent → Prop) (f f' : LogFile) : Prop :=
  ∀ left ∈ f'.survivors,
    (∃ left' ∈ f.survivors, storedEvents codec left = storedEvents codec left') ∨
      ∃ event, P event ∧ storedEvents codec left = seenEvents codec f ++ [event]

/-- Nothing but these events is left, whatever is lost. -/
def Lasts (codec : EventCodec) (events : List OwnerEvent) (f : LogFile) : Prop :=
  ∀ left ∈ f.survivors, storedEvents codec left = events

theorem lasts_sync (f : LogFile) : Lasts codec (seenEvents codec f) f.sync := by
  intro left hleft
  rw [mem_survivors_sync.mp hleft]
  rfl

/-- A sync that fails changes nothing, and one that succeeds makes the log last. -/
theorem syncAll_ends (faults : SyncFaults) (f : LogFile) :
    Ends (· = f) (syncAll faults) (fun _ f' => f' = f.sync) (fun _ f' => f' = f) := by
  refine .require_bind (fun _ => .require_bind (fun _ => ?_) fun _ h => h) fun _ h => h
  rintro _ rfl
  rfl

theorem failWith_ends (error : Option EventError) (f : LogFile) :
    Ends (· = f) (failWith error) (fun _ f' => f' = f) (fun _ f' => f' = f) := by
  rintro _ rfl
  cases error <;> rfl

theorem readLogBytes_ends (fault : Option EventError) (f : LogFile) :
    Ends (· = f) (readLogBytes fault) (fun bytes f' => bytes = f.visible ∧ f' = f)
      (fun _ f' => f' = f) := by
  refine .bind (failWith_ends fault f) fun _ => .get_bind ?_
  rintro _ rfl
  refine .require_bind (fun _ => ?_) fun _ h => h
  rintro _ rfl
  exact ⟨rfl, rfl⟩

theorem setLen_ends (fate : SetLenFate) (n : ℕ) (f : LogFile) :
    Ends (· = f) (setLen fate n) (fun _ f' => f' = f.truncate n)
      (fun _ f' => f' = f ∨ f' = f.truncate n) := by
  rintro _ rfl
  rcases fate with _ | _ | _
  · rfl
  · exact .inl rfl
  · exact .inr rfl

/-- After a repair the log ends with a record, and no event is missing. -/
structure Repaired (codec : EventCodec) (f f' : LogFile) : Prop where
  noNews : NoNews codec f f'
  seen : seenEvents codec f' = seenEvents codec f
  clean : (recordReader codec).Clean f'.visible

theorem repaired_truncate (f : LogFile) :
    Repaired codec f (f.truncate (storedLength codec f.visible)).sync where
  noNews := fun left hleft => by
    obtain ⟨left', hleft', heq⟩ := @NoNews.sync codec _ left hleft
    obtain ⟨left'', hleft'', heq'⟩ := NoNews.truncate f left' hleft'
    exact ⟨left'', hleft'', heq.trans heq'⟩
  seen := by
    rw [seenEvents, visible_sync, visible_truncate]
    exact (take_validLen f.visible).1
  clean := by
    rw [visible_sync, visible_truncate]
    exact (take_validLen f.visible).2

theorem scanAndRepair_ends (faults : RepairFaults) (f : LogFile) :
    Ends (· = f) (scanAndRepair codec faults)
      (fun head f' => head = lastCursor (seenEvents codec f) ∧ Repaired codec f f')
      (fun _ f' => NoNews codec f f') := by
  refine .bind ((readLogBytes_ends faults.read f).weakenError ?_) fun bytes => .assume ?_
  · rintro _ _ rfl
    exact .refl _
  rintro rfl
  split
  · refine .bind ((failWith_ends faults.opened f).weakenError ?_) fun _ => ?_
    · rintro _ _ rfl
      exact .refl _
    refine .bind ((setLen_ends faults.setLen _ f).weakenError ?_)
      fun _ => .bind ((syncAll_ends faults.sync _).weakenError ?_)
        fun _ => .pure ?_
    · rintro _ _ (rfl | rfl)
      · exact .refl _
      · exact .truncate f
    · rintro _ _ rfl
      exact .truncate f
    · rintro _ rfl
      exact ⟨rfl, repaired_truncate f⟩
  · next hclean =>
    have hle : storedLength codec f.visible ≤ f.visible.length := validLen_le f.visible
    refine .pure fun f' hf' => ?_
    rw [hf']
    exact ⟨rfl, .refl f, rfl, Nat.le_antisymm hle (Nat.not_lt.mp hclean)⟩

/-- The event that an append adds to a log. -/
structure IsNext (events : List OwnerEvent) (request : AppendRequest) (event : OwnerEvent) :
    Prop where
  cursor : event.cursor.toNat = (lastCursor events).toNat + 1
  payload : event.payload = request.payload

variable {event : OwnerEvent} {payload : List UInt8}

/-- A record that is written behind a clean end adds its event, or nothing when it is cut. -/
theorem storedEvents_append {bytes : List UInt8} (hclean : (recordReader codec).Clean bytes)
    (h : IsRecord codec event payload) (k : ℕ) :
    storedEvents codec (bytes ++ (lengthPrefixed payload).take k) =
      if k < (lengthPrefixed payload).length then storedEvents codec bytes
      else storedEvents codec bytes ++ [event] := by
  simp only [storedEvents]
  rw [(hclean.append _).1]
  split
  · next hk =>
    have hcut : (recordReader codec).read ((lengthPrefixed payload).take k) = none := by
      exact readRecord_cut h.fits hk
    rw [records_of_none hcut, List.append_nil]
  · next hk =>
    have hread : (recordReader codec).read (lengthPrefixed payload) =
        some (event, (lengthPrefixed payload).length) := by
      rw [recordReader_read]
      exact readRecord_lengthPrefixed h
    rw [List.take_of_length_le (Nat.not_lt.mp hk), records_of_read hread,
      List.drop_length, records_of_none read_nil]

variable {P : OwnerEvent → Prop} {f f' : LogFile}

theorem MayAdd.of_eq (h : f' = f) : MayAdd codec P f f' :=
  fun left hleft => .inl ⟨left, h ▸ hleft, rfl⟩

theorem NoNews.mayAdd (h : NoNews codec f f') :
    MayAdd codec P f f' := fun left hleft => .inl (h left hleft)

/-- An append adds the event to what may be left, or nothing when it is cut. -/
theorem mayAdd_append (hclean : (recordReader codec).Clean f.visible)
    (h : IsRecord codec event payload) (n : ℕ) :
    MayAdd codec (· = event) f (f.append ((lengthPrefixed payload).take n)) := by
  intro left hleft
  rcases mem_survivors_append hleft with hold | ⟨k, rfl⟩
  · exact .inl ⟨left, hold, rfl⟩
  · rw [List.take_take, storedEvents_append hclean h]
    split
    · exact .inl ⟨f.visible, f.visible_mem_survivors, rfl⟩
    · exact .inr ⟨event, rfl, rfl⟩

theorem appendLengthPrefixedRecord_ends (faults : AppendFaults)
    (hclean : (recordReader codec).Clean f.visible) (h : IsRecord codec event payload) :
    Ends (· = f) (appendLengthPrefixedRecord faults payload)
      (fun _ f' => Lasts codec (seenEvents codec f ++ [event]) f')
      (fun _ f' => MayAdd codec (· = event) f f') := by
  have hwhole := mayAdd_append hclean h (lengthPrefixed payload).length
  have hseen := storedEvents_append hclean h (lengthPrefixed payload).length
  rw [List.take_length] at hwhole hseen
  rw [if_neg (Nat.lt_irrefl _)] at hseen
  refine .bind ((failWith_ends faults.opened f).weakenError fun _ _ => .of_eq) fun _ => ?_
  split
  · next n _ =>
    rintro _ rfl
    exact mayAdd_append hclean h n
  · refine .update_bind (M := (· = f.append (lengthPrefixed payload))) (fun _ h => h ▸ rfl)
      ((syncAll_ends faults.sync _).weaken ?_ ?_)
    · rintro _ _ rfl left hleft
      rw [mem_survivors_sync.mp hleft, visible_append]
      exact hseen
    · rintro _ _ rfl
      exact hwhole

theorem MayAdd.imp {Q : OwnerEvent → Prop} (h : MayAdd codec P f f')
    (hPQ : ∀ event, P event → Q event) : MayAdd codec Q f f' := by
  intro left hleft
  rcases h left hleft with hold | ⟨event, hP, heq⟩
  · exact .inl hold
  · exact .inr ⟨event, hPQ event hP, heq⟩

/-- What an append makes of a log that was repaired before. -/
theorem MayAdd.after {f'' : LogFile} (h : MayAdd codec P f' f'') (hrepaired : Repaired codec f f') :
    MayAdd codec P f f'' := by
  intro left hleft
  rcases h left hleft with ⟨left', hleft', heq⟩ | ⟨event, hP, heq⟩
  · obtain ⟨left'', hleft'', heq'⟩ := hrepaired.noNews left' hleft'
    exact .inl ⟨left'', hleft'', heq.trans heq'⟩
  · exact .inr ⟨event, hP, by rw [heq, hrepaired.seen]⟩

variable (env : Circumstances)

theorem appendNewLocked_ends {request : AppendRequest}
    (hclean : (recordReader codec).Clean f.visible)
    (hmatches : request.payload.matchesType request.eventType) :
    Ends (· = f) (appendNewLocked codec env (lastCursor (seenEvents codec f)) request)
      (fun event f' => IsNext (seenEvents codec f) request event ∧
        Lasts codec (seenEvents codec f ++ [event]) f')
      (fun _ f' => MayAdd codec (IsNext (seenEvents codec f) request) f f') := by
  refine .ofExcept_bind (fun cursor hcursor => ?_) fun _ _ _ => .of_eq
  refine .ofExcept_bind (fun ts _ => ?_) fun _ _ _ => .of_eq
  refine .ofExcept_bind (fun signature _ => ?_) fun _ _ _ => .of_eq
  refine .ofExcept_bind (fun eventBytes hencode => ?_) fun _ _ _ => .of_eq
  refine .require_bind (fun hmax => ?_) fun _ => .of_eq
  have hnext : IsNext (seenEvents codec f) request
      ⟨ownerEventVersion, cursor, ts, request.eventType, request.payload, request.issuerMId,
        signature⟩ := ⟨checkedAdd_eq_some.mp (okOr_eq_ok.mp hcursor), rfl⟩
  refine .bind ((appendLengthPrefixedRecord_ends env.append hclean
    ⟨mapError_eq_ok.mp hencode, hmax, hmatches⟩).weakenError fun _ _ h => h.imp ?_) fun _ => .pure ?_
  · rintro _ rfl
    exact hnext
  · exact fun _ h => ⟨hnext, h⟩

theorem append_ends (request : AppendRequest) (f : LogFile) :
    Ends (· = f) (append codec env request)
      (fun event f' => IsNext (seenEvents codec f) request event ∧
        Lasts codec (seenEvents codec f ++ [event]) f')
      (fun _ f' => MayAdd codec (IsNext (seenEvents codec f) request) f f') := by
  refine .require_bind (fun hmatches => ?_) fun _ => .of_eq
  refine .bind ((failWith_ends env.binding f).weakenError fun _ _ => .of_eq) fun _ => ?_
  refine .bind ((scanAndRepair_ends env.repair f).weakenError
    fun _ _ h => h.mayAdd) fun head => .assume ?_
  rintro rfl f' hrepaired
  suffices h : Ends (· = f') _ _ _ from h f' rfl
  rw [← hrepaired.seen]
  exact (appendNewLocked_ends env hrepaired.clean hmatches).weakenError
    fun _ _ h => h.after hrepaired

/-- Whether an event for a machine is among these. -/
def Joined (machine : String) (events : List OwnerEvent) : Prop :=
  ∃ event ∈ events, event.joinedMachine = some machine

/-- What a call that found the event of its machine, or appended it, leaves. -/
def Reconciled (codec : EventCodec) (request : AppendRequest) (machine : String) (f : LogFile)
    (event : OwnerEvent) (f' : LogFile) : Prop :=
  event ∈ seenEvents codec f ∧ Lasts codec (seenEvents codec f) f' ∨
    ¬ Joined machine (seenEvents codec f) ∧ IsNext (seenEvents codec f) request event ∧
      Lasts codec (seenEvents codec f ++ [event]) f'

theorem appendMachineJoinedExactlyOnce_ends (issuerMId : String)
    (payload : MachineJoinedPayload) (f : LogFile) :
    Ends (· = f) (appendMachineJoinedExactlyOnce codec env issuerMId payload)
      (Reconciled codec ⟨issuerMId, .machineJoined, .machineJoined payload⟩ payload.mId f)
      (fun _ f' => MayAdd codec (fun event => ¬ Joined payload.mId (seenEvents codec f) ∧
        IsNext (seenEvents codec f) ⟨issuerMId, .machineJoined, .machineJoined payload⟩ event)
        f f') := by
  refine .bind ((failWith_ends env.binding f).weakenError fun _ _ => .of_eq) fun _ => ?_
  refine .bind ((scanAndRepair_ends env.repair f).weakenError
    fun _ _ h => h.mayAdd) fun head => .assume ?_
  rintro rfl f' hrepaired
  suffices h : Ends (· = f') _ _ _ from h f' rfl
  have hsame : ∀ f'', f'' = f' → MayAdd codec (fun event =>
      ¬ Joined payload.mId (seenEvents codec f) ∧
        IsNext (seenEvents codec f) ⟨issuerMId, .machineJoined, .machineJoined payload⟩ event)
      f f'' := by
    rintro _ rfl
    exact hrepaired.noNews.mayAdd
  refine .bind ((readLogBytes_ends env.reread f').weakenError fun _ => hsame)
    fun bytes => .assume ?_
  rintro rfl
  refine .require_bind (fun _ => ?_) hsame
  split
  · next event hfind =>
    have hmem : event ∈ seenEvents codec f' := List.mem_of_find?_eq_some hfind
    rw [hrepaired.seen] at hmem
    refine .require_bind (fun _ => ?_) hsame
    refine .bind (.bind ((failWith_ends env.stabilize.opened f').weakenError fun _ => hsame)
      fun _ => (syncAll_ends env.stabilize.sync f').mono
        (fun _ h => h) (fun _ _ h => h) fun _ => hsame) fun _ => .pure ?_
    rintro _ rfl
    refine .inl ⟨hmem, ?_⟩
    rw [← hrepaired.seen]
    exact lasts_sync f'
  · next hfind =>
    have hnone : ¬ Joined payload.mId (seenEvents codec f) := by
      rintro ⟨event, hmem, hjoined⟩
      rw [← hrepaired.seen] at hmem
      exact List.find?_eq_none.mp hfind event hmem (decide_eq_true hjoined)
    rw [← hrepaired.seen] at hnone
    unfold Reconciled
    rw [← hrepaired.seen]
    exact (appendNewLocked_ends env hrepaired.clean rfl).weaken (fun _ _ h => .inr ⟨hnone, h⟩)
      fun _ _ h => (h.imp fun _ hnext => ⟨hnone, hnext⟩).after hrepaired

end Theyos.OwnerEvents
