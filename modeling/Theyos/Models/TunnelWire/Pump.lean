import Theyos.Core.Cbor.Wire
import Theyos.Core.Machine.Dialogue
import Theyos.Models.TunnelWire.Frame

/-!
# Why the pump stops

The pump passes over both directions without blocking and waits when a pass moved nothing. Its
budgets count the passes without progress: in the middle of a relay frame against one bound,
between frames against another. The counters of the report are left out.
-/

namespace Theyos.TunnelWire

open Machine Dialogue

section

def maxFrameLen : ℕ := 64 * 1024

def nonblockingWriteQueueLimit : ℕ := 4 * (maxFrameLen + 4)

inductive ErrorKind where
  | wouldBlock
  | unexpectedEof
  | invalidData
  | writeZero
  | other (code : ℕ)
  deriving DecidableEq

/-- What the pump asks of the relay, of the interface and of the product's policy. -/
inductive PumpQuestion where
  | relayRead (len : ℕ)
  | relayWrite (buf : List UInt8)
  | writePacket (packet : List UInt8)
  | readPacket
  | frameFromInterface (packet : List UInt8)
  | packetFromRelay (frame : TunnelFrame)
  | pollTwo

abbrev PumpAnswer : PumpQuestion → Type
  | .relayRead len => Except ErrorKind {chunk : List UInt8 // chunk.length ≤ len}
  | .relayWrite buf => Except ErrorKind (Fin (buf.length + 1))
  | .writePacket _ => Except ErrorKind Bool
  | .readPacket => Except ErrorKind (Option (List UInt8))
  | .frameFromInterface _ => Option TunnelFrame
  | .packetFromRelay _ => Option (List UInt8)
  | .pollTwo => Except ErrorKind Unit

abbrev Pumping (ε α : Type) : Type := Dialogue PumpAnswer ε α

def request {ε : Type} (q : PumpQuestion) : Pumping ε (PumpAnswer q) := query q

/-- The part of the length prefix, or of a payload of the given length, that was read. -/
inductive ReadState where
  | len (buf : List UInt8)
  | payload (len : ℕ) (buf : List UInt8)
  deriving DecidableEq

def ReadState.isMidFrame : ReadState → Bool
  | .len buf => buf ≠ []
  | .payload _ _ => true

inductive FrameReadProgress where
  | frame (frame : TunnelFrame)
  | advanced
  | idle

def idleOrAdvanced (advanced : Bool) : FrameReadProgress := if advanced then .advanced else .idle

/-- Read a part of the missing bytes, or nothing when the relay would block. -/
def readPart (missing : ℕ) :
    Pumping ErrorKind (Option {chunk : List UInt8 // chunk ≠ [] ∧ chunk.length ≤ missing}) := do
  let chunk : PumpAnswer (.relayRead missing) ← request (.relayRead missing)
  match chunk with
  | .error .wouldBlock => return none
  | .error kind => fail kind
  | .ok ⟨chunk, h⟩ => if hne : chunk = [] then fail .unexpectedEof else return some ⟨chunk, hne, h⟩

/-- Read what is missing of a payload while the relay offers it. -/
def pollPayload (text : LossyText) (len : ℕ) (buf : List UInt8) (advanced : Bool) :
    Pumping ErrorKind (FrameReadProgress × ReadState) := do
  match ← readPart (len - buf.length) with
  | none => return (idleOrAdvanced advanced, .payload len buf)
  | some ⟨chunk, _⟩ =>
    if (buf ++ chunk).length = len then
      match TunnelFrame.decode text (buf ++ chunk) with
      | .ok frame => return (.frame frame, .len [])
      | .error _ => fail .invalidData
    else pollPayload text len (buf ++ chunk) true
termination_by len - buf.length
decreasing_by
  rename_i h _
  have hlen := List.length_pos_iff.mpr h.1
  rw [List.length_append]
  omega

/-- Read what is missing of a length prefix, and then the payload. -/
def pollLen (text : LossyText) (buf : List UInt8) (advanced : Bool) :
    Pumping ErrorKind (FrameReadProgress × ReadState) := do
  match ← readPart (4 - buf.length) with
  | none => return (idleOrAdvanced advanced, .len buf)
  | some ⟨chunk, _⟩ =>
    let len := beNat (buf ++ chunk)
    if (buf ++ chunk).length ≠ 4 then pollLen text (buf ++ chunk) true
    else if len = 0 ∨ maxFrameLen < len then fail .invalidData
    else pollPayload text len [] true
termination_by 4 - buf.length
decreasing_by
  rename_i h _
  have hlen := List.length_pos_iff.mpr h.1
  rw [List.length_append]
  omega

/-- Pull as much of one frame as the relay offers. -/
def pollRead (text : LossyText) : ReadState → Pumping ErrorKind (FrameReadProgress × ReadState)
  | .len buf => pollLen text buf false
  | .payload len buf => pollPayload text len buf false

/-- Write pending bytes while the relay takes them, and count them. -/
def pollFlush (pending : List UInt8) (bytes : ℕ) : Pumping ErrorKind (ℕ × List UInt8) :=
  if pending = [] then return (bytes, pending)
  else do
    let taken : PumpAnswer (.relayWrite pending) ← request (.relayWrite pending)
    match taken with
    | .error .wouldBlock => return (bytes, pending)
    | .error kind => fail kind
    | .ok ⟨0, _⟩ => fail .writeZero
    | .ok ⟨n + 1, _⟩ => pollFlush (pending.drop (n + 1)) (bytes + (n + 1))
termination_by pending.length
decreasing_by
  rw [List.length_drop]
  omega

/-- Queue a frame behind its length. -/
def enqueue (pending : List UInt8) (frame : TunnelFrame) : Except ErrorKind (List UInt8) := do
  let payload := frame.encode
  Machine.require (payload ≠ [] ∧ payload.length ≤ maxFrameLen) .invalidData
  Machine.require (pending.length + 4 + payload.length ≤ nonblockingWriteQueueLimit) (.other 0)
  return pending ++ beBytes 4 payload.length ++ payload

inductive PollablePumpDirection where
  | interfaceToRelay
  | relayToInterface
  deriving DecidableEq

inductive PollablePumpStopReason where
  | idleBudgetExhausted
  | stepBudgetExhausted
  | partialFrameStalled
  | ioError (direction : PollablePumpDirection) (kind : ErrorKind)
  deriving DecidableEq

/-- The relay's codec, and a packet that waits for the interface. -/
structure PollablePump where
  relayReader : ReadState := .len []
  relayWriter : List UInt8 := []
  pendingInterfaceWrite : Option (List UInt8) := none

/-- A part of a pass, which tells whether it made progress and what it leaves. -/
abbrev Passing (α : Type) : Type := Pumping (PollablePumpDirection × ErrorKind) α

/-- Flush queued frames to the relay. -/
def flushQueued (pending : List UInt8) : Passing (Bool × List UInt8) := do
  let (bytes, pending) ← (pollFlush pending 0).adapt (.interfaceToRelay, ·)
  return (0 < bytes, pending)

/-- Deliver the packet that waits for the interface. -/
def deliverPending : Option (List UInt8) → Passing (Bool × Option (List UInt8))
  | none => return (false, none)
  | some packet => do
    let written : PumpAnswer (.writePacket packet) ← request (.writePacket packet)
    match written with
    | .ok true => return (true, none)
    | .ok false => return (false, some packet)
    | .error kind => fail (.relayToInterface, kind)

/-- Queue one packet of the interface if the relay has room. -/
def takePacket (pending : List UInt8) : Passing (Bool × List UInt8) :=
  if pending.length + 4 + maxFrameLen ≤ nonblockingWriteQueueLimit then do
    let packet : PumpAnswer .readPacket ← request .readPacket
    match packet with
    | .ok none => return (false, pending)
    | .error kind => fail (.interfaceToRelay, kind)
    | .ok (some packet) =>
      let frame : PumpAnswer (.frameFromInterface packet) ← request (.frameFromInterface packet)
      match frame with
      | none => return (true, pending)
      | some frame => return (true, ← (lift (enqueue pending frame)).adapt (.interfaceToRelay, ·))
  else return (false, pending)

/-- Read from the relay if no packet waits. -/
def takeFrame (text : LossyText) (reader : ReadState) :
    Option (List UInt8) → Passing (Bool × ReadState × Option (List UInt8))
  | some packet => return (false, reader, some packet)
  | none => do
    let (progress, reader) ← (pollRead text reader).adapt (.relayToInterface, ·)
    match progress with
    | .idle => return (false, reader, none)
    | .advanced => return (true, reader, none)
    | .frame frame =>
      let packet : PumpAnswer (.packetFromRelay frame) ← request (.packetFromRelay frame)
      return (true, reader, packet)

/-- One pass over both directions. -/
def serviceOnce (text : LossyText) (pump : PollablePump) : Passing (Bool × PollablePump) := do
  let (flushed, relayWriter) ← flushQueued pump.relayWriter
  let (delivered, waiting) ← deliverPending pump.pendingInterfaceWrite
  let (taken, relayWriter) ← takePacket relayWriter
  let (read, relayReader, waiting) ← takeFrame text pump.relayReader waiting
  return (flushed || delivered || taken || read, ⟨relayReader, relayWriter, waiting⟩)

/-- Bounds that stop the pump; the constructor accepts none that is zero. -/
structure PollablePumpBudget where
  maxIdlePolls : ℕ
  maxPartialFramePolls : ℕ
  maxSteps : ℕ
  bounded : maxIdlePolls ≠ 0 ∧ maxPartialFramePolls ≠ 0 ∧ maxSteps ≠ 0

/-- How a run ended: the reason, the passes it made, and of those that did not fail, the latest
first, whether they made progress and where they left the reader. -/
structure PumpRun where
  reason : PollablePumpStopReason
  steps : ℕ
  passes : List (Bool × ReadState)
  deriving DecidableEq

/-- Pass until a budget or an error stops the pump. -/
def pumpLoop (text : LossyText) (budget : PollablePumpBudget) (idlePolls midFramePolls steps : ℕ)
    (passes : List (Bool × ReadState)) (pump : PollablePump) : Pumping Empty PumpRun :=
  if budget.maxSteps ≤ steps then return ⟨.stepBudgetExhausted, steps, passes⟩
  else do
    let passed ← (serviceOnce text pump).attempt
    match passed with
    | .error (direction, kind) => return ⟨.ioError direction kind, steps + 1, passes⟩
    | .ok (true, pump) =>
      let midFramePolls := if pump.relayReader.isMidFrame then midFramePolls else 0
      pumpLoop text budget 0 midFramePolls (steps + 1) ((true, pump.relayReader) :: passes) pump
    | .ok (false, pump) =>
      let passes := (false, pump.relayReader) :: passes
      let mid := pump.relayReader.isMidFrame
      let midFramePolls := if mid then midFramePolls + 1 else 0
      let idlePolls := if mid then idlePolls else idlePolls + 1
      if mid ∧ budget.maxPartialFramePolls ≤ midFramePolls then
        return ⟨.partialFrameStalled, steps + 1, passes⟩
      else if ¬ mid ∧ budget.maxIdlePolls ≤ idlePolls then
        return ⟨.idleBudgetExhausted, steps + 1, passes⟩
      else
        let ready : PumpAnswer .pollTwo ← request .pollTwo
        match ready with
        | .error kind => return ⟨.ioError .relayToInterface kind, steps + 1, passes⟩
        | .ok () => pumpLoop text budget idlePolls midFramePolls (steps + 1) passes pump
termination_by budget.maxSteps - steps

def runUntilStopped (text : LossyText) (budget : PollablePumpBudget) (pump : PollablePump) :
    Pumping Empty PumpRun :=
  pumpLoop text budget 0 0 0 [] pump

end

section

variable {text : LossyText} {w : Transcript PumpAnswer} {advanced : Bool} {state : ReadState}

theorem pollPayload_idle {len : ℕ} {buf : List UInt8}
    (h : Ran (pollPayload text len buf advanced) (.idle, state) w) :
    advanced = false ∧ state = .payload len buf := by
  induction hn : len - buf.length using Nat.strongRecOn generalizing buf advanced with
  | ind n ih =>
    rw [pollPayload] at h
    obtain ⟨_ | ⟨chunk, hne, hle⟩, _, h⟩ := h.bind
    · cases advanced <;> cases h.pure_eq
      exact ⟨rfl, rfl⟩
    · dsimp only at h
      split_ifs at h
      · split at h
        · cases h.pure_eq
        · exact h.not_fail.elim
      · have hpos := List.length_pos_iff.mpr hne
        exact absurd (ih _ (by rw [List.length_append]; omega) h rfl).1 (by simp)

theorem pollLen_idle {buf : List UInt8} (h : Ran (pollLen text buf advanced) (.idle, state) w) :
    advanced = false ∧ state = .len buf := by
  induction hn : 4 - buf.length using Nat.strongRecOn generalizing buf advanced with
  | ind n ih =>
    rw [pollLen] at h
    obtain ⟨_ | ⟨chunk, hne, hle⟩, _, h⟩ := h.bind
    · cases advanced <;> cases h.pure_eq
      exact ⟨rfl, rfl⟩
    · dsimp only at h
      split_ifs at h
      · have hpos := List.length_pos_iff.mpr hne
        exact absurd (ih _ (by rw [List.length_append]; omega) h rfl).1 (by simp)
      · exact h.not_fail.elim
      · exact absurd (pollPayload_idle h).1 (by simp)

/-- A reader that read nothing is where it was. -/
theorem pollRead_idle {reader : ReadState} (h : Ran (pollRead text reader) (.idle, state) w) :
    state = reader := by
  cases reader with
  | len buf => exact (pollLen_idle h).2
  | payload len buf => exact (pollPayload_idle h).2

theorem takeFrame_reader {reader : ReadState} {waiting packet : Option (List UInt8)}
    (h : Ran (takeFrame text reader waiting) (false, state, packet) w) : state = reader := by
  unfold takeFrame at h
  split at h
  · cases h.pure_eq
    rfl
  · obtain ⟨⟨progress, _⟩, hread, h⟩ := h.bind
    cases progress with
    | idle =>
      cases h.pure_eq
      exact pollRead_idle hread.adapt
    | advanced => cases h.pure_eq
    | frame frame =>
      obtain ⟨_, _, h⟩ := h.query_bind
      cases h.pure_eq

/-- A pass without progress leaves the reader where it was. -/
theorem serviceOnce_relayReader {pump after : PollablePump}
    (h : Ran (serviceOnce text pump) (false, after) w) :
    after.relayReader = pump.relayReader := by
  obtain ⟨_, _, h⟩ := h.bind
  obtain ⟨_, _, h⟩ := h.bind
  obtain ⟨_, _, h⟩ := h.bind
  obtain ⟨⟨read, _⟩, hframe, h⟩ := h.bind
  obtain ⟨hprogress, rfl⟩ := Prod.mk.inj h.pure_eq
  obtain rfl : read = false := by
    cases read
    · rfl
    · simp at hprogress
  exact takeFrame_reader hframe

end

/-- The passes since the reader was last between frames. -/
def current (passes : List (Bool × ReadState)) : List (Bool × ReadState) :=
  passes.takeWhile (·.2.isMidFrame)

/-- Inside the frame the reader is in, no pass made progress after one that made none. -/
def Steady (passes : List (Bool × ReadState)) : Prop :=
  (current passes).Pairwise fun later earlier => earlier.1 = false → later.1 = false

/-- What the reason of a stop says about the passes before it. -/
structure StopSound (budget : PollablePumpBudget) (run : PumpRun) : Prop where
  steps_le : run.steps ≤ budget.maxSteps
  idle : run.reason = .idleBudgetExhausted →
    ∃ reader, (false, reader) ∈ run.passes.head? ∧ reader.isMidFrame = false
  /-- The latest passes found no byte of the frame the reader is in. -/
  stalled : run.reason = .partialFrameStalled → ∃ reader, reader.isMidFrame = true ∧
    (Steady run.passes ↔
      List.replicate budget.maxPartialFramePolls (false, reader) <+: run.passes)

/-- The polls count the passes without progress inside the current frame, and no such pass moved
the reader. -/
structure Counted (polls : ℕ) (reader : ReadState) (passes : List (Bool × ReadState)) : Prop where
  count : (current passes).countP (!·.1) = polls
  stays : ((false, reader) :: passes).IsChain fun later earlier => later.1 = false →
    later.2 = earlier.2

section

variable {text : LossyText} {budget : PollablePumpBudget} {passes : List (Bool × ReadState)}
  {pump : PollablePump} {midFramePolls : ℕ} {reader : ReadState}

theorem Counted.progress {after : ReadState} (h : Counted midFramePolls reader passes) :
    Counted (if after.isMidFrame then midFramePolls else 0) after ((true, after) :: passes) := by
  refine ⟨?_, List.isChain_cons_cons.mpr ⟨fun _ => rfl, List.isChain_cons.mpr ⟨?_, h.stays.of_cons⟩⟩⟩
  · split_ifs with hmid
    · simpa [current, hmid] using h.count
    · simp [current, hmid]
  · simp

theorem Counted.idle (h : Counted midFramePolls reader passes) :
    Counted (if reader.isMidFrame then midFramePolls + 1 else 0) reader
      ((false, reader) :: passes) := by
  refine ⟨?_, List.isChain_cons_cons.mpr ⟨fun _ => rfl, h.stays⟩⟩
  split_ifs with hmid
  · simpa [current, hmid] using h.count
  · simp [current, hmid]

/-- The counted passes are the latest ones if none made progress after one of them. -/
theorem Counted.steady_iff (h : Counted midFramePolls reader passes) (hmid : reader.isMidFrame) :
    Steady passes ↔ List.replicate midFramePolls (false, reader) <+: passes := by
  induction passes generalizing midFramePolls with
  | nil =>
    obtain rfl : 0 = midFramePolls := h.count
    simp [Steady, current]
  | cons pass passes ih =>
    obtain ⟨progress, state⟩ := pass
    obtain rfl : reader = state := (List.isChain_cons_cons.mp h.stays).1 rfl
    have hcurrent : current ((progress, reader) :: passes) = (progress, reader) :: current passes :=
      List.takeWhile_cons_of_pos hmid
    have hcount := h.count
    rw [hcurrent] at hcount
    rw [Steady, hcurrent, List.pairwise_cons]
    cases progress with
    | false =>
      obtain rfl : _ + 1 = midFramePolls := by simpa using hcount
      rw [List.replicate_succ, List.cons_prefix_cons, ← ih ⟨rfl, h.stays.of_cons⟩]
      simp [Steady]
    | true =>
      cases midFramePolls with
      | zero =>
        have hnone : ∀ pass ∈ current passes, pass.1 ≠ false := by simpa using hcount
        exact iff_of_true ⟨fun _ hp h => absurd h (hnone _ hp), List.pairwise_of_forall_mem_list
          fun _ _ _ hb h => absurd h (hnone _ hb)⟩ List.nil_prefix
      | succ n =>
        have hpos : 0 < (current passes).countP (!·.1) := by
          rw [List.countP_cons_of_neg (by simp)] at hcount
          omega
        obtain ⟨pass, hmem, hidle⟩ := List.countP_pos_iff.mp hpos
        refine iff_of_false (fun hsteady => ?_) fun hprefix => ?_
        · exact absurd (hsteady.1 pass hmem (by simpa using hidle)) (by simp)
        · simpa using List.cons_prefix_cons.mp hprefix

theorem pumpLoop_stopSound {idlePolls steps : ℕ} {run : PumpRun} {w : Transcript PumpAnswer}
    (hpasses : Counted midFramePolls pump.relayReader passes)
    (hpolls : midFramePolls < budget.maxPartialFramePolls) (hsteps : steps ≤ budget.maxSteps)
    (h : Ran (pumpLoop text budget idlePolls midFramePolls steps passes pump) run w) :
    StopSound budget run := by
  induction hn : budget.maxSteps - steps using Nat.strongRecOn generalizing idlePolls midFramePolls
      steps passes pump with
  | ind n ih =>
    rw [pumpLoop] at h
    split_ifs at h with hmax
    · cases h.pure_eq
      exact ⟨hsteps, by simp, by simp⟩
    · have hbudget := budget.bounded.2.1
      obtain ⟨passed, ⟨v, hpass, hv⟩, h⟩ := h.bind
      obtain ⟨_, hpass, hpassed⟩ := yields_finish.mp hpass
      cases hpassed
      obtain _ | ⟨_ | _, after⟩ := passed
      · cases h.pure_eq
        exact ⟨by dsimp only; omega, by simp, by simp⟩
      · have hreader := serviceOnce_relayReader (hpass.ran hv)
        dsimp only at h
        rw [hreader] at h
        have hidle := hpasses.idle
        have hnext : (if pump.relayReader.isMidFrame then midFramePolls + 1 else 0) ≤
            if pump.relayReader.isMidFrame then budget.maxPartialFramePolls else 0 := by
          split_ifs <;> omega
        generalize (if pump.relayReader.isMidFrame then midFramePolls + 1 else 0) = polls at *
        generalize (if pump.relayReader.isMidFrame then idlePolls else idlePolls + 1) = idle at h
        split_ifs at h with hstalled hend
        · cases h.pure_eq
          rw [if_pos hstalled.1] at hnext
          refine ⟨by dsimp only; omega, by simp, fun _ => ⟨_, hstalled.1, ?_⟩⟩
          rw [← le_antisymm hnext hstalled.2]
          exact hidle.steady_iff hstalled.1
        · cases h.pure_eq
          refine ⟨by dsimp only; omega, fun _ => ⟨_, rfl, by simpa using hend.1⟩, by simp⟩
        · obtain ⟨_ | _, _, h⟩ := h.query_bind
          · cases h.pure_eq
            exact ⟨by dsimp only; omega, by simp, by simp⟩
          · refine ih _ ?_ (hreader ▸ hidle) ?_ ?_ h rfl
            · omega
            · split_ifs at hnext with hmid
              · exact lt_of_not_ge fun hle => hstalled ⟨hmid, hle⟩
              · omega
            · omega
      · refine ih _ ?_ hpasses.progress ?_ ?_ h rfl
        · omega
        · split_ifs <;> omega
        · omega

end

section

/-- A reading that gives up on bytes that are no text. -/
def plainText : LossyText where
  read bytes := (Cbor.readText bytes).getD ""
  read_textBytes s := by rw [Cbor.readText_textBytes, Option.getD_some]

/-- A relay that offers a byte at each of the given reads and blocks at the others. -/
def dripping (bytes : List ℕ) : Environment PumpAnswer
  | t, .relayRead len =>
    if h : 0 < len ∧ (t.countP fun e => e.1 matches .relayRead _) ∈ bytes then .ok ⟨[0], h.1⟩
    else .error .wouldBlock
  | _, .relayWrite _ | _, .writePacket _ => .error .wouldBlock
  | _, .readPacket => .ok none
  | _, .frameFromInterface _ | _, .packetFromRelay _ => none
  | _, .pollTwo => .ok ()

def twoPolls : PollablePumpBudget := ⟨1, 2, 9, by decide⟩

end

end Theyos.TunnelWire
