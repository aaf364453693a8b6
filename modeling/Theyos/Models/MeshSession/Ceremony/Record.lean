import Theyos.Models.MeshSession.Ceremony.Seam

/-!
# Records on the ceremony's stream

Every flight and record is written and read behind its length, by loops that look at
the deadline before each call of the stream. A record that was written without an
error was taken by the stream completely.
-/

namespace Theyos.MeshSession

open Machine Dialogue

def maxNoiseHandshakeMessageLen : ℕ := 65535

def maxNoiseRecordLen : ℕ := 65535

section

variable {Key : Type} {isPoint : List UInt8 → Bool}

/-- Look at the deadline and arm the next call of the stream with the time left. -/
def armStream : Ceremony Key isPoint WireError Unit := do
  let remaining : ℕ ← request .remaining
  require (remaining ≠ 0) .deadlineExceeded
  let armed : Bool ← request (.armIoDeadline remaining)
  require armed .deadlineArmingFailed

/-- Read until `missing` bytes were read. -/
def readExactWithDeadline (missing : ℕ) : Ceremony Key isPoint WireError (List UInt8) :=
  if missing = 0 then return []
  else do
    armStream
    let chunk : Option { bytes : List UInt8 // bytes.length ≤ missing } ← request (.read missing)
    match chunk with
    | none => fail .io
    | some ⟨[], _⟩ => fail .io
    | some ⟨byte :: bytes, _⟩ => do
      let remaining : ℕ ← request .remaining
      require (remaining ≠ 0) .deadlineExceeded
      let rest ← readExactWithDeadline (missing - (byte :: bytes).length)
      return byte :: bytes ++ rest
termination_by missing
decreasing_by simp; omega

/-- Write until the stream took all bytes. -/
def writeAllWithDeadline (buf : List UInt8) : Ceremony Key isPoint WireError Unit :=
  if buf = [] then return
  else do
    armStream
    let taken : Option (Fin (buf.length + 1)) ← request (.write buf)
    match taken with
    | none => fail .io
    | some ⟨0, _⟩ => fail .io
    | some ⟨n + 1, _⟩ => writeAllWithDeadline (buf.drop (n + 1))
termination_by buf.length
decreasing_by simp; omega

/-- Read a length and as many bytes; a length above the limit is refused first. -/
def readLengthPrefixedFrame (maxLen : ℕ) : Ceremony Key isPoint WireError (List UInt8) := do
  let lenBuf ← readExactWithDeadline 4
  let declared := beNat lenBuf
  require (declared ≤ maxLen) (.oversizeFrame declared maxLen)
  readExactWithDeadline declared

variable (body : List UInt8)

/-- Write a length and the bytes, up to the limit. -/
def writeLengthPrefixedFrame (maxLen : ℕ) :
    Ceremony Key isPoint WireError Unit := do
  require (body.length < 2 ^ 32) (.oversizeFrame (2 ^ 32 - 1) maxLen)
  require (body.length ≤ maxLen) (.oversizeFrame body.length maxLen)
  writeAllWithDeadline (beBytes 4 body.length)
  writeAllWithDeadline body

def readTransportRecord : Ceremony Key isPoint WireError (List UInt8) :=
  readLengthPrefixedFrame maxNoiseRecordLen

def writeTransportRecord : Ceremony Key isPoint WireError Unit :=
  writeLengthPrefixedFrame body maxNoiseRecordLen

def readHandshakeFlight : Ceremony Key isPoint WireError (List UInt8) :=
  readLengthPrefixedFrame maxNoiseHandshakeMessageLen

def writeHandshakeFlight : Ceremony Key isPoint WireError Unit :=
  writeLengthPrefixedFrame body maxNoiseHandshakeMessageLen

/-- Send the next flight of the handshake, without a payload. -/
def sendFlight : Ceremony Key isPoint NoiseSetupError Unit := do
  let message : Option (List UInt8) ← request .writeHandshakeMessage
  match message with
  | none => fail .snow
  | some message => (writeHandshakeFlight message).adapt .wire

/-- Receive a flight of the handshake; a payload is refused. -/
def receiveFlight : Ceremony Key isPoint NoiseSetupError Unit := do
  let message ← readHandshakeFlight.adapt .wire
  let payload : Option ℕ ← request (.readHandshakeMessage message)
  match payload with
  | none => fail .snow
  | some length => require (length = 0) (.nonEmptyHandshakePayload length)

/-- The three flights of the handshake. -/
def runFlights : Role → Ceremony Key isPoint NoiseSetupError Unit
  | .initiator => do
    sendFlight
    receiveFlight
    sendFlight
  | .responder => do
    receiveFlight
    sendFlight
    receiveFlight

/-- Run the handshake, and return its hash. -/
def runXxHandshake (role : Role) : Ceremony Key isPoint NoiseSetupError (List UInt8) := do
  let built : Bool ← request (.buildHandshakeState role)
  require built .snow
  runFlights role
  let finished : Bool ← request .isHandshakeFinished
  require finished .handshakeNotFinished
  let handshakeHash : List UInt8 ← request .getHandshakeHash
  let transport : Bool ← request .intoTransportMode
  require transport .snow
  return handshakeHash

/-- Encrypt a plaintext and write the record. -/
def sendPlaintext (plaintext : List UInt8) : Ceremony Key isPoint AuthFrameError Unit := do
  let ciphertext : Option (List UInt8) ← request (.writeMessage plaintext)
  match ciphertext with
  | none => fail (.noise .snow)
  | some ciphertext => (writeTransportRecord ciphertext).adapt .wire

/-- Read a record and decrypt it. -/
def receivePlaintext : Ceremony Key isPoint AuthFrameError (List UInt8) := do
  let ciphertext ← readTransportRecord.adapt .wire
  let plaintext : Option (List UInt8) ← request (.readMessage ciphertext)
  match plaintext with
  | none => fail (.noise .snow)
  | some plaintext => return plaintext

end

section

variable {Key : Type} (c : Crypto Key) (F : Formats c.isPoint)

def sendFrame (frame : AuthFrame c.isPoint) : AuthCeremony c Unit := do
  sendPlaintext (← lift (encodeAuthFrame F frame))

def recvFrame : AuthCeremony c (AuthFrame c.isPoint) := do
  lift (decodeAuthFrame F (← receivePlaintext))

def sendIntentRecord (intent : SignedMeshConnectionIntent) : AuthCeremony c Unit := do
  sendPlaintext (← lift ((encodeIntentRecord F intent).mapError .intent))

def recvIntentRecord : AuthCeremony c SignedMeshConnectionIntent := do
  lift ((decodeIntentRecord F c.toP256 (← receivePlaintext)).mapError .intent)

end

section

variable {Key : Type} {isPoint : List UInt8 → Bool}

/-- The bytes the stream took in an exchange. -/
def takenBytes : Exchange (@Answer Key isPoint) → List UInt8
  | ⟨.write buf, some n⟩ => buf.take n
  | _ => []

/-- The bytes the stream took. -/
def written (w : CeremonyTranscript Key isPoint) : List UInt8 := w.flatMap takenBytes

theorem written_append (w w' : CeremonyTranscript Key isPoint) :
    written (w ++ w') = written w ++ written w' :=
  List.flatMap_append

variable {w : CeremonyTranscript Key isPoint}

theorem armStream_ok {u : Unit} (h : Yields armStream (.ok u) w) : written w = [] := by
  simp only [armStream, yields_query_bind, yields_require_bind, yields_require] at h
  obtain ⟨_, _, ⟨_, _, _, ⟨_, rfl⟩, rfl⟩, rfl⟩ := h
  rfl

/-- A write that returns without an error was taken completely. -/
theorem writeAllWithDeadline_ok {buf : List UInt8} {u : Unit}
    (h : Yields (writeAllWithDeadline buf) (.ok u) w) : written w = buf := by
  induction hlen : buf.length using Nat.strongRecOn generalizing buf w with
  | ind len ih =>
    rw [writeAllWithDeadline] at h
    split_ifs at h with hbuf
    · rw [(yields_pure.mp h).2, hbuf]
      rfl
    · obtain ⟨_, w₁, w₂, harm, hwrite, rfl⟩ := yields_bind_ok.mp h
      obtain ⟨taken, w₃, hrest, rfl⟩ := yields_query_bind.mp hwrite
      match taken, hrest with
      | none, hrest => cases (yields_fail.mp hrest).1
      | some ⟨0, _⟩, hrest => cases (yields_fail.mp hrest).1
      | some ⟨n + 1, _⟩, hrest =>
        have hdrop := ih _ (by rw [List.length_drop]; omega) hrest rfl
        rw [written_append, armStream_ok harm]
        calc written (⟨.write buf, some ⟨n + 1, _⟩⟩ :: w₃) = buf.take (n + 1) ++ written w₃ := rfl
          _ = buf := by rw [hdrop, List.take_append_drop]

theorem writeTransportRecord_ok {body : List UInt8} {u : Unit}
    (h : Yields (writeTransportRecord body) (.ok u) w) :
    written w = beBytes 4 body.length ++ body := by
  obtain ⟨_, h⟩ := yields_require_bind.mp h
  obtain ⟨_, h⟩ := yields_require_bind.mp h
  obtain ⟨_, w₁, w₂, hlength, hbody, rfl⟩ := yields_bind_ok.mp h
  rw [written_append, writeAllWithDeadline_ok hlength, writeAllWithDeadline_ok hbody]

variable (F : Formats isPoint)

/-- The record of a frame was encrypted, and the stream took it completely. -/
def RecordWritten (frame : AuthFrame isPoint) (w : CeremonyTranscript Key isPoint) : Prop :=
  ∃ plaintext ciphertext rest, encodeAuthFrame F frame = .ok plaintext ∧
    w = ⟨.writeMessage plaintext, some ciphertext⟩ :: rest ∧
    written rest = beBytes 4 ciphertext.length ++ ciphertext

end

theorem sendFrame_ok {Key : Type} {c : Crypto Key} {F : Formats c.isPoint}
    {w : c.Transcript} {frame : AuthFrame c.isPoint} {u : Unit}
    (h : Yields (sendFrame c F frame) (.ok u) w) : RecordWritten F frame w := by
  obtain ⟨plaintext, hplaintext, h⟩ := yields_lift_bind.mp h
  obtain ⟨ciphertext, rest, hrest, rfl⟩ := yields_query_bind.mp h
  cases ciphertext with
  | none => cases (yields_fail.mp hrest).1
  | some ciphertext =>
    exact ⟨plaintext, ciphertext, rest, hplaintext, rfl,
      writeTransportRecord_ok (yields_adapt_ok.mp hrest)⟩

section

variable {Key : Type} {isPoint : List UInt8 → Bool}

/-- What the stream holds after an exchange in time that moved a byte or met its end. -/
def served (content : List UInt8) : Exchange (@Answer Key isPoint) → Option (List UInt8)
  | ⟨.remaining, remaining⟩ => do
    guard (remaining ≠ 0)
    return content
  | ⟨.armIoDeadline _, armed⟩ => do
    guard (armed = true)
    return content
  | ⟨.read _, some ⟨chunk, _⟩⟩ => do
    guard (chunk <+: content ∧ (chunk = [] → content = []))
    return content.drop chunk.length
  | ⟨.write buf, some taken⟩ => do
    guard (taken.1 ≠ 0)
    return content ++ buf.take taken
  | ⟨.read _, none⟩ | ⟨.write _, none⟩ => none
  | _ => some content

/-- What reading `n` bytes finds. -/
def firstBytes (n : ℕ) (content : List UInt8) : Except WireError (List UInt8) × List UInt8 :=
  if n ≤ content.length then (.ok (content.take n), content.drop n) else (.error .io, [])

variable (maxLen : ℕ)

/-- Write frames back to back. -/
def writeFrames : List (List UInt8) → Ceremony Key isPoint WireError Unit
  | [] => return
  | body :: bodies => do
    writeLengthPrefixedFrame body maxLen
    writeFrames bodies

/-- Read frames. -/
def readFrames : ℕ → Ceremony Key isPoint WireError (List (List UInt8))
  | 0 => return []
  | n + 1 => do
    let body ← readLengthPrefixedFrame maxLen
    let bodies ← readFrames n
    return body :: bodies

/-- The bytes of frames. -/
def framed (bodies : List (List UInt8)) : List UInt8 :=
  bodies.flatMap fun body => beBytes 4 body.length ++ body

variable {maxLen} {content : List UInt8}

theorem remaining_carries {α : Type} {f : ℕ → Ceremony Key isPoint WireError α}
    {out : Except WireError α × List UInt8} (h : ∀ n, Carries served content (f n) out) :
    Carries served content (do
      let remaining : ℕ ← request .remaining
      require (remaining ≠ 0) .deadlineExceeded
      f remaining) out := by
  refine .query_bind ⟨(1 : ℕ), rfl⟩ fun (remaining : ℕ) s hs => .require_bind ?_
  simp only [served, eq_some_iff] at hs
  obtain ⟨_, hremaining, rfl⟩ := hs
  rw [if_pos hremaining]
  exact h remaining

theorem armStream_carries : Carries (@served Key isPoint) content armStream (.ok (), content) := by
  refine remaining_carries fun n => ?_
  refine .query_bind ⟨true, rfl⟩ fun (armed : Bool) s hs => ?_
  simp only [served, eq_some_iff] at hs
  obtain ⟨_, rfl, rfl⟩ := hs
  rfl

theorem readExactWithDeadline_carries (n : ℕ) :
    Carries (@served Key isPoint) content (readExactWithDeadline n) (firstBytes n content) := by
  induction n using Nat.strongRecOn generalizing content with
  | ind n ih =>
    rw [readExactWithDeadline]
    split_ifs with hn
    · rw [hn]
      rfl
    · refine armStream_carries.bind (.query_bind ?_ fun chunk s hs => ?_)
      · refine ⟨some ⟨content.take 1, by simp; omega⟩, ?_⟩
        cases content <;> simp [served]
      · match chunk, hs with
        | some ⟨[], _⟩, hs =>
          simp only [served, eq_some_iff] at hs
          obtain ⟨_, ⟨_, hend⟩, rfl⟩ := hs
          rw [hend trivial, firstBytes, if_neg (by simpa using hn)]
          rfl
        | some ⟨byte :: bytes, hlen⟩, hs =>
          simp only [served, eq_some_iff] at hs
          obtain ⟨_, ⟨⟨rest, rfl⟩, _⟩, rfl⟩ := hs
          refine remaining_carries fun _ => ?_
          have hrest := @ih (n - (byte :: bytes).length) (by simp; omega) rest
          rw [List.drop_left]
          unfold firstBytes at hrest ⊢
          rw [List.length_append]
          split_ifs at hrest with hle
          · refine hrest.bind ?_
            rw [if_pos (by omega), List.take_append, List.drop_append, List.take_of_length_le hlen,
              List.drop_of_length_le hlen]
            rfl
          · rw [if_neg (by omega)]
            exact hrest.bind_error

theorem writeAllWithDeadline_carries (buf : List UInt8) :
    Carries (@served Key isPoint) content (writeAllWithDeadline buf) (.ok (), content ++ buf) := by
  induction hlen : buf.length using Nat.strongRecOn generalizing buf content with
  | ind len ih =>
    rw [writeAllWithDeadline]
    split_ifs with hbuf
    · rw [hbuf, List.append_nil]
      rfl
    · refine armStream_carries.bind (.query_bind ⟨some (Fin.last _), ?_⟩ fun taken s hs => ?_)
      · simp [served, hbuf]
      · match taken, hs with
        | some ⟨n + 1, _⟩, hs =>
          simp only [served, eq_some_iff] at hs
          obtain ⟨_, _, rfl⟩ := hs
          have hrest := @ih (buf.drop (n + 1)).length (by rw [List.length_drop]; omega)
            (content ++ buf.take (n + 1)) _ rfl
          rwa [List.append_assoc, List.take_append_drop] at hrest

theorem readLengthPrefixedFrame_carries {lenBuf : List UInt8} (h : lenBuf.length = 4) :
    Carries (@served Key isPoint) (lenBuf ++ content) (readLengthPrefixedFrame maxLen)
      (if beNat lenBuf ≤ maxLen then firstBytes (beNat lenBuf) content
        else (.error (.oversizeFrame (beNat lenBuf) maxLen), content)) := by
  have hprefix := @readExactWithDeadline_carries Key isPoint (lenBuf ++ content) lenBuf.length
  rw [firstBytes, if_pos (by simp), List.take_left, List.drop_left, h] at hprefix
  refine hprefix.bind (.require_bind ?_)
  split_ifs
  · exact readExactWithDeadline_carries _
  · rfl

variable {bodies : List (List UInt8)} {maxLen : UInt32}
  (h : ∀ body ∈ bodies, body.length ≤ maxLen.toNat)

include h

theorem writeFrames_carries :
    Carries (@served Key isPoint) content (writeFrames maxLen.toNat bodies)
      (.ok (), content ++ framed bodies) := by
  induction bodies generalizing content with
  | nil => simp [framed, writeFrames, Carries, pure]
  | cons body bodies ih =>
    obtain ⟨hbody, hbodies⟩ := List.forall_mem_cons.mp h
    have hrest := @ih (content ++ beBytes 4 body.length ++ body) hbodies
    rw [show content ++ beBytes 4 body.length ++ body ++ framed bodies =
      content ++ framed (body :: bodies) by simp [framed]] at hrest
    refine .bind (a := ()) (.require_bind ?_) hrest
    rw [if_pos (hbody.trans_lt maxLen.toNat_lt)]
    refine .require_bind ?_
    rw [if_pos hbody]
    exact (writeAllWithDeadline_carries _).bind (writeAllWithDeadline_carries body)

theorem readFrames_carries :
    Carries (@served Key isPoint) (framed bodies ++ content) (readFrames maxLen.toNat bodies.length)
      (.ok bodies, content) := by
  induction bodies with
  | nil => rfl
  | cons body bodies ih =>
    obtain ⟨hbody, hbodies⟩ := List.forall_mem_cons.mp h
    have hframe := @readLengthPrefixedFrame_carries Key isPoint maxLen.toNat
      (body ++ (framed bodies ++ content)) (beBytes 4 body.length) (length_beBytes ..)
    rw [beNat_beBytes (hbody.trans_lt maxLen.toNat_lt), if_pos hbody, firstBytes,
      if_pos (by simp), List.take_left, List.drop_left] at hframe
    rw [show framed (body :: bodies) ++ content =
      beBytes 4 body.length ++ (body ++ (framed bodies ++ content)) by simp [framed]]
    exact hframe.bind ((ih hbodies).bind rfl)

omit h in
/-- Frames that were written are read back, however their bytes are split; a length above the limit
is refused with no byte after it read, and a stream that ends inside a frame is an error. -/
theorem frames_round_trip (maxLen : UInt32) :
    (∀ bodies content, (∀ body ∈ bodies, body.length ≤ maxLen.toNat) →
      Carries (@served Key isPoint) content (writeFrames maxLen.toNat bodies)
        (.ok (), content ++ framed bodies) ∧
      Carries (@served Key isPoint) (framed bodies ++ content)
        (readFrames maxLen.toNat bodies.length) (.ok bodies, content)) ∧
    (∀ content, content.length < 4 →
      Carries (@served Key isPoint) content (readLengthPrefixedFrame maxLen.toNat)
        (.error .io, [])) ∧
    ∀ lenBuf content, lenBuf.length = 4 →
      (maxLen.toNat < beNat lenBuf →
        Carries (@served Key isPoint) (lenBuf ++ content) (readLengthPrefixedFrame maxLen.toNat)
          (.error (.oversizeFrame (beNat lenBuf) maxLen.toNat), content)) ∧
      (beNat lenBuf ≤ maxLen.toNat → content.length < beNat lenBuf →
        Carries (@served Key isPoint) (lenBuf ++ content) (readLengthPrefixedFrame maxLen.toNat)
          (.error .io, [])) := by
  refine ⟨fun bodies content h => ⟨writeFrames_carries h, readFrames_carries h⟩,
    fun content h => ?_, fun lenBuf content h => ?_⟩
  · have hshort := @readExactWithDeadline_carries Key isPoint content 4
    rw [firstBytes, if_neg (by omega)] at hshort
    exact hshort.bind_error
  · have hframe := @readLengthPrefixedFrame_carries Key isPoint maxLen.toNat content lenBuf h
    constructor
    · intro hlt
      rwa [if_neg (by omega)] at hframe
    · intro hle hshort
      rwa [if_pos hle, firstBytes, if_neg (by omega)] at hframe

end

end Theyos.MeshSession
