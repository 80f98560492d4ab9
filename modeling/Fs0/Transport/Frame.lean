import Fs0.Core.Types
import Fs0.Lib.Fallible

/-!
Contract: the frames of `fs0-transport`, as they are written and read.

Owns:
- `write_frame` and `read_frame` over a stream that arrives in any fragments;
- that frames written one after another are read back one after another, each with exactly
  its bytes;
- what is refused: messages that are too large, and frames that are cut off or announce too
  much.

Does not own: the encoding of a message.
-/

set_option autoImplicit false

namespace Fs0

open Lib Fallible

def transportFrameLenBytes : Nat := 4

def transportMaxFrameBodyLen : Nat := 2 * 1024 * 1024

/-! ## Bytes of a length -/

/-- `u32::to_le_bytes` of the lowest 32 bits. -/
def u32ToLeBytes (value : Nat) : Bytes :=
  [UInt8.ofNat value, UInt8.ofNat (value / 256), UInt8.ofNat (value / 65536),
    UInt8.ofNat (value / 16777216)]

/-- `u32::from_le_bytes`. -/
def u32FromLeBytes (bytes : Bytes) : Nat :=
  bytes.foldr (fun byte value => byte.toNat + 256 * value) 0

theorem u32FromLeBytes_toLeBytes {value : Nat} (small : value < 2 ^ 32) :
    u32FromLeBytes (u32ToLeBytes value) = value := by
  simp only [u32FromLeBytes, u32ToLeBytes, List.foldr_cons, List.foldr_nil, UInt8.toNat_ofNat']
  omega

/-! ## Streams -/

/-- What one poll of a reader finds: at least one byte. -/
structure Fragment where
  first : UInt8
  rest : Bytes

def Fragment.bytes (fragment : Fragment) : Bytes := fragment.first :: fragment.rest

/-- A stream that ends behind its last fragment. -/
abbrev ByteStream := List Fragment

namespace ByteStream

def bytes (stream : ByteStream) : Bytes := stream.flatMap Fragment.bytes

def earlyEof : Fs0Error := .io "early eof"

/-- One read after another, each at most to the end of a fragment. -/
def readFragments : (wanted : Nat) → (stream : ByteStream) →
    EStateM.Result Fs0Error ByteStream Bytes
  | 0, stream => .ok [] stream
  | _ + 1, [] => .error earlyEof []
  | wanted + 1, fragment :: later =>
      let got := fragment.bytes.take (wanted + 1)
      let left := fragment.bytes.drop (wanted + 1)
      match left with
      | [] =>
          match readFragments (wanted + 1 - got.length) later with
          | .ok more stream => .ok (got ++ more) stream
          | .error err stream => .error err stream
      | first :: rest => .ok got (⟨first, rest⟩ :: later)

/-- `AsyncReadExt::read_exact`. -/
def readExact (wanted : Nat) : EStateM Fs0Error ByteStream Bytes := readFragments wanted

end ByteStream

/-! ## Frames -/

/-- The functions of `postcard` at one type of messages. -/
structure Postcard (T : Type) where
  toAllocvec : T → Fs0Result Bytes
  fromBytes : Bytes → Fs0Result T

/-- Decoding undoes encoding. -/
def Postcard.Undoes {T : Type} (codec : Postcard T) : Prop :=
  ∀ value body, codec.toAllocvec value = .ok body → codec.fromBytes body = .ok value

/-- What is written to, and how it fails. -/
structure FrameSink where
  /-- So many bytes of a piece are written before the error, after what was written so far. -/
  writeFails : (written piece : Bytes) → Option (Nat × Fs0Error)
  flushFails : (written : Bytes) → Option Fs0Error

namespace FrameSink

/-- `AsyncWriteExt::write_all`. -/
def writeAll (sink : FrameSink) (piece : Bytes) : EStateM Fs0Error Bytes Unit := fun written =>
  match sink.writeFails written piece with
  | none => .ok () (written ++ piece)
  | some (count, err) => .error err (written ++ piece.take count)

def flush (sink : FrameSink) : EStateM Fs0Error Bytes Unit := fun written =>
  match sink.flushFails written with
  | none => .ok () written
  | some err => .error err written

/-- A sink that takes everything. -/
def reliable : FrameSink := ⟨fun _ _ => none, fun _ => none⟩

end FrameSink

section Frames

variable {T : Type} (codec : Postcard T)

def readFrame : EStateM Fs0Error ByteStream T := do
  let len ← ByteStream.readExact transportFrameLenBytes
  let bodyLen := u32FromLeBytes len
  require (bodyLen ≤ transportMaxFrameBodyLen) (.frameTooLarge bodyLen transportMaxFrameBodyLen)
  let body ← ByteStream.readExact bodyLen
  lift (codec.fromBytes body)

def writeFrame (sink : FrameSink) (value : T) : EStateM Fs0Error Bytes Unit := do
  let body ← lift (codec.toAllocvec value)
  require (body.length ≤ transportMaxFrameBodyLen)
    (.frameTooLarge body.length transportMaxFrameBodyLen)
  sink.writeAll (u32ToLeBytes body.length)
  sink.writeAll body
  sink.flush

/-- Successive calls of `read_frame`. -/
def readFrames : Nat → EStateM Fs0Error ByteStream (List T)
  | 0 => pure []
  | count + 1 => do
      let value ← readFrame codec
      let later ← readFrames count
      pure (value :: later)

/-- Successive calls of `write_frame`. -/
def writeFrames (sink : FrameSink) : List T → EStateM Fs0Error Bytes Unit
  | [] => pure ()
  | value :: later => do
      writeFrame codec sink value
      writeFrames sink later

end Frames

/-- The bytes of a frame. -/
def frameOf (body : Bytes) : Bytes := u32ToLeBytes body.length ++ body

/-! ## Reading -/

namespace ByteStream

theorem readFragments_of_le {wanted : Nat} {stream : ByteStream}
    (enough : wanted ≤ stream.bytes.length) : ∃ stream',
    readFragments wanted stream = .ok (stream.bytes.take wanted) stream' ∧
      stream'.bytes = stream.bytes.drop wanted := by
  induction stream generalizing wanted with
  | nil =>
      obtain rfl := Nat.le_zero.mp enough
      exact ⟨[], rfl, rfl⟩
  | cons fragment later inductionHypothesis =>
      cases wanted with
      | zero => exact ⟨fragment :: later, by rw [readFragments]; rfl, rfl⟩
      | succ wanted =>
          have all : bytes (fragment :: later) = fragment.bytes ++ bytes later := rfl
          rw [all, List.length_append] at enough
          rw [readFragments, all]
          split
          next drained =>
            -- The whole fragment was taken, the rest comes from later ones.
            have short : fragment.bytes.length ≤ wanted + 1 := List.drop_eq_nil_iff.mp drained
            obtain ⟨stream', ran, left⟩ :=
              @inductionHypothesis (wanted + 1 - fragment.bytes.length) (by omega)
            rw [List.take_of_length_le short, ran]
            refine ⟨stream', ?_, ?_⟩
            · rw [List.take_append, List.take_of_length_le short]
            · rw [left, List.drop_append, List.drop_of_length_le short, List.nil_append]
          next first rest kept =>
            have long : wanted + 1 < fragment.bytes.length := by
              by_contra short
              rw [List.drop_of_length_le (Nat.le_of_not_lt short)] at kept
              cases kept
            refine ⟨⟨first, rest⟩ :: later, ?_, ?_⟩
            · rw [List.take_append_of_le_length (Nat.le_of_lt long)]
            · rw [List.drop_append_of_le_length (Nat.le_of_lt long), kept]
              rfl

theorem readFragments_of_lt {wanted : Nat} {stream : ByteStream}
    (short : stream.bytes.length < wanted) : readFragments wanted stream = .error earlyEof [] := by
  induction stream generalizing wanted with
  | nil =>
      cases wanted with
      | zero => exact absurd short (Nat.not_lt_zero _)
      | succ wanted => rfl
  | cons fragment later inductionHypothesis =>
      have all : bytes (fragment :: later) = fragment.bytes ++ bytes later := rfl
      rw [all, List.length_append] at short
      cases wanted with
      | zero => exact absurd short (Nat.not_lt_zero _)
      | succ wanted =>
          have drained : fragment.bytes.drop (wanted + 1) = [] :=
            List.drop_of_length_le (by omega)
          have got : (fragment.bytes.take (wanted + 1)).length = fragment.bytes.length := by
            rw [List.take_of_length_le (by omega)]
          rw [readFragments]
          rw [drained, got, inductionHypothesis (by omega)]

/-- Bytes that a stream starts with are read, whatever its fragments are. -/
theorem readExact_append {stream : ByteStream} {wanted tail : Bytes}
    (starts : stream.bytes = wanted ++ tail) :
    ∃ stream', readExact wanted.length stream = .ok wanted stream' ∧ stream'.bytes = tail := by
  have enough : wanted.length ≤ stream.bytes.length := by
    rw [starts, List.length_append]
    exact Nat.le_add_right _ _
  obtain ⟨stream', ran, left⟩ := readFragments_of_le enough
  rw [starts, List.take_left] at ran
  rw [starts, List.drop_left] at left
  exact ⟨stream', ran, left⟩

end ByteStream

variable {T : Type} {codec : Postcard T}

/-- A length that is announced is read, and then checked. -/
theorem readFrame_announced (codec : Postcard T) {header tail : Bytes} {stream : ByteStream}
    (isHeader : header.length = transportFrameLenBytes) (starts : stream.bytes = header ++ tail) :
    ∃ behind, behind.bytes = tail ∧ readFrame codec stream =
      (require (u32FromLeBytes header ≤ transportMaxFrameBodyLen)
          (.frameTooLarge (u32FromLeBytes header) transportMaxFrameBodyLen) >>= fun _ =>
        ByteStream.readExact (u32FromLeBytes header) >>= fun body =>
          lift (codec.fromBytes body)) behind := by
  obtain ⟨behind, ran, left⟩ := ByteStream.readExact_append starts
  rw [isHeader] at ran
  refine ⟨behind, left, ?_⟩
  unfold readFrame
  rw [bind_of_ok ran]

theorem bodyLen_lt {body : Bytes} (fits : body.length ≤ transportMaxFrameBodyLen) :
    body.length < 2 ^ 32 := by
  unfold transportMaxFrameBodyLen at fits
  omega

/-- A frame is read with exactly its bytes. -/
theorem readFrame_frameOf (undoes : codec.Undoes) {value : T} {body tail : Bytes}
    {stream : ByteStream} (encoded : codec.toAllocvec value = .ok body) (fits : body.length ≤ transportMaxFrameBodyLen)
    (starts : stream.bytes = frameOf body ++ tail) :
    ∃ stream', readFrame codec stream = .ok value stream' ∧ stream'.bytes = tail := by
  unfold frameOf at starts
  rw [List.append_assoc] at starts
  obtain ⟨behind, left, unfolded⟩ := readFrame_announced codec (by rfl) starts
  obtain ⟨stream', ran, rest⟩ := ByteStream.readExact_append left
  refine ⟨stream', ?_, rest⟩
  rw [unfolded, u32FromLeBytes_toLeBytes (bodyLen_lt fits), require_bind_eq_ok]
  refine ⟨fits, ?_⟩
  rw [bind_of_ok ran, lift_eq_ok]
  exact ⟨undoes value body encoded, rfl⟩

/-- A frame that is cut off is not read. -/
theorem readFrame_cut {body : Bytes} {stream : ByteStream}
    (fits : body.length ≤ transportMaxFrameBodyLen) (cut : stream.bytes <+: frameOf body)
    (proper : stream.bytes ≠ frameOf body) :
    readFrame codec stream = .error ByteStream.earlyEof [] := by
  obtain ⟨missing, whole⟩ := cut
  have some : 0 < missing.length := by
    refine List.length_pos_iff.mpr fun none => proper ?_
    rw [← whole, none, List.append_nil]
  have frameLength : (frameOf body).length = 4 + body.length := by
    rw [frameOf, List.length_append]
    rfl
  have lengths := congrArg List.length whole
  rw [List.length_append, frameLength] at lengths
  by_cases header : stream.bytes.length < transportFrameLenBytes
  · unfold readFrame
    exact bind_of_error (ByteStream.readFragments_of_lt header)
  · -- The header has arrived, so the body is cut off.
    have four : 4 ≤ stream.bytes.length := Nat.le_of_not_lt header
    have starts : stream.bytes = u32ToLeBytes body.length ++ stream.bytes.drop 4 := by
      have taken := congrArg (List.take 4) whole
      rw [List.take_append_of_le_length four, frameOf] at taken
      have isHeader : (u32ToLeBytes body.length ++ body).take 4 = u32ToLeBytes body.length := rfl
      rw [isHeader] at taken
      rw [← taken, List.take_append_drop]
    obtain ⟨behind, left, unfolded⟩ := readFrame_announced codec (by rfl) starts
    have short : behind.bytes.length < body.length := by
      rw [left, List.length_drop]
      omega
    rw [unfolded, u32FromLeBytes_toLeBytes (bodyLen_lt fits)]
    have checked : (require (body.length ≤ transportMaxFrameBodyLen)
        (.frameTooLarge body.length transportMaxFrameBodyLen) :
          EStateM Fs0Error ByteStream Unit) behind = .ok () behind :=
      require_eq_ok.mpr ⟨fits, rfl⟩
    rw [bind_of_ok checked]
    exact bind_of_error (ByteStream.readFragments_of_lt short)

/-- A frame that announces too much is refused behind its header. -/
theorem readFrame_oversized {header tail : Bytes} {stream : ByteStream}
    (isHeader : header.length = transportFrameLenBytes)
    (large : transportMaxFrameBodyLen < u32FromLeBytes header)
    (starts : stream.bytes = header ++ tail) : ∃ stream', stream'.bytes = tail ∧
      readFrame codec stream =
        .error (.frameTooLarge (u32FromLeBytes header) transportMaxFrameBodyLen) stream' := by
  obtain ⟨behind, left, unfolded⟩ := readFrame_announced codec isHeader starts
  refine ⟨behind, left, unfolded.trans (bind_of_error ?_)⟩
  unfold require
  rw [if_neg (Nat.not_le_of_lt large)]

/-! ## Writing -/

theorem writeFrame_oversized (sink : FrameSink) {value : T} {body : Bytes}
    (encoded : codec.toAllocvec value = .ok body)
    (large : transportMaxFrameBodyLen < body.length) (written : Bytes) :
    writeFrame codec sink value written =
      .error (.frameTooLarge body.length transportMaxFrameBodyLen) written := by
  unfold writeFrame
  rw [encoded, bind_of_ok (lift_ok_apply body written)]
  refine bind_of_error ?_
  unfold require
  rw [if_neg (Nat.not_le_of_lt large)]

theorem writeAll_eq_ok {sink : FrameSink} {piece written written' : Bytes}
    (ran : sink.writeAll piece written = .ok () written') : written' = written ++ piece := by
  unfold FrameSink.writeAll at ran
  split at ran
  · cases ran
    rfl
  · cases ran

/-- A frame that was written is the frame of the message. -/
theorem writeFrame_eq_ok {sink : FrameSink} {value : T} {written written' : Bytes}
    (ran : writeFrame codec sink value written = .ok () written') :
    ∃ body, codec.toAllocvec value = .ok body ∧ body.length ≤ transportMaxFrameBodyLen ∧
      written' = written ++ frameOf body := by
  unfold writeFrame at ran
  obtain ⟨body, encoded, ran⟩ := lift_bind_eq_ok.mp ran
  obtain ⟨fits, ran⟩ := require_bind_eq_ok.mp ran
  obtain ⟨_, second, header, ran⟩ := bind_eq_ok.mp ran
  obtain ⟨_, third, content, flushed⟩ := bind_eq_ok.mp ran
  refine ⟨body, encoded, fits, ?_⟩
  have same : written' = third := by
    unfold FrameSink.flush at flushed
    split at flushed
    · cases flushed
      rfl
    · cases flushed
  rw [same, writeAll_eq_ok content, writeAll_eq_ok header, List.append_assoc]
  rfl

theorem writeFrame_reliable {value : T} {body : Bytes} (encoded : codec.toAllocvec value = .ok body)
    (fits : body.length ≤ transportMaxFrameBodyLen) (written : Bytes) :
    ∃ written', writeFrame codec .reliable value written = .ok () written' := by
  unfold writeFrame
  rw [encoded, bind_of_ok (lift_ok_apply body written)]
  have checked : (require (body.length ≤ transportMaxFrameBodyLen)
      (.frameTooLarge body.length transportMaxFrameBodyLen) : EStateM Fs0Error Bytes Unit) written =
        .ok () written := require_eq_ok.mpr ⟨fits, rfl⟩
  rw [bind_of_ok checked]
  exact ⟨_, rfl⟩

/-! ## Streams of frames -/

theorem writeFrames_reliable {values : List T} (small : ∀ value ∈ values, ∃ body,
      codec.toAllocvec value = .ok body ∧ body.length ≤ transportMaxFrameBodyLen) (written : Bytes) :
    ∃ written', writeFrames codec .reliable values written = .ok () written' := by
  induction values generalizing written with
  | nil => exact ⟨written, rfl⟩
  | cons value later inductionHypothesis =>
      obtain ⟨body, encoded, fits⟩ := small value List.mem_cons_self
      obtain ⟨next, first⟩ := writeFrame_reliable encoded fits written
      obtain ⟨written', rest⟩ := inductionHypothesis
        (fun other member => small other (List.mem_cons_of_mem _ member)) next
      exact ⟨written', by rw [writeFrames, bind_of_ok first, rest]⟩

/-- What was written frame by frame is read frame by frame, with nothing of what follows. -/
theorem readFrames_of_writeFrames (undoes : codec.Undoes) {sink : FrameSink} {values : List T}
    {written written' : Bytes} (ran : writeFrames codec sink values written = .ok () written') :
    ∃ sent, written' = written ++ sent ∧ ∀ (stream : ByteStream) (tail : Bytes),
      stream.bytes = sent ++ tail → ∃ stream',
        readFrames codec values.length stream = .ok values stream' ∧ stream'.bytes = tail := by
  induction values generalizing written with
  | nil =>
      cases ran
      exact ⟨[], (List.append_nil _).symm, fun stream tail starts => ⟨stream, rfl, starts⟩⟩
  | cons value later inductionHypothesis =>
      obtain ⟨_, next, first, rest⟩ := bind_eq_ok.mp ran
      obtain ⟨body, encoded, fits, rfl⟩ := writeFrame_eq_ok first
      obtain ⟨sent, rfl, reads⟩ := inductionHypothesis rest
      refine ⟨frameOf body ++ sent, List.append_assoc _ _ _, fun stream tail starts => ?_⟩
      rw [List.append_assoc] at starts
      obtain ⟨behind, read, left⟩ := readFrame_frameOf undoes encoded fits starts
      obtain ⟨stream', others, isTail⟩ := reads behind tail left
      refine ⟨stream', ?_, isTail⟩
      rw [List.length_cons, readFrames, bind_of_ok read, bind_of_ok others]
      rfl

/-- Messages that are small enough are written, and what was written is read back message by
message, however the stream is cut into fragments. A larger message is refused before a byte of
it is written. A frame that is cut off, or that announces more than the limit, is not read. -/
theorem frames_round_trip (codec : Postcard T) (undoes : codec.Undoes) :
    (∀ (values : List T) (written : Bytes), (∀ value ∈ values, ∃ body,
        codec.toAllocvec value = .ok body ∧ body.length ≤ transportMaxFrameBodyLen) →
      ∃ written', writeFrames codec .reliable values written = .ok () written') ∧
    (∀ (sink : FrameSink) (values : List T) (written written' : Bytes),
      writeFrames codec sink values written = .ok () written' →
        ∃ sent, written' = written ++ sent ∧ ∀ (stream : ByteStream) (tail : Bytes),
          stream.bytes = sent ++ tail → ∃ stream',
            readFrames codec values.length stream = .ok values stream' ∧ stream'.bytes = tail) ∧
    (∀ (sink : FrameSink) (value : T) (body written : Bytes),
      codec.toAllocvec value = .ok body → transportMaxFrameBodyLen < body.length →
        writeFrame codec sink value written =
          .error (.frameTooLarge body.length transportMaxFrameBodyLen) written) ∧
    (∀ (body : Bytes) (stream : ByteStream), body.length ≤ transportMaxFrameBodyLen →
      stream.bytes <+: frameOf body → stream.bytes ≠ frameOf body →
        readFrame codec stream = .error ByteStream.earlyEof []) ∧
    ∀ (header tail : Bytes) (stream : ByteStream), header.length = transportFrameLenBytes →
      transportMaxFrameBodyLen < u32FromLeBytes header → stream.bytes = header ++ tail →
        ∃ stream', stream'.bytes = tail ∧ readFrame codec stream =
          .error (.frameTooLarge (u32FromLeBytes header) transportMaxFrameBodyLen) stream' :=
  ⟨fun _ written small => writeFrames_reliable small written,
    fun _ _ _ _ ran => readFrames_of_writeFrames undoes ran,
    fun sink _ _ written encoded large => writeFrame_oversized sink encoded large written,
    fun _ _ fits cut proper => readFrame_cut fits cut proper,
    fun _ _ _ isHeader large starts => readFrame_oversized isHeader large starts⟩

/-- Messages of two kinds: a pair of bytes, and an array that is as large as a body may be. -/
inductive Scenario.Message where
  | pair (first second : UInt8)
  | block (content : Bytes) (full : content.length = transportMaxFrameBodyLen)

namespace Scenario

def unexpectedEnd : Fs0Error := .postcard "Hit the end of buffer, expected more data"

/-- The number of the kind comes first, then its fields. What follows them is not looked at. -/
def postcard : Postcard Message where
  toAllocvec
    | .pair first second => .ok [0, first, second]
    | .block content _ => .ok (1 :: content)
  fromBytes
    | 0 :: first :: second :: _ => .ok (.pair first second)
    | 1 :: content =>
        if full : (content.take transportMaxFrameBodyLen).length = transportMaxFrameBodyLen then
          .ok (.block _ full)
        else .error unexpectedEnd
    | [] | [0] | [0, _] => .error unexpectedEnd
    | _ => .error (.postcard "Serde Deserialization Error")

theorem postcard_undoes : postcard.Undoes := by
  intro value body encoded
  cases value with
  | pair first second =>
      obtain rfl := Except.ok.inj encoded
      rfl
  | block content full =>
      obtain rfl := Except.ok.inj encoded
      have whole : content.take transportMaxFrameBodyLen = content :=
        List.take_of_length_le (Nat.le_of_eq full)
      simp [postcard, whole, full]

/-- Two frames that arrive in three fragments, and the start of a third frame. -/
def cut : ByteStream := [⟨3, [0, 0]⟩, ⟨0, [0, 1, 2, 3]⟩, ⟨0, [0, 0, 0, 7, 8, 3, 0]⟩]

def largest : Message := .block (List.replicate transportMaxFrameBodyLen 0) List.length_replicate

end Scenario

open Scenario in
/-- Two pairs are written and read from the fragments, what follows them is not read, and the
largest block is refused. -/
theorem frames_round_trip_pairs :
    (∃ written, writeFrames postcard .reliable [.pair 1 2, .pair 7 8] [] = .ok () written) ∧
    (∃ left, readFrames postcard 2 cut = .ok [.pair 1 2, .pair 7 8] left ∧ left.bytes = [3, 0] ∧
      readFrame postcard left = .error ByteStream.earlyEof []) ∧
    writeFrame postcard .reliable largest [] =
      .error (.frameTooLarge (transportMaxFrameBodyLen + 1) transportMaxFrameBodyLen) [] := by
  obtain ⟨writes, reads, refuses, stops, -⟩ := frames_round_trip postcard postcard_undoes
  have encoded : ∀ value ∈ [Message.pair 1 2, .pair 7 8], ∃ body,
      postcard.toAllocvec value = .ok body ∧ body.length ≤ transportMaxFrameBodyLen := by
    intro value member
    rcases List.mem_pair.mp member with rfl | rfl
    · exact ⟨_, rfl, by decide⟩
    · exact ⟨_, rfl, by decide⟩
  refine ⟨writes _ [] encoded, ?_, ?_⟩
  · obtain ⟨sent, isSent, read⟩ := reads .reliable [.pair 1 2, .pair 7 8] []
      [3, 0, 0, 0, 0, 1, 2, 3, 0, 0, 0, 0, 7, 8] rfl
    obtain rfl := isSent
    obtain ⟨left, ran, isTail⟩ := read cut [3, 0] rfl
    refine ⟨left, ran, isTail, stops [0, 7, 8] left (by decide) ?_ ?_⟩
    · rw [isTail]
      exact ⟨[0, 0, 0, 7, 8], rfl⟩
    · rw [isTail]
      decide
  · have length : (1 :: List.replicate transportMaxFrameBodyLen (0 : UInt8)).length =
        transportMaxFrameBodyLen + 1 := by
      rw [List.length_cons, List.length_replicate]
    rw [refuses .reliable largest _ [] rfl (by rw [length]; exact Nat.lt_succ_self _), length]

end Fs0
