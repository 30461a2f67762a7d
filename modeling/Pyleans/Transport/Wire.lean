import Mathlib
import Pyleans.Library.BigEndian
import Pyleans.Library.Fallible
import Pyleans.Library.StreamReader
import Pyleans.Transport.Messages

namespace Pyleans.Wire

open Library BigEndian Fallible

/-- A message as the codec sees it: a correlation id is any integer until it is checked. -/
structure TransportMessage where
  messageType : MessageType
  correlationId : ℤ
  header : List UInt8
  body : List UInt8
deriving DecidableEq

/-- The exceptions of the codec with their texts. -/
inductive WireError
  | valueError (text : String)
  | messageTooLarge (text : String)
  | transportConnection (text : String)
deriving DecidableEq

def FRAME_PREFIX_SIZE : ℕ := 4

def FRAME_OVERHEAD_AFTER_PREFIX : ℕ := 13

def UINT32_MAX : ℕ := 2 ^ 32 - 1

def UINT64_MAX : ℕ := 2 ^ 64 - 1

def hexText (n : ℕ) : String := "0x" ++ String.ofList (Nat.toDigits 16 n)

/-- What follows the length: type, correlation id and header length, then the two payloads. -/
def frameContent (m : TransportMessage) : List UInt8 :=
  pack 1 m.messageType.code ++ (pack 8 m.correlationId.toNat ++ pack 4 m.header.length) ++
    (m.header ++ m.body)

def encodeFrame (m : TransportMessage) (maxSize : ℤ) : Except WireError (List UInt8) :=
  if m.correlationId < 0 ∨ m.correlationId > UINT64_MAX then
    .error (.valueError s!"correlation id {m.correlationId} is not a uint64")
  else if m.header.length > UINT32_MAX then
    .error (.valueError s!"header length {m.header.length} exceeds uint32 max")
  else
    let totalLength := FRAME_OVERHEAD_AFTER_PREFIX + m.header.length + m.body.length
    if totalLength > UINT32_MAX then
      .error (.valueError s!"total frame length {totalLength} exceeds uint32 max")
    else
      let fullSize := FRAME_PREFIX_SIZE + totalLength
      if (fullSize : ℤ) > maxSize then
        .error (.messageTooLarge s!"frame size {fullSize} exceeds max_size {maxSize}")
      else .ok (pack FRAME_PREFIX_SIZE totalLength ++ frameContent m)

abbrev WireReader := StreamReader UInt8

def truncationToConnectionError (expected : ℕ) (partialBytes : List UInt8) : WireError :=
  .transportConnection
    s!"peer closed mid-frame: expected {expected} bytes, got {partialBytes.length}"

def readexactlyOrRaise (reader : WireReader) (count : ℕ) :
    Except WireError (List UInt8 × WireReader) :=
  reader.readexactlyOrRaise (truncationToConnectionError count) count

/-- Reads one frame. After an error nothing more is read of the stream. -/
def readFrame (reader : WireReader) (maxSize : ℤ) :
    Except WireError (TransportMessage × WireReader) := do
  let (lengthBytes, reader) ← readexactlyOrRaise reader FRAME_PREFIX_SIZE
  let totalLength := unpack lengthBytes
  if totalLength < FRAME_OVERHEAD_AFTER_PREFIX then
    .error (.valueError s!"declared frame length {totalLength} is shorter than overhead")
  else
    let fullSize := FRAME_PREFIX_SIZE + totalLength
    if (fullSize : ℤ) > maxSize then
      .error (.messageTooLarge s!"frame size {fullSize} exceeds max_size {maxSize}")
    else
      let (fixed, reader) ← readexactlyOrRaise reader FRAME_OVERHEAD_AFTER_PREFIX
      let typeValue := unpack (fixed.take 1)
      let correlationId := unpack ((fixed.drop 1).take 8)
      let headerLength := unpack (fixed.drop 9)
      let payloadLength := totalLength - FRAME_OVERHEAD_AFTER_PREFIX
      if headerLength > payloadLength then
        .error (.valueError s!"header length {headerLength} exceeds payload region {payloadLength}")
      else
        let bodyLength := payloadLength - headerLength
        match MessageType.ofCode typeValue with
        | none => .error (.valueError s!"unknown message type {hexText typeValue}")
        | some messageType =>
          let (header, reader) ← readexactlyOrRaise reader headerLength
          let (body, reader) ← readexactlyOrRaise reader bodyLength
          .ok (⟨messageType, correlationId, header, body⟩, reader)

section

variable {reader reader' : WireReader} {count : ℕ} {items rest : List UInt8}
  {m : TransportMessage} {maxSize : ℤ}

theorem readexactlyOrRaise_append (h : reader.remaining = items ++ rest) :
    ∃ reader', readexactlyOrRaise reader items.length = .ok (items, reader') ∧
      reader'.remaining = rest :=
  StreamReader.readexactlyOrRaise_append _ h

theorem encodeFrame_eq_ok {frame : List UInt8} : encodeFrame m maxSize = .ok frame ↔
    (0 ≤ m.correlationId ∧ m.correlationId ≤ UINT64_MAX) ∧
      FRAME_OVERHEAD_AFTER_PREFIX + m.header.length + m.body.length ≤ UINT32_MAX ∧
      ((FRAME_PREFIX_SIZE + (FRAME_OVERHEAD_AFTER_PREFIX + m.header.length + m.body.length) : ℕ) :
        ℤ) ≤ maxSize ∧
      frame = pack FRAME_PREFIX_SIZE (FRAME_OVERHEAD_AFTER_PREFIX + m.header.length + m.body.length)
        ++ frameContent m := by
  simp only [encodeFrame]
  split_ifs with hid hheader htotal hsize
  · exact iff_of_false (fun h ↦ nomatch h) fun h ↦ by omega
  · exact iff_of_false (fun h ↦ nomatch h) fun h ↦ by omega
  · exact iff_of_false (fun h ↦ nomatch h) fun h ↦ by omega
  · exact iff_of_false (fun h ↦ nomatch h) fun h ↦ by omega
  · rw [Except.ok.injEq, eq_comm]
    exact ⟨fun h ↦ ⟨by omega, by omega, by omega, h⟩, fun h ↦ h.2.2.2⟩

theorem encodeFrame_succeeds : (∃ frame, encodeFrame m maxSize = .ok frame) ↔
    (0 ≤ m.correlationId ∧ m.correlationId ≤ UINT64_MAX) ∧
      FRAME_OVERHEAD_AFTER_PREFIX + m.header.length + m.body.length ≤ UINT32_MAX ∧
      ((FRAME_PREFIX_SIZE + (FRAME_OVERHEAD_AFTER_PREFIX + m.header.length + m.body.length) : ℕ) :
        ℤ) ≤ maxSize := by
  constructor
  · rintro ⟨frame, h⟩
    obtain ⟨hid, htotal, hsize, -⟩ := encodeFrame_eq_ok.mp h
    exact ⟨hid, htotal, hsize⟩
  · rintro ⟨hid, htotal, hsize⟩
    exact ⟨_, encodeFrame_eq_ok.mpr ⟨hid, htotal, hsize, rfl⟩⟩

theorem unpack_ofLength (bytes : List UInt8) (width : ℕ) (h : bytes.length = width) :
    pack width (unpack bytes) = bytes ∧ unpack bytes < 256 ^ width := by
  subst h
  exact ⟨pack_unpack bytes, unpack_lt bytes⟩

theorem readFrame_sound (h : readFrame reader maxSize = .ok (m, reader')) :
    ∃ frame, encodeFrame m maxSize = .ok frame ∧ reader.remaining = frame ++ reader'.remaining := by
  unfold readFrame at h
  obtain ⟨⟨lengthBytes, reader₁⟩, h₁, h⟩ := bind_eq_ok.mp h
  dsimp only at h
  split_ifs at h with hshort hsize
  obtain ⟨⟨fixed, reader₂⟩, h₂, h⟩ := bind_eq_ok.mp h
  dsimp only at h
  split_ifs at h with hheader
  split at h
  · cases h
  next t ht =>
    obtain ⟨⟨header, reader₃⟩, h₃, h⟩ := bind_eq_ok.mp h
    obtain ⟨⟨body, reader₄⟩, h₄, h⟩ := bind_eq_ok.mp h
    obtain ⟨rfl, rfl⟩ := Prod.mk.inj (Except.ok.inj h)
    obtain ⟨hl₁, hr₁⟩ := StreamReader.readexactlyOrRaise_ok h₁
    obtain ⟨hl₂, hr₂⟩ := StreamReader.readexactlyOrRaise_ok h₂
    obtain ⟨hl₃, hr₃⟩ := StreamReader.readexactlyOrRaise_ok h₃
    obtain ⟨hl₄, hr₄⟩ := StreamReader.readexactlyOrRaise_ok h₄
    rw [FRAME_OVERHEAD_AFTER_PREFIX] at hl₂
    obtain ⟨hlength, hlengthlt⟩ := unpack_ofLength _ _ hl₁
    obtain ⟨htype, -⟩ := unpack_ofLength (fixed.take 1) 1 (by simp [hl₂])
    obtain ⟨hid, hidlt⟩ := unpack_ofLength ((fixed.drop 1).take 8) 8 (by simp [hl₂])
    obtain ⟨hheaderLength, -⟩ := unpack_ofLength (fixed.drop 9) 4 (by simp [hl₂])
    have hfixed : fixed = fixed.take 1 ++ ((fixed.drop 1).take 8 ++ fixed.drop 9) := by
      rw [← List.drop_drop (i := 8) (j := 1), List.take_append_drop, List.take_append_drop]
    have htotal : FRAME_OVERHEAD_AFTER_PREFIX + header.length + body.length = unpack lengthBytes :=
      by omega
    refine ⟨_, encodeFrame_eq_ok.mpr ⟨⟨by simp, ?_⟩, ?_, ?_, rfl⟩, ?_⟩
    · dsimp only
      have hmax : UINT64_MAX + 1 = 256 ^ 8 := rfl
      omega
    · dsimp only
      have hmax : UINT32_MAX + 1 = 256 ^ FRAME_PREFIX_SIZE := rfl
      omega
    · dsimp only
      rw [htotal]
      omega
    · dsimp only [frameContent]
      rw [htotal, hlength, hl₃, Int.toNat_natCast, MessageType.ofCode_eq_some.mp ht, htype, hid,
        hheaderLength, ← hfixed, hr₁, hr₂, hr₃, hr₄]
      simp only [List.append_assoc]

theorem readFrame_complete {frame : List UInt8} (h : encodeFrame m maxSize = .ok frame)
    (hr : reader.remaining = frame ++ rest) :
    ∃ reader', readFrame reader maxSize = .ok (m, reader') ∧ reader'.remaining = rest := by
  obtain ⟨⟨hid, hidle⟩, htotal, hsize, rfl⟩ := encodeFrame_eq_ok.mp h
  have hmax32 : UINT32_MAX + 1 = 256 ^ 4 := rfl
  have hmax64 : UINT64_MAX + 1 = 256 ^ 8 := rfl
  have hlength := unpack_pack FRAME_PREFIX_SIZE
    (FRAME_OVERHEAD_AFTER_PREFIX + m.header.length + m.body.length)
    (by rw [FRAME_PREFIX_SIZE]; omega)
  have htype := unpack_pack 1 m.messageType.code m.messageType.code_lt
  have hidvalue := unpack_pack 8 m.correlationId.toNat (by omega)
  have hheaderLength := unpack_pack 4 m.header.length (by omega)
  generalize hfixed : pack 1 m.messageType.code ++
    (pack 8 m.correlationId.toNat ++ pack 4 m.header.length) = fixed
  have hfixedLength : fixed.length = FRAME_OVERHEAD_AFTER_PREFIX := by
    simp [← hfixed, FRAME_OVERHEAD_AFTER_PREFIX]
  have hcontent : frameContent m = fixed ++ (m.header ++ m.body) := by rw [frameContent, hfixed]
  rw [hcontent, List.append_assoc, List.append_assoc, List.append_assoc] at hr
  obtain ⟨reader₁, h₁, hr₁⟩ := readexactlyOrRaise_append hr
  obtain ⟨reader₂, h₂, hr₂⟩ := readexactlyOrRaise_append hr₁
  obtain ⟨reader₃, h₃, hr₃⟩ := readexactlyOrRaise_append hr₂
  obtain ⟨reader₄, h₄, hr₄⟩ := readexactlyOrRaise_append hr₃
  rw [length_pack] at h₁
  rw [hfixedLength] at h₂
  refine ⟨reader₄, ?_, hr₄⟩
  have htake : fixed.take 1 = pack 1 m.messageType.code := by simp [← hfixed]
  have hmiddle : (fixed.drop 1).take 8 = pack 8 m.correlationId.toNat := by simp [← hfixed]
  have hdrop : fixed.drop 9 = pack 4 m.header.length := by
    rw [← hfixed, ← List.append_assoc]
    exact List.drop_left' (by simp)
  have hbody : FRAME_OVERHEAD_AFTER_PREFIX + m.header.length +
    m.body.length - FRAME_OVERHEAD_AFTER_PREFIX -
      m.header.length = m.body.length := by omega
  have hcode : MessageType.ofCode m.messageType.code = some m.messageType :=
    MessageType.ofCode_eq_some.mpr rfl
  have hcast : ((m.correlationId.toNat : ℕ) : ℤ) = m.correlationId := Int.toNat_of_nonneg hid
  rw [readFrame, h₁, ok_bind]
  dsimp only
  rw [hlength, if_neg (by omega), if_neg (by omega), h₂, ok_bind]
  dsimp only
  rw [htake, hmiddle, hdrop, htype, hidvalue, hheaderLength, if_neg (by omega), hcode]
  dsimp only
  rw [h₃, ok_bind]
  dsimp only
  rw [hbody, h₄, ok_bind, hcast]

theorem readFrame_iff :
    (∃ reader', readFrame reader maxSize = .ok (m, reader') ∧ reader'.remaining = rest) ↔
    ∃ frame, encodeFrame m maxSize = .ok frame ∧ reader.remaining = frame ++ rest := by
  constructor
  · rintro ⟨reader', h, rfl⟩
    exact readFrame_sound h
  · rintro ⟨frame, h, hr⟩
    exact readFrame_complete h hr

theorem length_encodeFrame {frame : List UInt8} (h : encodeFrame m maxSize = .ok frame) :
    0 < frame.length := by
  obtain ⟨-, -, -, rfl⟩ := encodeFrame_eq_ok.mp h
  simp [FRAME_PREFIX_SIZE]

end

def readFrames (reader : WireReader) (maxSize : ℤ) : List TransportMessage × WireError :=
  match _h : readFrame reader maxSize with
  | .error e => ([], e)
  | .ok (m, reader') =>
    let (ms, e) := readFrames reader' maxSize
    (m :: ms, e)
termination_by reader.remaining.length
decreasing_by
  obtain ⟨frame, hframe, hr⟩ := readFrame_sound _h
  have hpos := length_encodeFrame hframe
  rw [hr, List.length_append]
  omega

theorem readFrames_error {reader : WireReader} {maxSize : ℤ} {e : WireError}
    (h : readFrame reader maxSize = .error e) :
    readFrames reader maxSize = ([], e) := by
  rw [readFrames]
  split
  · next e' he =>
    rw [h] at he
    rw [Except.error.inj he]
  · next he =>
    rw [h] at he
    cases he

theorem readFrames_ok {reader reader' : WireReader} {maxSize : ℤ} {m : TransportMessage}
    (h : readFrame reader maxSize = .ok (m, reader')) :
    readFrames reader maxSize =
      (m :: (readFrames reader' maxSize).1, (readFrames reader' maxSize).2) := by
  rw [readFrames]
  split
  · next he =>
    rw [h] at he
    cases he
  · next m' reader'' he =>
    rw [h] at he
    obtain ⟨rfl, rfl⟩ := Prod.mk.inj (Except.ok.inj he)
    rfl

theorem readFrame_at_end {reader : WireReader} (maxSize : ℤ) (h : reader.remaining = []) :
    readFrame reader maxSize =
      .error (.transportConnection "peer closed mid-frame: expected 4 bytes, got 0") := by
  have hshort : reader.remaining.length < FRAME_PREFIX_SIZE := by
    rw [h]
    decide
  have hread := StreamReader.readexactly_short hshort
  rw [readFrame, readexactlyOrRaise, StreamReader.readexactlyOrRaise, if_neg (by decide), hread, h]
  rfl

theorem readFrames_frames {maxSize : ℤ} {ms : List TransportMessage} {frames : List (List UInt8)}
    {reader : WireReader}
    (h : List.Forall₂ (fun m frame ↦ encodeFrame m maxSize = .ok frame) ms frames)
    (hr : reader.remaining = frames.flatten) :
    readFrames reader maxSize =
      (ms, .transportConnection "peer closed mid-frame: expected 4 bytes, got 0") := by
  induction h generalizing reader with
  | nil => exact readFrames_error (readFrame_at_end maxSize hr)
  | cons hframe _ ih =>
    obtain ⟨reader', hm, hrest⟩ := readFrame_complete hframe hr
    rw [readFrames_ok hm, ih hrest]

/-- Reading inverts writing: what is read off a stream are exactly the frames at
its head, and a stream of frames, cut into chunks in any way, gives back its
messages and then its end. -/
theorem frames_read_back :
    (∀ (m : TransportMessage) (maxSize : ℤ), (∃ frame, encodeFrame m maxSize = .ok frame) ↔
      (0 ≤ m.correlationId ∧ m.correlationId ≤ UINT64_MAX) ∧
        FRAME_OVERHEAD_AFTER_PREFIX + m.header.length + m.body.length ≤ UINT32_MAX ∧
        ((FRAME_PREFIX_SIZE + (FRAME_OVERHEAD_AFTER_PREFIX + m.header.length + m.body.length) : ℕ) :
          ℤ) ≤ maxSize) ∧
    (∀ (reader : WireReader) (maxSize : ℤ) (m : TransportMessage) (rest : List UInt8),
      (∃ reader', readFrame reader maxSize = .ok (m, reader') ∧ reader'.remaining = rest) ↔
        ∃ frame, encodeFrame m maxSize = .ok frame ∧ reader.remaining = frame ++ rest) ∧
    ∀ (maxSize : ℤ) (ms : List TransportMessage) (frames chunks : List (List UInt8)),
      List.Forall₂ (fun m frame ↦ encodeFrame m maxSize = .ok frame) ms frames →
        chunks.flatten = frames.flatten →
        readFrames ⟨[], chunks⟩ maxSize =
          (ms, .transportConnection "peer closed mid-frame: expected 4 bytes, got 0") :=
  ⟨fun _ _ ↦ encodeFrame_succeeds, fun _ _ _ _ ↦
    readFrame_iff, fun _ _ _ _ h hr ↦ readFrames_frames h hr⟩

theorem frames_read_back_ping : readFrames
    ⟨[], [[0, 0, 0, 13, 4, 0, 0, 0, 0, 0],
      [0, 0, 7, 0, 0, 0, 0, 0, 0, 0, 14, 5, 0, 0, 0, 0, 0, 0, 0, 7, 0, 0, 0],
      [0, 42]]⟩ 1024 =
      ([⟨.ping, 7, [], []⟩, ⟨.pong, 7, [], [42]⟩],
        .transportConnection "peer closed mid-frame: expected 4 bytes, got 0") :=
  frames_read_back.2.2 1024 _ [[0, 0, 0, 13, 4, 0, 0, 0, 0, 0, 0, 0, 7, 0, 0, 0, 0],
    [0, 0, 0, 14, 5, 0, 0, 0, 0, 0, 0, 0, 7, 0, 0, 0, 0, 42]] _ (.cons rfl (.cons rfl .nil)) rfl

end Pyleans.Wire
