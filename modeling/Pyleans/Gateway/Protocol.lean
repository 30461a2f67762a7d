import Mathlib
import Pyleans.Library.BigEndian
import Pyleans.Library.Fallible
import Pyleans.Library.StreamReader

namespace Pyleans.Gateway

open Library BigEndian Fallible

inductive MessageType
  | request
  | response
deriving DecidableEq

namespace MessageType

def code : MessageType → ℕ
  | .request => 0x01
  | .response => 0x02

def name : MessageType → String
  | .request => "REQUEST"
  | .response => "RESPONSE"

def ofCode (code : ℤ) : Option MessageType :=
  if code = 0x01 then some .request else if code = 0x02 then some .response else none

end MessageType

/-- The JSON library: what can be written, and what comes of bytes that are read.
The text of an exception is missing when `str` of it fails or cannot be written
as UTF-8. -/
structure Orjson (Value Payload : Type) where
  dumps : Value → Except (Option String) (List UInt8)
  loads : List UInt8 → Except String Payload

/-- The exceptions of the protocol. -/
inductive ProtocolError
  | transportError (text : String)
  | jsonEncodeError (text : Option String)
  | structError
  | incompleteReadError (partialBytes : List UInt8)
deriving DecidableEq

def FRAME_PREFIX_SIZE : ℕ := 4

def HEADER_SIZE : ℕ := 13

def MIN_FRAME_SIZE : ℕ := 1 + 8

def MAX_FRAME_SIZE : ℕ := 16 * 1024 * 1024

def UINT64_MAX : ℕ := 2 ^ 64 - 1

def signedByte (byte : ℕ) : ℤ := if byte < 128 then byte else (byte : ℤ) - 256

def hexText (n : ℤ) : String :=
  (if n < 0 then "-0x" else "0x") ++ String.ofList (Nat.toDigits 16 n.natAbs)

section

variable {Value Payload : Type} (orjson : Orjson Value Payload)

/-- `HEADER_STRUCT.pack`, whose length and message type always fit. -/
def packHeader (frameLen : ℕ) (msgType : MessageType) (correlationId : ℤ) :
    Except ProtocolError (List UInt8) :=
  if correlationId < 0 ∨ correlationId > UINT64_MAX then .error .structError
  else .ok (pack FRAME_PREFIX_SIZE frameLen ++ (pack 1 msgType.code ++ pack 8 correlationId.toNat))

def encodeFrame (msgType : MessageType) (correlationId : ℤ) (payload : Value) :
    Except ProtocolError (List UInt8) := do
  let body ← (orjson.dumps payload).mapError .jsonEncodeError
  let frameLen := MIN_FRAME_SIZE + body.length
  if frameLen > MAX_FRAME_SIZE then
    .error (.transportError s!"Frame size {frameLen} exceeds maximum {MAX_FRAME_SIZE}")
  else
    let header ← packHeader frameLen msgType correlationId
    .ok (header ++ body)

def decodeFrame (data : List UInt8) : Except ProtocolError (MessageType × ℕ × Payload) :=
  if data.length < HEADER_SIZE then
    .error (.transportError s!"Frame too short: {data.length} bytes")
  else
    let msgTypeRaw := signedByte (unpack ((data.drop FRAME_PREFIX_SIZE).take 1))
    let correlationId := unpack ((data.drop (FRAME_PREFIX_SIZE + 1)).take 8)
    match MessageType.ofCode msgTypeRaw with
    | none => .error (.transportError s!"Unknown message type: {hexText msgTypeRaw}")
    | some msgType =>
      match orjson.loads (data.drop HEADER_SIZE) with
      | .error text => .error (.transportError s!"Invalid JSON payload: {text}")
      | .ok payload => .ok (msgType, correlationId, payload)

abbrev FrameReader := StreamReader UInt8

def readexactly (reader : FrameReader) (count : ℕ) :
    Except ProtocolError (List UInt8 × FrameReader) :=
  (reader.readexactly count).mapError .incompleteReadError

def readFrame (reader : FrameReader) : Except ProtocolError (List UInt8 × FrameReader) := do
  let (lengthBytes, reader) ← readexactly reader FRAME_PREFIX_SIZE
  let frameLen := unpack lengthBytes
  if frameLen < MIN_FRAME_SIZE then .error (.transportError s!"Frame length too small: {frameLen}")
  else if frameLen > MAX_FRAME_SIZE then
    .error (.transportError s!"Frame length {frameLen} exceeds maximum {MAX_FRAME_SIZE}")
  else
    let (body, reader) ← readexactly reader frameLen
    .ok (lengthBytes ++ body, reader)

def readMessage (reader : FrameReader) :
    Except ProtocolError ((MessageType × ℕ × Payload) × FrameReader) := do
  let (frame, reader) ← readFrame reader
  let message ← decodeFrame orjson frame
  .ok (message, reader)

end

section

variable {Value Payload : Type} {orjson : Orjson Value Payload}
  {reader reader' : FrameReader} {count : ℕ}
  {items rest frame body data : List UInt8} {msgType : MessageType} {correlationId : ℤ}
    {payload : Value}

@[simp] theorem ofCode_code (msgType : MessageType) :
    MessageType.ofCode (signedByte msgType.code) = some msgType := by
  cases msgType <;> rfl

theorem code_lt (msgType : MessageType) : msgType.code < 256 ^ 1 := by
  cases msgType <;> decide

theorem readexactly_append (h : reader.remaining = items ++ rest) :
    ∃ reader', readexactly reader items.length = .ok (items, reader') ∧
      reader'.remaining = rest := by
  obtain ⟨reader', hread, hrest⟩ := StreamReader.readexactly_append h
  exact ⟨reader', by rw [readexactly, hread]; rfl, hrest⟩

theorem readexactly_ok (h : readexactly reader count = .ok (items, reader')) :
    items.length = count ∧ reader.remaining = items ++ reader'.remaining := by
  unfold readexactly at h
  cases hread : reader.readexactly count with
  | error partialBytes =>
    rw [hread] at h
    cases h
  | ok result =>
    rw [hread] at h
    obtain rfl := Except.ok.inj h
    exact StreamReader.readexactly_ok hread

def frameOf (msgType : MessageType) (correlationId : ℕ) (body : List UInt8) : List UInt8 :=
  pack FRAME_PREFIX_SIZE (MIN_FRAME_SIZE + body.length) ++
    (pack 1 msgType.code ++ pack 8 correlationId) ++ body

theorem encodeFrame_eq_ok : encodeFrame orjson msgType correlationId payload = .ok frame ↔
    ∃ body, orjson.dumps payload = .ok body ∧ MIN_FRAME_SIZE + body.length ≤ MAX_FRAME_SIZE ∧
      (0 ≤ correlationId ∧ correlationId ≤ UINT64_MAX) ∧
        frame = frameOf msgType correlationId.toNat body := by
  unfold encodeFrame packHeader
  cases hdumps : orjson.dumps payload with
  | error text => exact iff_of_false (fun h ↦ nomatch h) fun ⟨_, h, _⟩ ↦ nomatch h
  | ok body =>
    have hbody : (Except.mapError ProtocolError.jsonEncodeError
      (.ok body) : Except ProtocolError (List UInt8)) =
      .ok body := rfl
    rw [hbody, ok_bind]
    dsimp only
    split_ifs with hsize hid
    · exact iff_of_false (fun h ↦ nomatch h) fun ⟨_, h, hfits, _⟩ ↦ by cases h; omega
    · exact iff_of_false (fun h ↦ nomatch h) fun ⟨_, _, _, h, _⟩ ↦ by omega
    · rw [ok_bind, Except.ok.injEq, eq_comm]
      refine ⟨fun h ↦ ⟨body, rfl, by omega, by omega, h⟩, ?_⟩
      rintro ⟨body', h, -, -, rfl⟩
      cases h
      rfl

theorem length_frameOf (msgType : MessageType) (correlationId : ℕ) (body : List UInt8) :
    (frameOf msgType correlationId body).length = HEADER_SIZE + body.length := by
  simp only [frameOf, List.length_append, length_pack, FRAME_PREFIX_SIZE, HEADER_SIZE]

theorem decodeFrame_frameOf {id : ℕ} (hid : id ≤ UINT64_MAX) (body : List UInt8) :
    decodeFrame orjson (frameOf msgType id body) =
      match orjson.loads body with
      | .error text => .error (.transportError s!"Invalid JSON payload: {text}")
      | .ok payload => .ok (msgType, id, payload) := by
  have hmax : UINT64_MAX + 1 = 256 ^ 8 := rfl
  have hlength := length_frameOf msgType id body
  have hcode : ((frameOf msgType id body).drop FRAME_PREFIX_SIZE).take 1 = pack 1 msgType.code := by
    simp [frameOf]
  have hcorrelation : ((frameOf msgType id body).drop (FRAME_PREFIX_SIZE + 1)).take 8 =
      pack 8 id := by
    simp [frameOf, ← List.drop_drop]
  have hbody : (frameOf msgType id body).drop HEADER_SIZE = body :=
    List.drop_left' (by simp [FRAME_PREFIX_SIZE, HEADER_SIZE])
  rw [decodeFrame, if_neg (by omega)]
  dsimp only
  rw [hcode, hcorrelation, hbody, unpack_pack _ _ (code_lt msgType),
    unpack_pack _ _ (by omega), ofCode_code]

theorem readFrame_frameOf {id : ℕ} (hsize : MIN_FRAME_SIZE + body.length ≤ MAX_FRAME_SIZE)
    (hr : reader.remaining = frameOf msgType id body ++ rest) :
    ∃ reader', readFrame reader = .ok (frameOf msgType id body, reader') ∧
      reader'.remaining = rest := by
  have hmax : MAX_FRAME_SIZE < 256 ^ FRAME_PREFIX_SIZE := by decide
  have hlength := unpack_pack FRAME_PREFIX_SIZE (MIN_FRAME_SIZE + body.length) (by omega)
  generalize hcontent : pack 1 msgType.code ++ pack 8 id ++ body = content
  have hcontentLength : content.length = MIN_FRAME_SIZE + body.length := by
    simp only [← hcontent, List.length_append, length_pack, MIN_FRAME_SIZE]
  have hframe : frameOf msgType id body = pack FRAME_PREFIX_SIZE
    (MIN_FRAME_SIZE + body.length) ++ content := by
    rw [frameOf, List.append_assoc, hcontent]
  rw [hframe, List.append_assoc] at hr
  obtain ⟨reader₁, h₁, hr₁⟩ := readexactly_append hr
  obtain ⟨reader₂, h₂, hr₂⟩ := readexactly_append hr₁
  rw [length_pack] at h₁
  rw [hcontentLength] at h₂
  refine ⟨reader₂, ?_, hr₂⟩
  rw [readFrame, h₁, ok_bind]
  dsimp only
  rw [hlength, if_neg (by omega), if_neg (by omega), h₂, ok_bind, hframe]

theorem readFrame_ok (h : readFrame reader = .ok (frame, reader')) :
    MIN_FRAME_SIZE ≤ frame.length ∧ reader.remaining = frame ++ reader'.remaining := by
  unfold readFrame at h
  obtain ⟨⟨lengthBytes, reader₁⟩, h₁, h⟩ := bind_eq_ok.mp h
  dsimp only at h
  split_ifs at h with hsmall hlarge
  obtain ⟨⟨body, reader₂⟩, h₂, h⟩ := bind_eq_ok.mp h
  obtain ⟨rfl, rfl⟩ := Prod.mk.inj (Except.ok.inj h)
  obtain ⟨-, hr₁⟩ := readexactly_ok h₁
  obtain ⟨hl₂, hr₂⟩ := readexactly_ok h₂
  dsimp only
  rw [List.length_append, hr₁, hr₂, List.append_assoc]
  exact ⟨by omega, rfl⟩

theorem readMessage_ok {message : MessageType × ℕ × Payload}
    (h : readMessage orjson reader = .ok (message, reader')) :
    reader'.remaining.length < reader.remaining.length := by
  obtain ⟨⟨frame, reader₁⟩, h₁, h⟩ := bind_eq_ok.mp h
  obtain ⟨message', -, h⟩ := bind_eq_ok.mp h
  obtain ⟨rfl, rfl⟩ := Prod.mk.inj (Except.ok.inj h)
  obtain ⟨hlength, hr⟩ := readFrame_ok h₁
  rw [hr, List.length_append]
  have hpos : 0 < MIN_FRAME_SIZE := by decide
  omega

end

/-- A read loop up to the exception that ends it. -/
def readMessages {Value Payload : Type} (orjson : Orjson Value Payload) (reader : FrameReader) :
    List (MessageType × ℕ × Payload) × ProtocolError :=
  match _h : readMessage orjson reader with
  | .error e => ([], e)
  | .ok (message, reader') =>
    let (messages, e) := readMessages orjson reader'
    (message :: messages, e)
termination_by reader.remaining.length
decreasing_by exact readMessage_ok _h

section

variable {Value Payload : Type} {reader reader' : FrameReader} {rest frame : List UInt8}
  {msgType : MessageType} {id : ℕ}

theorem readMessages_ok {orjson : Orjson Value Payload} {message : MessageType × ℕ × Payload}
    (h : readMessage orjson reader = .ok (message, reader')) :
    readMessages orjson reader =
      (message :: (readMessages orjson reader').1, (readMessages orjson reader').2) := by
  rw [readMessages]
  split
  · next he =>
    rw [h] at he
    cases he
  · next message' reader'' he =>
    rw [h] at he
    obtain ⟨rfl, rfl⟩ := Prod.mk.inj (Except.ok.inj he)
    rfl

variable {orjson : Orjson Payload Payload} {payload : Payload}

theorem readFrame_encodeFrame
    (hround : ∀ payload body, orjson.dumps payload = .ok body → orjson.loads body = .ok payload)
    (hframe : encodeFrame orjson msgType id payload = .ok frame)
    (hr : reader.remaining = frame ++ rest) :
    ∃ reader', readFrame reader = .ok (frame, reader') ∧ reader'.remaining = rest ∧
      decodeFrame orjson frame = .ok (msgType, id, payload) := by
  obtain ⟨body, hdumps, hsize, ⟨-, hid⟩, rfl⟩ := encodeFrame_eq_ok.mp hframe
  obtain ⟨reader', hread, hrest⟩ := readFrame_frameOf hsize hr
  rw [Int.toNat_natCast] at hread ⊢
  exact ⟨reader', hread, hrest, by rw [decodeFrame_frameOf (by omega), hround payload body hdumps]⟩

theorem readMessages_frames {messages : List (MessageType × ℕ × Payload)}
    {frames : List (List UInt8)}
    (hround : ∀ payload body, orjson.dumps payload = .ok body → orjson.loads body = .ok payload)
    (h : List.Forall₂ (fun m frame ↦ encodeFrame orjson m.1 m.2.1 m.2.2 = .ok frame)
      messages frames)
    (hr : reader.remaining = frames.flatten ++ rest) :
    ∃ reader', reader'.remaining = rest ∧
      readMessages orjson reader =
        (messages ++ (readMessages orjson reader').1, (readMessages orjson reader').2) := by
  induction h generalizing reader with
  | nil => exact ⟨reader, hr, rfl⟩
  | @cons message frame messages frames hframe _ ih =>
    rw [List.flatten_cons, List.append_assoc] at hr
    obtain ⟨reader₁, hread, hrest, hdecode⟩ := readFrame_encodeFrame hround hframe hr
    obtain ⟨reader₂, hrest₂, hmessages⟩ := ih hrest
    have hmessage : readMessage orjson reader = .ok (message, reader₁) := by
      rw [readMessage, hread, ok_bind]
      dsimp only
      rw [hdecode]
      rfl
    refine ⟨reader₂, hrest₂, ?_⟩
    rw [readMessages_ok hmessage, hmessages]
    rfl

end

/-- Every payload within the limit makes a frame, which is read back with
whatever follows it left in the stream, and so is every sequence of frames. -/
theorem gateway_frames_read_back {Payload : Type} (orjson : Orjson Payload Payload)
    (hround : ∀ payload body, orjson.dumps payload = .ok body → orjson.loads body = .ok payload) :
    (∀ (msgType : MessageType) (id : ℕ) (payload : Payload) (body : List UInt8),
      orjson.dumps payload = .ok body →
      ((∃ frame, encodeFrame orjson msgType id payload = .ok frame) ↔
        id ≤ UINT64_MAX ∧ MIN_FRAME_SIZE + body.length ≤ MAX_FRAME_SIZE)) ∧
    (∀ (msgType : MessageType) (id : ℕ) (payload : Payload) (frame rest : List UInt8)
      (reader : FrameReader),
      encodeFrame orjson msgType id payload = .ok frame → reader.remaining = frame ++ rest →
        ∃ reader', readFrame reader = .ok (frame, reader') ∧ reader'.remaining = rest ∧
          decodeFrame orjson frame = .ok (msgType, id, payload)) ∧
    ∀ (messages : List (MessageType × ℕ × Payload)) (frames : List (List UInt8)) (rest : List UInt8)
      (reader : FrameReader),
      List.Forall₂ (fun m frame ↦ encodeFrame orjson m.1 m.2.1 m.2.2 = .ok frame) messages frames →
        reader.remaining = frames.flatten ++ rest →
          ∃ reader', reader'.remaining = rest ∧
            readMessages orjson reader =
              (messages ++ (readMessages orjson reader').1, (readMessages orjson reader').2) := by
  refine ⟨fun msgType id payload body hdumps ↦ ?_, fun _ _ _ _ _ _ ↦ readFrame_encodeFrame hround,
    fun _ _ _ _ ↦ readMessages_frames hround⟩
  constructor
  · rintro ⟨frame, hframe⟩
    obtain ⟨body', hdumps', hsize, ⟨-, hid⟩, -⟩ := encodeFrame_eq_ok.mp hframe
    obtain rfl := Except.ok.inj (hdumps.symm.trans hdumps')
    exact ⟨by omega, hsize⟩
  · rintro ⟨hid, hsize⟩
    exact ⟨_, encodeFrame_eq_ok.mpr ⟨body, hdumps, hsize, ⟨by omega, by omega⟩, rfl⟩⟩

def okFlag : Orjson Bool Bool where
  dumps ok :=
    .ok ([123, 34, 111, 107, 34, 58] ++
      (if ok then [116, 114, 117, 101] else [102, 97, 108, 115, 101]) ++ [125])
  loads body :=
    if body = [123, 34, 111, 107, 34, 58, 116, 114, 117, 101, 125] then .ok true
    else if body = [123, 34, 111, 107, 34, 58, 102, 97, 108, 115, 101, 125] then .ok false
    else .error "unexpected character: line 1 column 1 (char 0)"

theorem okFlag_round (ok : Bool) (body : List UInt8) (h : okFlag.dumps ok = .ok body) :
    okFlag.loads body = .ok ok := by
  obtain rfl := Except.ok.inj h
  cases ok <;> rfl

theorem gateway_frames_read_back_reply :
    ∃ reader',
      readFrame
      ⟨[0, 0], [[0, 20, 2, 0, 0, 0, 0, 0, 0, 0, 7, 123, 34, 111, 107, 34],
      [58, 116, 114, 117, 101, 125, 9]]⟩ =
        .ok ([0, 0, 0, 20, 2, 0, 0, 0, 0, 0, 0, 0, 7, 123, 34, 111, 107, 34, 58, 116, 114, 117, 101,
          125], reader') ∧
      reader'.remaining = [9] ∧
      decodeFrame okFlag [0, 0, 0, 20, 2, 0, 0, 0, 0, 0, 0, 0, 7, 123, 34, 111, 107, 34, 58, 116,
        114, 117, 101, 125] =
        .ok (.response, 7, true) :=
  (gateway_frames_read_back okFlag okFlag_round).2.1 .response 7 true _ [9] _ rfl rfl

end Pyleans.Gateway
