import Mathlib.Tactic.SplitIfs
import Pyleans.Library.BigEndian
import Pyleans.Library.Fallible
import Pyleans.Library.Utf8

namespace Pyleans

open Library BigEndian Fallible

/-- A decoded error body. The code is any integer until it is packed. -/
structure ErrorPayload where
  code : ℤ
  reason : String
deriving DecidableEq

/-- The transport hierarchy, with one class for what is not of it. -/
inductive ExceptionClass
  | transportError
  | handshakeError
  | messageTooLargeError
  | backpressureError
  | transportTimeoutError
  | transportConnectionError
  | transportClosedError
  | other
deriving DecidableEq

structure RaisedException where
  exceptionClass : ExceptionClass
  text : String
deriving DecidableEq

namespace ErrorPayload

def MAX_REASON_BYTES : ℕ := 1024

def APPLICATION_ERROR_BASE : ℕ := 100

def HEADER_SIZE : ℕ := 8

def CODE_MAX : ℕ := 0xFFFFFFFF

def encodeErrorPayload (payload : ErrorPayload) : Except String (List UInt8) :=
  if ¬ (0 ≤ payload.code ∧ payload.code ≤ CODE_MAX) then
    .error s!"error code {payload.code} is not a uint32"
  else
    let reasonBytes := (Utf8.encode payload.reason).take MAX_REASON_BYTES
    .ok (pack 4 payload.code.toNat ++ pack 4 reasonBytes.length ++ reasonBytes)

def decodeErrorPayload (body : List UInt8) : Except String ErrorPayload :=
  if body.length < HEADER_SIZE then
    .error s!"error payload must be at least {HEADER_SIZE} bytes, got {body.length}"
  else
    let code := unpack (body.take 4)
    let reasonLength := unpack ((body.drop 4).take 4)
    let remaining := body.length - HEADER_SIZE
    if reasonLength > remaining then
      .error s!"declared reason length {reasonLength} exceeds remaining {remaining} bytes"
    else if reasonLength > MAX_REASON_BYTES then
      .error s!"declared reason length {reasonLength} exceeds MAX_REASON_BYTES {MAX_REASON_BYTES}"
    else
      match Utf8.decode ((body.drop HEADER_SIZE).take reasonLength) with
      | none => .error "error reason is not valid UTF-8"
      | some reason => .ok ⟨code, reason⟩

def exceptionToCode : ExceptionClass → ℤ
  | .handshakeError => 2
  | .messageTooLargeError => 3
  | .transportTimeoutError => 4
  | .transportConnectionError => 5
  | .transportError | .backpressureError | .transportClosedError => 1
  | .other => APPLICATION_ERROR_BASE

def codeToExceptionClass (code : ℤ) : ExceptionClass :=
  if code ≥ APPLICATION_ERROR_BASE then .transportError
  else if code = 2 then .handshakeError
  else if code = 3 then .messageTooLargeError
  else if code = 4 then .transportTimeoutError
  else if code = 5 then .transportConnectionError
  else .transportError

def decodeError (body : List UInt8) : RaisedException :=
  match decodeErrorPayload body with
  | .error text => ⟨.transportError, s!"malformed error payload: {text}"⟩
  | .ok payload => ⟨codeToExceptionClass payload.code, payload.reason⟩

variable {code : ℤ} {reason cut : String} {body : List UInt8}

theorem encodeErrorPayload_eq_ok : encodeErrorPayload ⟨code, reason⟩ = .ok body ↔
    (0 ≤ code ∧ code ≤ CODE_MAX) ∧
      body = pack 4 code.toNat ++ pack 4 ((Utf8.encode reason).take MAX_REASON_BYTES).length ++
        (Utf8.encode reason).take MAX_REASON_BYTES := by
  unfold encodeErrorPayload
  split_ifs with hfits
  · rw [Except.ok.injEq, eq_comm]
    exact ⟨fun h ↦ ⟨hfits, h⟩, And.right⟩
  · exact iff_of_false (fun h ↦ nomatch h) fun h ↦ hfits h.1

/-- A body is read in its three parts. -/
theorem decodeErrorPayload_fields {reasonBytes : List UInt8} (hcode : 0 ≤ code ∧ code ≤ CODE_MAX)
    (hlength : reasonBytes.length ≤ MAX_REASON_BYTES) :
    decodeErrorPayload (pack 4 code.toNat ++ pack 4 reasonBytes.length ++ reasonBytes) =
      match Utf8.decode reasonBytes with
      | none => .error "error reason is not valid UTF-8"
      | some reason => .ok ⟨code, reason⟩ := by
  have hsize : (pack 4 code.toNat ++ pack 4 reasonBytes.length ++ reasonBytes).length =
    HEADER_SIZE + reasonBytes.length := by
    rw [List.length_append, List.length_append, length_pack, length_pack, HEADER_SIZE]
  have hfirst : (pack 4 code.toNat ++ pack 4 reasonBytes.length ++ reasonBytes).take 4 =
    pack 4 code.toNat := by
    rw [List.append_assoc]
    exact List.take_left' (length_pack _ _)
  have hsecond : ((pack 4 code.toNat ++ pack 4 reasonBytes.length ++ reasonBytes).drop 4).take 4 =
      pack 4 reasonBytes.length := by
    rw [List.append_assoc, List.drop_left' (length_pack _ _)]
    exact List.take_left' (length_pack _ _)
  have hthird : (pack 4 code.toNat ++ pack 4 reasonBytes.length ++ reasonBytes).drop HEADER_SIZE =
    reasonBytes := by
    apply List.drop_left'
    rw [List.length_append, length_pack, length_pack, HEADER_SIZE]
  have hcodeRead : unpack (pack 4 code.toNat) = code.toNat :=
    unpack_pack _ _ (by rw [CODE_MAX] at hcode; omega)
  have hlengthRead : unpack (pack 4 reasonBytes.length) = reasonBytes.length :=
    unpack_pack _ _ (by rw [MAX_REASON_BYTES] at hlength; omega)
  unfold decodeErrorPayload
  rw [hsize, if_neg (by omega), hfirst, hsecond, hthird, hcodeRead, hlengthRead]
  dsimp only
  rw [if_neg (by omega), if_neg (by omega), List.take_length, Int.toNat_of_nonneg hcode.1]

theorem decodeErrorPayload_encoded (h : encodeErrorPayload ⟨code, reason⟩ = .ok body) :
    decodeErrorPayload body = .ok ⟨code, cut⟩ ↔
      Utf8.decode ((Utf8.encode reason).take MAX_REASON_BYTES) = some cut := by
  obtain ⟨hcode, rfl⟩ := encodeErrorPayload_eq_ok.mp h
  rw [decodeErrorPayload_fields hcode (List.length_take_le _ _)]
  cases Utf8.decode ((Utf8.encode reason).take MAX_REASON_BYTES) with
  | none => exact iff_of_false (fun h ↦ nomatch h) fun h ↦ nomatch h
  | some text => simp

/-- The limit does not fall inside a character. -/
def CutBetweenCharacters (reason : String) : Prop :=
  (Utf8.encode reason).length ≤ MAX_REASON_BYTES ∨ Utf8.EndsCharacterAt reason MAX_REASON_BYTES

/-- The caller gets the error that was sent, its reason perhaps cut short. -/
def Arrives (code : ℤ) (reason : String) : Prop :=
  ∃ body cut, encodeErrorPayload ⟨code, reason⟩ = .ok body ∧
    decodeErrorPayload body = .ok ⟨code, cut⟩ ∧
    cut.toList <+: reason.toList ∧ decodeError body = ⟨codeToExceptionClass code, cut⟩

/-- A typed error arrives as long as the limit does not fall inside a character of its reason. -/
theorem arrives_iff_cutBetweenCharacters (code : ℤ) (reason : String)
    (hcode : 0 ≤ code ∧ code ≤ CODE_MAX) :
    Arrives code reason ↔ CutBetweenCharacters reason := by
  have hencode : encodeErrorPayload ⟨code, reason⟩ = .ok _ :=
    encodeErrorPayload_eq_ok.mpr ⟨hcode, rfl⟩
  unfold CutBetweenCharacters
  rw [← Utf8.exists_decode_take]
  constructor
  · rintro ⟨body, cut, hbody, hread, -, -⟩
    exact ⟨cut, (decodeErrorPayload_encoded hbody).mp hread⟩
  · rintro ⟨cut, hcut⟩
    have hread := (decodeErrorPayload_encoded hencode).mpr hcut
    refine ⟨_, cut, hencode, hread, Utf8.isPrefix_of_decode_take hcut, ?_⟩
    unfold decodeError
    rw [hread]

theorem arrives_boom : Arrives 4 "boom" :=
  (arrives_iff_cutBetweenCharacters 4 "boom" (by decide)).mpr (.inl (by decide))

theorem not_cutBetweenCharacters {letters : List Char} {last : Char}
    (hletters : ∀ c ∈ letters, c.utf8Size = 1) (hlength : letters.length < MAX_REASON_BYTES)
    (hlast : MAX_REASON_BYTES < letters.length + last.utf8Size) :
    ¬ CutBetweenCharacters (String.ofList (letters ++ [last])) := by
  have hsum : ∀ head : List Char, (∀ c ∈ head, c.utf8Size = 1) →
    (head.map Char.utf8Size).sum = head.length := by
    intro head hhead
    induction head with
    | nil => rfl
    | cons c head ih =>
      obtain ⟨hc, hhead⟩ := List.forall_mem_cons.mp hhead
      rw [List.map_cons, List.sum_cons, hc, ih hhead, List.length_cons, Nat.add_comm]
  have hwhole : ((letters ++ [last]).map Char.utf8Size).sum = letters.length + last.utf8Size := by
    rw [List.map_append, List.sum_append, hsum letters hletters, List.map_singleton,
      List.sum_singleton]
  unfold CutBetweenCharacters Utf8.EndsCharacterAt
  rw [Utf8.length_encode_ofList, hwhole, String.toList_ofList]
  rintro (hshort | ⟨head, hhead, hends⟩)
  · omega
  · rw [Utf8.length_encode_ofList] at hends
    rcases List.prefix_concat_iff.mp hhead with rfl | hbefore
    · omega
    · rw [hsum head fun c hc ↦ hletters c (hbefore.subset hc)] at hends
      have hle := hbefore.length_le
      omega

/-- 1023 letters of one byte and a last one of two. -/
def accentedReason : String := String.ofList (List.replicate 1023 'x' ++ ['é'])

theorem accentedReason_not_arrives :
    ¬ ∀ (code : ℤ) (reason : String), 0 ≤ code ∧ code ≤ CODE_MAX → Arrives code reason := by
  intro harrives
  obtain ⟨body, cut, hbody, hread, -, -⟩ := harrives 4 accentedReason (by decide)
  refine not_cutBetweenCharacters ?_ ?_ ?_
    (Utf8.exists_decode_take.mp ⟨cut, (decodeErrorPayload_encoded hbody).mp hread⟩)
  · intro c hc
    rw [List.eq_of_mem_replicate hc]
    decide
  · rw [List.length_replicate]
    decide
  · rw [List.length_replicate]
    decide

end ErrorPayload

end Pyleans
