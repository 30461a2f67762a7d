import Mathlib.Tactic.SplitIfs
import Pyleans.Library.BigEndian
import Pyleans.Library.Fallible
import Pyleans.Library.StreamReader
import Pyleans.Library.Utf8

namespace Pyleans

open Library BigEndian Fallible

/-- A decoded payload. The numbers are any integers until they are packed. -/
structure Handshake where
  protocolVersion : ℤ
  clusterId : String
  siloId : String
  roleFlags : ℤ
deriving DecidableEq

namespace Handshake

/-- The exceptions of the codec with their texts; `structError` is what packing
a number raises that does not fit. -/
inductive HandshakeException
  | valueError (text : String)
  | structError
  | handshakeError (text : String)
deriving DecidableEq

def MAGIC : ℕ := 0x504C4E53

def MAX_HANDSHAKE_STRING : ℕ := 256

def VERSION_MAX : ℕ := 2 ^ 16 - 1

def FLAGS_MAX : ℕ := 2 ^ 32 - 1

def hexText (n : ℕ) : String :=
  let digits := Nat.toDigits 16 n
  "0x" ++ String.ofList (List.replicate (8 - digits.length) '0' ++ digits)

def validateStringLength (fieldName value : String) : Except HandshakeException Unit :=
  let encodedLength := (Utf8.encode value).length
  if encodedLength > MAX_HANDSHAKE_STRING then
    .error (.valueError (
      s!"{fieldName} encoded length {encodedLength} " ++
      s!"exceeds MAX_HANDSHAKE_STRING {MAX_HANDSHAKE_STRING}"))
  else .ok ()

def packVersion (version : ℤ) : Except HandshakeException (List UInt8) :=
  if 0 ≤ version ∧ version ≤ VERSION_MAX then .ok (pack 2 version.toNat) else .error .structError

def stringField (value : String) : List UInt8 :=
  pack 4 (Utf8.encode value).length ++ Utf8.encode value

def encodeHandshake (h : Handshake) : Except HandshakeException (List UInt8) := do
  validateStringLength "cluster_id" h.clusterId
  validateStringLength "silo_id" h.siloId
  if ¬ (0 ≤ h.roleFlags ∧ h.roleFlags ≤ FLAGS_MAX) then
    .error (.valueError s!"role_flags {h.roleFlags} is not a uint32")
  else
    let version ← packVersion h.protocolVersion
    .ok (pack 4 MAGIC ++ (version ++
      (stringField h.clusterId ++ (stringField h.siloId ++ pack 4 h.roleFlags.toNat))))

abbrev HandshakeReader := StreamReader UInt8

def truncationToHandshakeError (expected : ℕ) (partialBytes : List UInt8) : HandshakeException :=
  .handshakeError
    s!"peer closed during handshake: expected {expected} bytes, got {partialBytes.length}"

def readexactly (reader : HandshakeReader) (count : ℕ) :
    Except HandshakeException (List UInt8 × HandshakeReader) :=
  reader.readexactlyOrRaise (truncationToHandshakeError count) count

def readBoundedString (reader : HandshakeReader) (fieldName : String) :
    Except HandshakeException (String × HandshakeReader) := do
  let (lengthBytes, reader) ← readexactly reader 4
  let length := unpack lengthBytes
  if length > MAX_HANDSHAKE_STRING then
    .error (.handshakeError
      s!"{fieldName} length {length} exceeds MAX_HANDSHAKE_STRING {MAX_HANDSHAKE_STRING}")
  else
    let (payload, reader) ← readexactly reader length
    match Utf8.decode payload with
    | none => .error (.handshakeError s!"{fieldName} is not valid UTF-8")
    | some text => .ok (text, reader)

/-- `_read_handshake_body`: all that is left of `read_handshake` when the bytes arrive in time. -/
def readHandshake (reader : HandshakeReader) :
    Except HandshakeException (Handshake × HandshakeReader) := do
  let (magicBytes, reader) ← readexactly reader 4
  let magic := unpack magicBytes
  if magic ≠ MAGIC then
    .error (.handshakeError s!"magic number mismatch: got {hexText magic}")
  else
    let (versionBytes, reader) ← readexactly reader 2
    let version := unpack versionBytes
    let (clusterId, reader) ← readBoundedString reader "cluster_id"
    let (siloId, reader) ← readBoundedString reader "silo_id"
    let (flagsBytes, reader) ← readexactly reader 4
    .ok (⟨version, clusterId, siloId, unpack flagsBytes⟩, reader)

/-- What fits into the wire format. -/
structure Encodable (h : Handshake) : Prop where
  version : 0 ≤ h.protocolVersion ∧ h.protocolVersion ≤ VERSION_MAX
  clusterId : (Utf8.encode h.clusterId).length ≤ MAX_HANDSHAKE_STRING
  siloId : (Utf8.encode h.siloId).length ≤ MAX_HANDSHAKE_STRING
  roleFlags : 0 ≤ h.roleFlags ∧ h.roleFlags ≤ FLAGS_MAX

variable {h : Handshake} {reader reader' : HandshakeReader} {count : ℕ} {bytes rest : List UInt8}
  {fieldName text : String}
  {e : HandshakeException}

theorem validateStringLength_eq_ok :
    validateStringLength fieldName text = .ok () ↔
      (Utf8.encode text).length ≤ MAX_HANDSHAKE_STRING := by
  simp only [validateStringLength]
  split_ifs with hlong
  · exact iff_of_false (fun h ↦ nomatch h) (by omega)
  · exact iff_of_true rfl (by omega)

theorem packVersion_eq_ok {version : ℤ} :
    packVersion version = .ok bytes ↔ (0 ≤ version ∧ version ≤ VERSION_MAX) ∧
      bytes = pack 2 version.toNat := by
  unfold packVersion
  split_ifs with hfits
  · rw [Except.ok.injEq, eq_comm]
    exact ⟨fun h ↦ ⟨hfits, h⟩, And.right⟩
  · exact iff_of_false (fun h ↦ nomatch h) fun h ↦ hfits h.1

theorem encodeHandshake_eq_ok : encodeHandshake h = .ok bytes ↔ Encodable h ∧
    bytes = pack 4 MAGIC ++ (pack 2 h.protocolVersion.toNat ++
      (stringField h.clusterId ++ (stringField h.siloId ++ pack 4 h.roleFlags.toNat))) := by
  constructor
  · intro he
    obtain ⟨⟨⟩, hcluster, he⟩ := bind_eq_ok.mp he
    obtain ⟨⟨⟩, hsilo, he⟩ := bind_eq_ok.mp he
    split_ifs at he with hflags
    obtain ⟨version, hversion, he⟩ := bind_eq_ok.mp he
    obtain ⟨hfits, rfl⟩ := packVersion_eq_ok.mp hversion
    exact
      ⟨⟨hfits, validateStringLength_eq_ok.mp hcluster, validateStringLength_eq_ok.mp hsilo, hflags⟩,
      (Except.ok.inj he).symm⟩
  · rintro ⟨hfits, rfl⟩
    unfold encodeHandshake
    rw [validateStringLength_eq_ok.mpr hfits.clusterId, ok_bind,
      validateStringLength_eq_ok.mpr hfits.siloId, ok_bind, if_neg (not_not.mpr hfits.roleFlags),
      packVersion_eq_ok.mpr ⟨hfits.version, rfl⟩, ok_bind]

theorem encodeHandshake_succeeds : (∃ bytes, encodeHandshake h = .ok bytes) ↔ Encodable h :=
  ⟨fun ⟨_, he⟩ ↦ (encodeHandshake_eq_ok.mp he).1, fun hfits ↦
    ⟨_, encodeHandshake_eq_ok.mpr ⟨hfits, rfl⟩⟩⟩

theorem readexactly_error (h : readexactly reader count = .error e) :
    ∃ text, e = .handshakeError text := by
  obtain ⟨partialBytes, rfl⟩ := StreamReader.readexactlyOrRaise_error h
  exact ⟨_, rfl⟩

theorem readBoundedString_ok (h : readBoundedString reader fieldName = .ok (text, reader')) :
    (Utf8.encode text).length ≤ MAX_HANDSHAKE_STRING ∧ reader.remaining = stringField text ++
      reader'.remaining := by
  obtain ⟨⟨lengthBytes, reader₁⟩, h₁, h⟩ := bind_eq_ok.mp h
  dsimp only at h
  split_ifs at h with hlong
  obtain ⟨⟨payload, reader₂⟩, h₂, h⟩ := bind_eq_ok.mp h
  dsimp only at h
  split at h
  · cases h
  next text' htext =>
    obtain ⟨rfl, rfl⟩ := Prod.mk.inj (Except.ok.inj h)
    obtain ⟨hl₁, hr₁⟩ := StreamReader.readexactlyOrRaise_ok h₁
    obtain ⟨hl₂, hr₂⟩ := StreamReader.readexactlyOrRaise_ok h₂
    have hpayload := Utf8.decode_eq_some.mp htext
    have hlength : pack 4 (unpack lengthBytes) = lengthBytes := hl₁ ▸ pack_unpack lengthBytes
    rw [stringField, hpayload, hl₂, hlength, List.append_assoc, ← hr₂, ← hr₁]
    exact ⟨by omega, rfl⟩

theorem readBoundedString_append (fieldName : String)
    (hlength : (Utf8.encode text).length ≤ MAX_HANDSHAKE_STRING)
    (hr : reader.remaining = stringField text ++ rest) :
    ∃ reader', readBoundedString reader fieldName = .ok (text, reader') ∧
      reader'.remaining = rest := by
  rw [stringField, List.append_assoc] at hr
  obtain ⟨reader₁, h₁, hr₁⟩ :=
    StreamReader.readexactlyOrRaise_append (truncationToHandshakeError 4) hr
  obtain ⟨reader₂, h₂, hr₂⟩ :=
    StreamReader.readexactlyOrRaise_append
      (truncationToHandshakeError (Utf8.encode text).length) hr₁
  refine ⟨reader₂, ?_, hr₂⟩
  have hunpack : unpack (pack 4 (Utf8.encode text).length) = (Utf8.encode text).length :=
    unpack_pack _ _ (by rw [MAX_HANDSHAKE_STRING] at hlength; omega)
  rw [length_pack] at h₁
  unfold readBoundedString readexactly
  rw [h₁, ok_bind]
  dsimp only
  rw [hunpack, if_neg (by omega), h₂, ok_bind]
  dsimp only
  rw [Utf8.decode_encode]

theorem readBoundedString_error (h : readBoundedString reader fieldName = .error e) :
    ∃ text, e = .handshakeError text := by
  rcases bind_eq_error.mp h with h | ⟨⟨lengthBytes, reader₁⟩, -, h⟩
  · exact readexactly_error h
  · dsimp only at h
    split_ifs at h
    · exact ⟨_, (Except.error.inj h).symm⟩
    · rcases bind_eq_error.mp h with h | ⟨⟨payload, reader₂⟩, -, h⟩
      · exact readexactly_error h
      · dsimp only at h
        split at h
        · exact ⟨_, (Except.error.inj h).symm⟩
        · cases h

theorem readHandshake_sound (hread : readHandshake reader = .ok (h, reader')) :
    ∃ bytes, encodeHandshake h = .ok bytes ∧ reader.remaining = bytes ++ reader'.remaining := by
  obtain ⟨⟨magicBytes, reader₁⟩, h₁, hread⟩ := bind_eq_ok.mp hread
  dsimp only at hread
  split_ifs at hread with hmagic
  obtain ⟨⟨versionBytes, reader₂⟩, h₂, hread⟩ := bind_eq_ok.mp hread
  obtain ⟨⟨clusterId, reader₃⟩, h₃, hread⟩ := bind_eq_ok.mp hread
  obtain ⟨⟨siloId, reader₄⟩, h₄, hread⟩ := bind_eq_ok.mp hread
  obtain ⟨⟨flagsBytes, reader₅⟩, h₅, hread⟩ := bind_eq_ok.mp hread
  obtain ⟨rfl, rfl⟩ := Prod.mk.inj (Except.ok.inj hread)
  obtain ⟨hl₁, hr₁⟩ := StreamReader.readexactlyOrRaise_ok h₁
  obtain ⟨hl₂, hr₂⟩ := StreamReader.readexactlyOrRaise_ok h₂
  obtain ⟨hcluster, hr₃⟩ := readBoundedString_ok h₃
  obtain ⟨hsilo, hr₄⟩ := readBoundedString_ok h₄
  obtain ⟨hl₅, hr₅⟩ := StreamReader.readexactlyOrRaise_ok h₅
  have hmagicBytes : pack 4 MAGIC = magicBytes := by rw [← not_not.mp hmagic, ← hl₁, pack_unpack]
  have hversionBytes : pack 2 (unpack versionBytes) = versionBytes := hl₂ ▸ pack_unpack versionBytes
  have hflagsBytes : pack 4 (unpack flagsBytes) = flagsBytes := hl₅ ▸ pack_unpack flagsBytes
  have hversion : unpack versionBytes < 256 ^ 2 := hl₂ ▸ unpack_lt versionBytes
  have hflags : unpack flagsBytes < 256 ^ 4 := hl₅ ▸ unpack_lt flagsBytes
  have hversionMax : VERSION_MAX + 1 = 256 ^ 2 := rfl
  have hflagsMax : FLAGS_MAX + 1 = 256 ^ 4 := rfl
  refine ⟨_, encodeHandshake_eq_ok.mpr ⟨⟨?_, hcluster, hsilo, ?_⟩, rfl⟩, ?_⟩
  · dsimp only
    omega
  · dsimp only
    omega
  · dsimp only
    rw [Int.toNat_natCast, Int.toNat_natCast, hmagicBytes, hversionBytes, hflagsBytes, hr₁,
      hr₂, hr₃, hr₄, hr₅]
    simp only [List.append_assoc]

theorem readHandshake_complete (hencode : encodeHandshake h = .ok bytes)
    (hr : reader.remaining = bytes ++ rest) :
    ∃ reader', readHandshake reader = .ok (h, reader') ∧ reader'.remaining = rest := by
  obtain ⟨hfits, rfl⟩ := encodeHandshake_eq_ok.mp hencode
  obtain ⟨⟨hversion, hversionMax⟩, hcluster, hsilo, hflags, hflagsMax⟩ := hfits
  have hmax16 : VERSION_MAX + 1 = 256 ^ 2 := rfl
  have hmax32 : FLAGS_MAX + 1 = 256 ^ 4 := rfl
  rw [List.append_assoc, List.append_assoc, List.append_assoc, List.append_assoc] at hr
  obtain ⟨reader₁, h₁, hr₁⟩ :=
    StreamReader.readexactlyOrRaise_append (truncationToHandshakeError 4) hr
  obtain ⟨reader₂, h₂, hr₂⟩ :=
    StreamReader.readexactlyOrRaise_append (truncationToHandshakeError 2) hr₁
  obtain ⟨reader₃, h₃, hr₃⟩ := readBoundedString_append "cluster_id" hcluster hr₂
  obtain ⟨reader₄, h₄, hr₄⟩ := readBoundedString_append "silo_id" hsilo hr₃
  obtain ⟨reader₅, h₅, hr₅⟩ :=
    StreamReader.readexactlyOrRaise_append (truncationToHandshakeError 4) hr₄
  have hunmagic : unpack (pack 4 MAGIC) = MAGIC := unpack_pack 4 MAGIC (by decide)
  have hunversion := unpack_pack 2 h.protocolVersion.toNat (by omega)
  have hunflags := unpack_pack 4 h.roleFlags.toNat (by omega)
  rw [length_pack] at h₁ h₂ h₅
  refine ⟨reader₅, ?_, hr₅⟩
  unfold readHandshake readexactly
  rw [h₁, ok_bind]
  dsimp only
  rw [hunmagic, if_neg (not_not.mpr rfl), h₂, ok_bind]
  dsimp only
  rw [h₃, ok_bind]
  dsimp only
  rw [h₄, ok_bind]
  dsimp only
  rw [h₅, ok_bind]
  dsimp only
  rw [hunversion, hunflags, Int.toNat_of_nonneg hversion, Int.toNat_of_nonneg hflags]

theorem readHandshake_error (hread : readHandshake reader = .error e) :
    ∃ text, e = .handshakeError text := by
  rcases bind_eq_error.mp hread with hread | ⟨⟨magicBytes, reader₁⟩, -, hread⟩
  · exact readexactly_error hread
  dsimp only at hread
  split_ifs at hread
  · exact ⟨_, (Except.error.inj hread).symm⟩
  rcases bind_eq_error.mp hread with hread | ⟨⟨versionBytes, reader₂⟩, -, hread⟩
  · exact readexactly_error hread
  rcases bind_eq_error.mp hread with hread | ⟨⟨clusterId, reader₃⟩, -, hread⟩
  · exact readBoundedString_error hread
  rcases bind_eq_error.mp hread with hread | ⟨⟨siloId, reader₄⟩, -, hread⟩
  · exact readBoundedString_error hread
  rcases bind_eq_error.mp hread with hread | ⟨⟨flagsBytes, reader₅⟩, -, hread⟩
  · exact readexactly_error hread
  · cases hread

/-- Which handshakes have bytes; reading gives a handshake exactly off a stream
that begins with its bytes and leaves what is behind them; on every other
stream it raises `HandshakeError`. -/
theorem handshakes_read_back :
    (∀ h : Handshake, (∃ bytes, encodeHandshake h = .ok bytes) ↔ Encodable h) ∧
    (∀ (reader : HandshakeReader) (h : Handshake) (rest : List UInt8),
      (∃ reader', readHandshake reader = .ok (h, reader') ∧ reader'.remaining = rest) ↔
        ∃ bytes, encodeHandshake h = .ok bytes ∧ reader.remaining = bytes ++ rest) ∧
    ∀ reader : HandshakeReader,
      (∃ h bytes rest, encodeHandshake h = .ok bytes ∧ reader.remaining = bytes ++ rest) ∨
        ∃ text, readHandshake reader = .error (.handshakeError text) := by
  refine ⟨fun h ↦ encodeHandshake_succeeds, fun reader h rest ↦ ⟨?_, ?_⟩, fun reader ↦ ?_⟩
  · rintro ⟨reader', hread, rfl⟩
    exact readHandshake_sound hread
  · rintro ⟨bytes, hencode, hr⟩
    exact readHandshake_complete hencode hr
  · cases hread : readHandshake reader with
    | ok result =>
      obtain ⟨h, reader'⟩ := result
      obtain ⟨bytes, hencode, hr⟩ := readHandshake_sound hread
      exact .inl ⟨_, bytes, _, hencode, hr⟩
    | error e =>
      obtain ⟨text, rfl⟩ := readHandshake_error hread
      exact .inr ⟨text, rfl⟩

example : readHandshake ⟨[0x50], [[0x4C, 0x4E], [0x54]]⟩ =
    .error (.handshakeError "magic number mismatch: got 0x504c4e54") := rfl

example : readHandshake ⟨[], [[0x50, 0x4C, 0x4E, 0x53, 0, 1, 0, 0], [1, 1, 65, 66]]⟩ =
    .error (.handshakeError "cluster_id length 257 exceeds MAX_HANDSHAKE_STRING 256") := rfl

end Handshake

end Pyleans
