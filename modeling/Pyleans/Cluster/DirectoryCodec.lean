import Pyleans.Cluster.DirectoryMessages
import Pyleans.Library.Json
import Pyleans.Server.StandDown

namespace Pyleans

open Library Json Fallible

structure RegisterRequest where
  grainId : GrainId
  silo : SiloAddress
deriving DecidableEq

structure LookupRequest where
  grainId : GrainId
deriving DecidableEq

structure UnregisterRequest where
  grainId : GrainId
  silo : SiloAddress
deriving DecidableEq

structure ResolveRequest where
  grainId : GrainId
  placementClass : String
  caller : Option SiloAddress
deriving DecidableEq

structure HandoffRequest where
  entry : DirectoryEntry
deriving DecidableEq

structure RebuildQueryRequest where
  arcs : List Arc
deriving DecidableEq

structure RebuildQueryResponse where
  entries : List DirectoryEntry
deriving DecidableEq

def splitLastColon (cs : List Char) : Option (List Char × List Char) :=
  match cs.reverse.dropWhile (· ≠ ':') with
  | [] => none
  | _ :: before => some (before.reverse, (cs.reverse.takeWhile (· ≠ ':')).reverse)

/-- `silo_id.rsplit(":", 2)`, when that has three parts. -/
def rsplitColons (siloId : String) : Option (String × String × String) := do
  let (rest, epoch) ← splitLastColon siloId.toList
  let (host, port) ← splitLastColon rest
  some (String.ofList host, String.ofList port, String.ofList epoch)

namespace DirectoryCodec

variable [PythonRepr]

section

variable [IntDigitLimit]

def fromSiloId (siloId : String) : Except PyException SiloAddress :=
  match rsplitColons siloId with
  | none =>
    .error (.valueError
      s!"invalid silo id {PythonRepr.reprText (.string siloId)}: expected host:port:epoch")
  | some (host, port, epoch) =>
    (do .ok ⟨host, ← toInt (.string port), ← toInt (.string epoch)⟩ :
      Except PyException SiloAddress).mapError
      (PyException.rewrap s!"invalid silo id {PythonRepr.reprText (.string siloId)}"
        PyException.isValueError)

def grainIdToDict (g : GrainId) : Json :=
  .object [("grain_type", .string g.grainType), ("key", .string g.key)]

def grainIdFromDict : Json → Except PyException GrainId
  | .object obj =>
    (do .ok ⟨toStr (← getItem obj "grain_type"), toStr (← getItem obj "key")⟩ :
      Except PyException GrainId).mapError
      (PyException.rewrap "grain_id fields" PyException.isKeyOrTypeError)
  | _ => .error (.valueError "grain_id must be an object")

def siloToStr (s : SiloAddress) : Json := .string s.siloId

def siloFromStr : Json → Except PyException SiloAddress
  | .string value => fromSiloId value
  | _ => .error (.valueError "silo must be a silo-id string")

def entryToDict (entry : DirectoryEntry) : Json :=
  .object [("grain_id", grainIdToDict entry.grainId), ("silo", siloToStr entry.silo),
    ("activation_epoch", .int entry.activationEpoch)]

def entryFromDict : Json → Except PyException DirectoryEntry
  | .object obj =>
    (do
      let grainId ← grainIdFromDict (← getItem obj "grain_id")
      let silo ← siloFromStr (← getItem obj "silo")
      let activationEpoch ← toInt (← getItem obj "activation_epoch")
      .ok ⟨grainId, silo, activationEpoch⟩ : Except PyException DirectoryEntry).mapError
      (PyException.rewrap "entry fields" PyException.isKeyTypeOrValueError)
  | _ => .error (.valueError "entry must be an object")

section

variable {Bytes : Type} (c : JsonCodec Bytes)

def load (data : Bytes) : Except PyException (List (String × Json)) :=
  c.loadObject "invalid directory-rpc bytes" "directory-rpc body must be a JSON object" data

def encodeRegister (req : RegisterRequest) : Bytes :=
  c.dumps (.object [("grain_id", grainIdToDict req.grainId), ("silo", siloToStr req.silo)])

def decodeRegister (data : Bytes) : Except PyException RegisterRequest := do
  let obj ← load c data
  let grainId ← grainIdFromDict (← getItem obj "grain_id")
  let silo ← siloFromStr (← getItem obj "silo")
  .ok ⟨grainId, silo⟩

def encodeLookup (req : LookupRequest) : Bytes :=
  c.dumps (.object [("grain_id", grainIdToDict req.grainId)])

def decodeLookup (data : Bytes) : Except PyException LookupRequest := do
  let obj ← load c data
  let grainId ← grainIdFromDict (← getItem obj "grain_id")
  .ok ⟨grainId⟩

def encodeUnregister (req : UnregisterRequest) : Bytes :=
  c.dumps (.object [("grain_id", grainIdToDict req.grainId), ("silo", siloToStr req.silo)])

def decodeUnregister (data : Bytes) : Except PyException UnregisterRequest := do
  let obj ← load c data
  let grainId ← grainIdFromDict (← getItem obj "grain_id")
  let silo ← siloFromStr (← getItem obj "silo")
  .ok ⟨grainId, silo⟩

def encodeResolve (req : ResolveRequest) : Bytes :=
  c.dumps (.object [
    ("grain_id", grainIdToDict req.grainId),
    ("placement_class", .string req.placementClass),
    ("caller", ofOption siloToStr req.caller)])

def decodeResolve (data : Bytes) : Except PyException ResolveRequest := do
  let obj ← load c data
  let grainId ← grainIdFromDict (← getItem obj "grain_id")
  let placementClass := toStr (← getItem obj "placement_class")
  let caller ← (present obj "caller").mapM siloFromStr
  .ok ⟨grainId, placementClass, caller⟩

def encodeEntry (entry : Option DirectoryEntry) : Bytes :=
  c.dumps (.object [("entry", ofOption entryToDict entry)])

def decodeEntry (data : Bytes) : Except PyException (Option DirectoryEntry) := do
  let obj ← load c data
  (present obj "entry").mapM entryFromDict

def encodeNone : Bytes := c.dumps (.object [("ok", .bool true)])

def decodeNone (data : Bytes) : Except PyException Unit := do
  let obj ← load c data
  if ((obj.lookup "ok").getD (.bool false)).truthy then .ok ()
  else .error (.valueError "response missing ok=true")

def encodeHandoff (req : HandoffRequest) : Bytes :=
  c.dumps (.object [("entry", entryToDict req.entry)])

def decodeHandoff (data : Bytes) : Except PyException HandoffRequest := do
  let obj ← load c data
  let entry ← entryFromDict (← getItem obj "entry")
  .ok ⟨entry⟩

def encodeDeactivate (req : DeactivateRequest) : Bytes :=
  c.dumps (.object [
    ("grain_id", grainIdToDict req.grainId), ("activation_epoch", .int req.activationEpoch)])

def decodeDeactivate (data : Bytes) : Except PyException DeactivateRequest := do
  let obj ← load c data
  let grainId ← grainIdFromDict (← getItem obj "grain_id")
  let activationEpoch ← toInt (← getItem obj "activation_epoch")
  .ok ⟨grainId, activationEpoch⟩

def arcToDict (a : Arc) : Json := .object [("start", .int a.start), ("end", .int a.end_)]

/-- An arc; `none` of what is no object. -/
def arcFromDict : Json → Except PyException (Option Arc)
  | .object a => do
    let start ← toInt (← getItem a "start")
    let end_ ← toInt (← getItem a "end")
    .ok (some ⟨start, end_⟩)
  | _ => .ok none

def encodeRebuildQuery (req : RebuildQueryRequest) : Bytes :=
  c.dumps (.object [("arcs", .array (req.arcs.map arcToDict))])

def decodeRebuildQuery (data : Bytes) : Except PyException RebuildQueryRequest := do
  let obj ← load c data
  match (obj.lookup "arcs").getD (.array []) with
  | .array rawArcs =>
    let arcs ← rawArcs.mapM arcFromDict
    .ok ⟨arcs.filterMap id⟩
  | _ => .error (.valueError "arcs must be a list")

def encodeRebuildResponse (resp : RebuildQueryResponse) : Bytes :=
  c.dumps (.object [("entries", .array (resp.entries.map entryToDict))])

def decodeRebuildResponse (data : Bytes) : Except PyException RebuildQueryResponse := do
  let obj ← load c data
  match (obj.lookup "entries").getD (.array []) with
  | .array raw =>
    let entries ← raw.mapM entryFromDict
    .ok ⟨entries⟩
  | _ => .error (.valueError "entries must be a list")

end

end

section

-- The JSON round trip that is assumed here, of integers of any length, is that of an interpreter
-- without a limit.
attribute [local instance] IntDigitLimit.unlimited

omit [PythonRepr] in
theorem splitLastColon_append {a b : List Char} (hb : ':' ∉ b) :
    splitLastColon (a ++ ':' :: b) = some (a, b) := by
  have hreverse : (a ++ ':' :: b).reverse = b.reverse ++ ':' :: a.reverse := by simp
  have hall : ∀ x ∈ b.reverse, decide (x ≠ ':') = true := by
    rintro x hx
    exact decide_eq_true fun h ↦ hb (h ▸ List.mem_reverse.mp hx)
  rw [splitLastColon, hreverse, List.dropWhile_append_of_pos hall,
    List.takeWhile_append_of_pos hall]
  simp

omit [PythonRepr] in
theorem rsplitColons_siloId (s : SiloAddress) :
    rsplitColons s.siloId = some (s.host, s.port.repr, s.epoch.repr) := by
  rw [rsplitColons, siloId_toList, splitLastColon_append (colon_not_mem_intRepr _)]
  dsimp only [Option.bind_eq_bind, Option.bind_some]
  rw [splitLastColon_append (colon_not_mem_intRepr _)]
  simp

/-- A silo id has the address in it, whatever colons are in the host. -/
theorem fromSiloId_siloId (s : SiloAddress) : fromSiloId s.siloId = .ok s := by
  rw [fromSiloId, rsplitColons_siloId]
  dsimp only
  rw [toInt_repr, toInt_repr]
  rfl

theorem siloFromStr_toStr (s : SiloAddress) : siloFromStr (siloToStr s) = .ok s :=
  fromSiloId_siloId s

theorem entryFromDict_toDict (entry : DirectoryEntry) :
    entryFromDict (entryToDict entry) = .ok entry := by
  calc entryFromDict (entryToDict entry)
    _ = Except.mapError (PyException.rewrap "entry fields" PyException.isKeyTypeOrValueError)
        (siloFromStr (siloToStr entry.silo) >>= fun silo ↦
          .ok ⟨entry.grainId, silo, entry.activationEpoch⟩) := rfl
    _ = .ok entry := by
      rw [siloFromStr_toStr]
      rfl

omit [PythonRepr] in
@[simp] theorem wellFormed_grainId (g : GrainId) : (grainIdToDict g).WellFormed := by
  simp [grainIdToDict]

omit [PythonRepr] in
@[simp] theorem wellFormed_silo (s : SiloAddress) : (siloToStr s).WellFormed := .string _

omit [PythonRepr] in
@[simp] theorem wellFormed_entry (entry : DirectoryEntry) : (entryToDict entry).WellFormed := by
  simp [entryToDict]

omit [PythonRepr] in
@[simp] theorem wellFormed_arc (a : Arc) : (arcToDict a).WellFormed := by simp [arcToDict]

section

variable {Bytes : Type} {c : JsonCodec Bytes}

omit [PythonRepr] in
theorem load_dumps (hc : c.RoundTrips) {fields : List (String × Json)}
    (hfields : (Json.object fields).WellFormed) :
    load c (c.dumps (.object fields)) = .ok fields := hc.loadObject _ _ hfields

theorem decodeRegister_encode (hc : c.RoundTrips) (req : RegisterRequest) :
    decodeRegister c (encodeRegister c req) = .ok req := by
  rw [decodeRegister, encodeRegister, load_dumps hc (by simp)]
  calc (siloFromStr (siloToStr req.silo) >>= fun silo ↦
    .ok ⟨req.grainId, silo⟩ : Except _ RegisterRequest)
    _ = .ok req := by rw [siloFromStr_toStr]; rfl

theorem decodeLookup_encode (hc : c.RoundTrips) (req : LookupRequest) :
    decodeLookup c (encodeLookup c req) = .ok req := by
  rw [decodeLookup, encodeLookup, load_dumps hc (by simp)]
  rfl

theorem decodeUnregister_encode (hc : c.RoundTrips) (req : UnregisterRequest) :
    decodeUnregister c (encodeUnregister c req) = .ok req := by
  rw [decodeUnregister, encodeUnregister, load_dumps hc (by simp)]
  calc (siloFromStr (siloToStr req.silo) >>= fun silo ↦
    .ok ⟨req.grainId, silo⟩ : Except _ UnregisterRequest)
    _ = .ok req := by rw [siloFromStr_toStr]; rfl

theorem decodeResolve_encode (hc : c.RoundTrips) (req : ResolveRequest) :
    decodeResolve c (encodeResolve c req) = .ok req := by
  have hnull : ∀ s, siloToStr s ≠ .null := fun _ h ↦ nomatch h
  have hcaller : (present
    [("grain_id", grainIdToDict req.grainId), ("placement_class", .string req.placementClass),
      ("caller", ofOption siloToStr req.caller)] "caller").mapM siloFromStr = .ok req.caller :=
    present_mapM hnull siloFromStr_toStr rfl
  rw [decodeResolve, encodeResolve, load_dumps hc (by simp [wellFormed_ofOption])]
  calc (Option.mapM siloFromStr _ >>= fun caller ↦ .ok ⟨req.grainId, req.placementClass, caller⟩ :
      Except _ ResolveRequest)
    _ = .ok req := by rw [hcaller]; rfl

theorem decodeEntry_encode (hc : c.RoundTrips) (entry : Option DirectoryEntry) :
    decodeEntry c (encodeEntry c entry) = .ok entry := by
  have hnull : ∀ e, entryToDict e ≠ .null := fun _ h ↦ nomatch h
  rw [decodeEntry, encodeEntry, load_dumps hc (by simp [wellFormed_ofOption])]
  exact present_mapM hnull entryFromDict_toDict rfl

omit [PythonRepr] in
theorem decodeNone_encode (hc : c.RoundTrips) : decodeNone c (encodeNone c) = .ok () := by
  rw [decodeNone, encodeNone, load_dumps hc (by simp)]
  rfl

theorem decodeHandoff_encode (hc : c.RoundTrips) (req : HandoffRequest) :
    decodeHandoff c (encodeHandoff c req) = .ok req := by
  rw [decodeHandoff, encodeHandoff, load_dumps hc (by simp)]
  calc (entryFromDict (entryToDict req.entry) >>= fun entry ↦ .ok ⟨entry⟩ : Except _ HandoffRequest)
    _ = .ok req := by rw [entryFromDict_toDict]; rfl

theorem decodeDeactivate_encode (hc : c.RoundTrips) (req : DeactivateRequest) :
    decodeDeactivate c (encodeDeactivate c req) = .ok req := by
  rw [decodeDeactivate, encodeDeactivate, load_dumps hc (by simp)]
  rfl

theorem mapM_arcFromDict (arcs : List Arc) : (arcs.map arcToDict).mapM arcFromDict = .ok
    (arcs.map some) := by
  induction arcs with
  | nil => rfl
  | cons a arcs ih =>
    rw [List.map_cons, List.mapM_cons, ih]
    rfl

theorem decodeRebuildQuery_encode (hc : c.RoundTrips) (req : RebuildQueryRequest) :
    decodeRebuildQuery c (encodeRebuildQuery c req) = .ok req := by
  rw [decodeRebuildQuery, encodeRebuildQuery, load_dumps hc (by simp)]
  calc ((req.arcs.map arcToDict).mapM arcFromDict >>= fun arcs ↦
    .ok ⟨arcs.filterMap id⟩ : Except _ RebuildQueryRequest)
    _ = .ok req := by
      rw [mapM_arcFromDict, ok_bind, List.filterMap_map]
      simp

theorem decodeRebuildResponse_encode (hc : c.RoundTrips) (resp : RebuildQueryResponse) :
    decodeRebuildResponse c (encodeRebuildResponse c resp) = .ok resp := by
  rw [decodeRebuildResponse, encodeRebuildResponse, load_dumps hc (by simp)]
  calc ((resp.entries.map entryToDict).mapM entryFromDict >>= fun entries ↦ .ok ⟨entries⟩ :
      Except _ RebuildQueryResponse)
    _ = .ok resp := by
      rw [mapM_map_ok entryFromDict_toDict]
      rfl

/-- Every message is read back from its bytes. -/
theorem directory_messages_read_back (hc : c.RoundTrips) :
    (∀ req, decodeRegister c (encodeRegister c req) = .ok req) ∧
    (∀ req, decodeLookup c (encodeLookup c req) = .ok req) ∧
    (∀ req, decodeUnregister c (encodeUnregister c req) = .ok req) ∧
    (∀ req, decodeResolve c (encodeResolve c req) = .ok req) ∧
    (∀ entry, decodeEntry c (encodeEntry c entry) = .ok entry) ∧
    decodeNone c (encodeNone c) = .ok () ∧
    (∀ req, decodeHandoff c (encodeHandoff c req) = .ok req) ∧
    (∀ req, decodeDeactivate c (encodeDeactivate c req) = .ok req) ∧
    (∀ req, decodeRebuildQuery c (encodeRebuildQuery c req) = .ok req) ∧
    ∀ resp, decodeRebuildResponse c (encodeRebuildResponse c resp) = .ok resp :=
  ⟨decodeRegister_encode hc, decodeLookup_encode hc, decodeUnregister_encode hc,
    decodeResolve_encode hc,
    decodeEntry_encode hc, decodeNone_encode hc, decodeHandoff_encode hc,
      decodeDeactivate_encode hc,
    decodeRebuildQuery_encode hc, decodeRebuildResponse_encode hc⟩

end

omit [PythonRepr] in
theorem directory_messages_read_back_ipv6 :
    let req : HandoffRequest := ⟨⟨counter1, ⟨"fe80::1", 11111, 1⟩, 3⟩⟩
    @decodeHandoff Json.plainRepr .unlimited Json .transparent
      (encodeHandoff .transparent req) = .ok req :=
  (@directory_messages_read_back Json.plainRepr Json .transparent
    JsonCodec.transparent_roundTrips).2.2.2.2.2.2.1 _

end

end DirectoryCodec

end Pyleans
