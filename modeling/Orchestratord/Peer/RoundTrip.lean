import Orchestratord.Peer.Signature

/-! # Frames survive the wire

A frame is read back as it was sent, whatever the threshold of compression, and so is what its
signature covers. -/

namespace Orchestratord.Peer

open Foundation Json Encodable List

namespace PeerFrame

variable {rt : Runtime} {frame : PeerFrame}

/-! ## Reading the fields back -/

theorem optionalFields_nodup : (frame.optionalFields.map Prod.fst).Nodup := by
  simp only [optionalFields, map_cons]
  decide

variable {key : String}

theorem get_toDict_header (hkey : key ∈ ["type", "frame_id", "protocol_version", "timestamp"]) :
    .get frame.toDict key = get [("type", .str frame.type.value), ("frame_id", .str frame.frameId),
        ("protocol_version", .str frame.protocolVersion), ("timestamp", .float frame.timestamp)]
      key := by
  unfold toDict
  rw [append_assoc, get_append, if_pos (by simpa using hkey)]

/-- The entry of the body, if there is one, is the last. -/
theorem get_toDict (hkey : key ∉ ["type", "frame_id", "protocol_version", "timestamp"]) :
    .get frame.toDict key = if key = "body" then .ofFields frame.body
      else if (get frame.optionalFields key).isBlank then .null
      else get frame.optionalFields key := by
  have hop : .get (frame.optionalFields.filter (! ·.2.isBlank)) key =
      if (get frame.optionalFields key).isBlank then .null
      else get frame.optionalFields key := by
    rw [get_filter optionalFields_nodup (! ·.isBlank)]
    cases (get frame.optionalFields key).isBlank <;> rfl
  have hbo : get frame.bodyField key = if key = "body" then .ofFields frame.body else .null := by
    unfold bodyField
    cases frame.body with
    | none => exact (ite_self _).symm
    | some => exact get_cons _ _ _
  unfold toDict
  rw [append_assoc, get_append, if_neg (by simpa using hkey), get_append, hbo, hop]
  by_cases hkey : key = "body"
  · subst hkey
    have hab : "body" ∉ (frame.optionalFields.filter (! ·.2.isBlank)).map Prod.fst := by
      intro hmem
      have hmem := (filter_sublist.map Prod.fst).subset hmem
      simp [optionalFields] at hmem
    rw [if_neg hab, if_pos rfl, if_pos rfl]
  · split
    · rfl
    case isFalse hab => rw [← hop, get_of_notMem hab]

/-- What stands on the wire for an object: itself, or its compressed text. -/
def Slot (rt : Runtime) (compressed : Bool) (object : Option Json.Fields) (value : Json) : Prop :=
  if compressed then ∃ fields, object = some fields ∧ value = .str (rt.pack (rt.dumps (.obj fields)))
  else value = .ofFields object

variable {data : Json.Fields} {object : Option Json.Fields}

theorem readObject_of_slot (comp : Bool) {compressed : Bool}
    (h : Slot rt compressed object (.get data key))
    (hco : compressed → comp) : readObject rt comp data key = .ok object := by
  unfold readObject
  cases compressed with
  | true =>
    obtain ⟨_, rfl, hva⟩ := h
    rw [hva, hco rfl]
    dsimp only
    rw [rt.unpack_pack]
    dsimp only [Option.bind]
    rw [rt.loads_dumps]
  | false =>
    have h : get data key = .ofFields object := h
    rw [h]
    cases object <;> cases comp <;> rfl

/-- Compressing under one key leaves the others as they are. -/
theorem get_compressField (rt : Runtime) (threshold : Int) (d : Json.Fields) {other : String}
    (hot : other ≠ key) : .get (compressField rt threshold d key).1 other = get d other := by
  unfold compressField
  split
  · dsimp only
    split
    · rfl
    · rw [get_set, if_neg hot]
  · rfl

theorem slot_compressField (rt : Runtime) (threshold : Int) {d : Json.Fields}
    (h : get d key = .ofFields object) : Slot rt (compressField rt threshold d key).2 object
      (.get (compressField rt threshold d key).1 key) := by
  unfold compressField
  rw [h]
  rcases object with _ | fields
  · exact h
  dsimp only [ofFields]
  split
  · exact h
  · refine ⟨fields, rfl, ?_⟩
    rw [get_set, if_pos rfl]

/-- Everything but the two objects and the mark of compression stands on the line as it is. -/
theorem get_wire (rt : Runtime) (minBytes : Int) (hkey : key ∉ ["body", "payload", "comp"]) :
    .get (wire rt minBytes frame) key = get frame.toDict key := by
  simp only [mem_cons, not_mem_nil, or_false, not_or] at hkey
  have hse : .get (compressField rt minBytes
      (compressField rt minBytes frame.toDict "body").1 "payload").1 key =
      get frame.toDict key := by
    rw [get_compressField rt minBytes _ hkey.2.1, get_compressField rt minBytes _ hkey.1]
  unfold wire
  split
  case isFalse => rfl
  dsimp only [compress]
  split
  · rw [get_set, if_neg hkey.2.2, hse]
  · exact hse

/-- What a reader finds on the line: the two objects in their slots, with the mark of compression
if one is compressed. -/
theorem wire_spec (rt : Runtime) (minBytes : Int) (hpa : frame.payload ≠ some []) :
    ∃ body payload : Bool, Slot rt body frame.body (.get (wire rt minBytes frame) "body") ∧
      Slot rt payload frame.payload (get (wire rt minBytes frame) "payload") ∧
      get (wire rt minBytes frame) "comp" =
        (if body || payload then .str compressGzipBase64 else .null) := by
  have hbo : get frame.toDict "body" = .ofFields frame.body := by
    rw [get_toDict (by decide), if_pos rfl]
  have hpa : get frame.toDict "payload" = .ofFields frame.payload := by
    rw [get_toDict (by decide)]
    show (if (ofFields frame.payload).isBlank then _ else ofFields frame.payload) = _
    rcases hp : frame.payload with _ | _ | ⟨entry, rest⟩
    · rfl
    · exact absurd hp hpa
    · rfl
  have hco : get frame.toDict "comp" = .null := by
    rw [get_toDict (by decide), if_neg (by decide)]
    exact ite_self _
  unfold wire
  split
  case isFalse => exact ⟨false, false, hbo, hpa, hco⟩
  unfold compress
  have hfi := slot_compressField rt minBytes hbo
  have hpa' : get (compressField rt minBytes frame.toDict "body").1 "payload" = _ :=
    (get_compressField rt minBytes _ (by decide)).trans hpa
  have hco' : get (compressField rt minBytes frame.toDict "body").1 "comp" = _ :=
    (get_compressField rt minBytes _ (by decide)).trans hco
  dsimp only
  generalize compressField rt minBytes frame.toDict "body" = first at *
  have hse := slot_compressField rt minBytes hpa'
  rw [← get_compressField rt minBytes first.1 (by decide : "body" ≠ "payload")] at hfi
  rw [← get_compressField rt minBytes first.1 (by decide : "comp" ≠ "payload")] at hco'
  generalize compressField rt minBytes first.1 "payload" = second at *
  refine ⟨first.2, second.2, ?_⟩
  split
  case isFalse => exact ⟨hfi, hse, hco'⟩
  · simp only [get_set]
    exact ⟨hfi, hse, rfl⟩

/-- The unchecked fields hold what their annotations say. -/
structure Annotated (frame : PeerFrame) : Prop where
  text : ∀ value ∈ [frame.orchId, frame.peerToken, frame.requestId, frame.msgId, frame.ordering,
    frame.method, frame.topic, frame.nonce, frame.signature], value = .null ∨ ∃ s, value = .str s
  number : ∀ value ∈ [frame.status, frame.inFlight], value = .null ∨ ∃ n, value = .int n

variable {value : Json}

/-- A field that is left out is read as the nothing that it held. -/
theorem get_toDict_optional
    (hkey : key ∉ ["type", "frame_id", "protocol_version", "timestamp", "body"])
    (hget : .get frame.optionalFields key = value) (hbl : value.isBlank → value = .null) :
    get frame.toDict key = value := by
  simp only [mem_cons, not_mem_nil, or_false, not_or] at hkey
  rw [get_toDict (by simp [hkey]), if_neg hkey.2.2.2.2, hget]
  split
  case isTrue h => exact (hbl h).symm
  · rfl

theorem lookup_of_get {fields : Json.Fields} (h : .get fields key = value)
    (hva : value ≠ .null) : fields.lookup key = some value := by
  unfold Json.get at h
  rcases hlo : fields.lookup key with _ | found
  · rw [hlo] at h
    exact absurd h.symm hva
  · rw [hlo] at h
    exact congrArg some h

section

variable (h : ∀ key, key ∉ ["body", "payload", "comp"] → .get data key = get frame.toDict key)
include h

/-- The line's fixed fields are read back. -/
theorem read_header (rt : Runtime) (hid : frame.frameId ≠ "")
    (hve : frame.protocolVersion = Peer.protocolVersion) (fresh : String) (now : ℚ) :
    readType rt data = .ok frame.type ∧ readVersion rt data = .ok frame.protocolVersion ∧
      readTimestamp rt now data = .ok frame.timestamp ∧
      readFrameId rt fresh data = .ok frame.frameId := by
  obtain ⟨hty, hpr, hti, hfr⟩ : get data "type" = .str frame.type.value ∧
      get data "protocol_version" = .str frame.protocolVersion ∧
      get data "timestamp" = .float frame.timestamp ∧
      get data "frame_id" = .str frame.frameId := by
    refine ⟨?_, ?_, ?_, ?_⟩
    all_goals
      rw [h _ (by decide), get_toDict_header (by decide)]
      simp [get_cons]
  refine ⟨?_, ?_, ?_, ?_⟩
  · simp [readType, hty, PeerFrameType.ofValue_value]
  · simp [readVersion, lookup_of_get hpr, hve]
  · simp [readTimestamp, lookup_of_get hti]
  · simp [readFrameId, hfr, hid]

/-- So are those that were left out if they held nothing. -/
theorem get_optional
    (hkey : key ∉ ["type", "frame_id", "protocol_version", "timestamp", "body", "payload", "comp"])
    (hget : get frame.optionalFields key = value)
    (hbl : value.isBlank → value = .null) : get data key = value := by
  simp only [mem_cons, not_or] at hkey
  rw [h key (by simp [hkey]), get_toDict_optional (by simp [hkey]) hget hbl]

theorem read_capabilities : readCapabilities data = .ok frame.capabilities := by
  have hget : get data "capabilities" =
      if (arr frame.capabilities).isBlank then .null else .arr frame.capabilities := by
    rw [h _ (by decide), get_toDict (by decide)]
    simp [optionalFields, get_cons]
  unfold readCapabilities
  rw [hget]
  cases frame.capabilities with
  | nil | cons => rfl

omit h in
theorem Annotated.blank (han : frame.Annotated)
    (hva : value ∈ [frame.orchId, frame.peerToken, frame.requestId, frame.msgId, frame.ordering,
      frame.method, frame.topic, frame.nonce, frame.signature] ∨
      value ∈ [frame.status, frame.inFlight]) : value.isBlank → value = .null := by
  intro hbl
  rcases hva with hva | hva
  · rcases han.text value hva with rfl | ⟨s, rfl⟩
    · rfl
    · cases hbl
  · rcases han.number value hva with rfl | ⟨n, rfl⟩
    · rfl
    · cases hbl

theorem fields?_headers (hhe : frame.headers ≠ some []) :
    (get data "headers").fields? = frame.headers := by
  have hget : get frame.optionalFields "headers" = .ofFields frame.headers := by
    simp [optionalFields, get_cons]
  have hbl : (ofFields frame.headers).isBlank → ofFields frame.headers = .null := by
    rcases hh : frame.headers with _ | _ | ⟨entry, rest⟩
    · exact fun _ => rfl
    · exact absurd hh hhe
    · exact (nomatch ·)
  rw [get_optional h (by decide) hget hbl]
  exact fields?_ofFields _

end

variable {fresh : String} {now : ℚ} {minBytes : Int}

theorem fromDict_wire (hid : frame.frameId ≠ "")
    (hve : frame.protocolVersion = Peer.protocolVersion) (han : frame.Annotated)
    (hhe : frame.headers ≠ some []) (hpa : frame.payload ≠ some []) :
    fromDict rt fresh now (.obj (wire rt minBytes frame)) = .ok frame := by
  obtain ⟨body, payload, hbo, hpay, hco⟩ := wire_spec rt minBytes hpa
  have hel : ∀ key, key ∉ ["body", "payload", "comp"] →
      .get (wire rt minBytes frame) key = get frame.toDict key := fun key hkey =>
    get_wire rt minBytes hkey
  generalize wire rt minBytes frame = data at *
  obtain ⟨hty, hpr, hti, hfr⟩ := read_header hel rt hid hve fresh now
  have hre : readComp rt data = .ok (body || payload) := by
    unfold readComp
    rw [hco]
    cases body || payload with
    | true | false => rfl
  have hbo := readObject_of_slot (body || payload) hbo (by simp +contextual)
  have hpay := readObject_of_slot (body || payload) hpay (by simp +contextual)
  have hca := read_capabilities hel
  have hhe := fields?_headers hel hhe
  have hsa : ∀ entry ∈ [("orch_id", frame.orchId), ("peer_token", frame.peerToken),
      ("request_id", frame.requestId), ("msg_id", frame.msgId), ("ordering", frame.ordering),
      ("method", frame.method), ("status", frame.status), ("topic", frame.topic),
      ("in_flight", frame.inFlight), ("nonce", frame.nonce), ("signature", frame.signature)],
      get data entry.1 = entry.2 := by
    simp only [forall_mem_cons, not_mem_nil, false_imp_iff, implies_true, and_true]
    refine ⟨?_, ?_, ?_, ?_, ?_, ?_, ?_, ?_, ?_, ?_, ?_⟩ <;>
      exact get_optional hel (by decide) (by simp [optionalFields, get_cons]) (han.blank (by simp))
  simp only [forall_mem_cons] at hsa
  unfold fromDict
  simp only [hty, hpr, hti, hfr, hre, hbo, hpay, hca, hhe, hsa, bind, Except.bind]

theorem decode_encode_of_annotated (hid : frame.frameId ≠ "")
    (hve : frame.protocolVersion = Peer.protocolVersion) (han : frame.Annotated)
    (hhe : frame.headers ≠ some []) (hpa : frame.payload ≠ some []) :
    decode rt fresh now (encode rt minBytes frame) = .ok frame := by
  unfold decode encode
  rw [rt.loads_newline, rt.loads_dumps]
  exact fromDict_wire hid hve han hhe hpa

/-- Signing writes the nonce and the signature, and covers neither. -/
theorem sign_ok {token : String} {signed : PeerFrame} (h : sign rt token fresh frame = .ok signed) :
    ∃ payload nonce, signaturePayload rt frame = some payload ∧
      (frame.nonce = .null → nonce = .str fresh) ∧ (frame.nonce ≠ .null → nonce = frame.nonce) ∧
      signed = { frame with nonce, signature := .str (rt.hmac token payload) } := by
  unfold sign at h
  split at h
  · cases h
  split at h
  · cases h
  split at h
  · cases h
  rename_i payload hpa
  cases h
  refine ⟨payload, _, hpa, ?_, ?_, rfl⟩
  · intro hnu
    rw [hnu]
  intro hso
  split
  case h_1 hnu => exact absurd hnu hso
  · rfl

theorem Annotated.sign (han : frame.Annotated) {nonce : Json} {signature : String}
    (hfr : frame.nonce = .null → nonce = .str fresh)
    (hke : frame.nonce ≠ .null → nonce = frame.nonce) :
    Annotated { frame with nonce, signature := .str signature } := by
  obtain ⟨hte, hnm⟩ := han
  refine ⟨?_, hnm⟩
  simp only [forall_mem_cons, not_mem_nil, false_imp_iff, implies_true, and_true] at hte ⊢
  obtain ⟨h₁, h₂, h₃, h₄, h₅, h₆, h₇, h₈, -⟩ := hte
  refine ⟨h₁, h₂, h₃, h₄, h₅, h₆, h₇, ?_, .inr ⟨signature, rfl⟩⟩
  by_cases hnu : frame.nonce = .null
  · exact .inr ⟨fresh, hfr hnu⟩
  · rwa [hke hnu]

/-- Every annotated frame with an id and the supported version, and without empty headers or an
empty payload, is read back as it was sent; and what is checked on a signed frame is the hash of
the very bytes that were signed. -/
theorem decode_encode (rt : Runtime) (fresh : String) (now : ℚ) (minBytes : Int)
    (frame : PeerFrame) (hid : frame.frameId ≠ "")
    (hversion : frame.protocolVersion = Peer.protocolVersion) (hannotated : frame.Annotated)
    (hheaders : frame.headers ≠ some []) (hpayload : frame.payload ≠ some []) :
    decode rt fresh now (encode rt minBytes frame) = .ok frame ∧
      ∀ token nonce signed, sign rt token nonce frame = .ok signed →
        ∃ bytes, signed.signature = .str (rt.hmac token bytes) ∧
          (decode rt fresh now (encode rt minBytes signed)).map (signaturePayload rt) =
            .ok (some bytes) := by
  constructor
  · exact decode_encode_of_annotated hid hversion hannotated hheaders hpayload
  intro token _ _ hsi
  obtain ⟨bytes, nonce, hby, hfr, hke, rfl⟩ := sign_ok hsi
  refine ⟨bytes, rfl, ?_⟩
  have hde : decode rt fresh now (encode rt minBytes
      { frame with nonce, signature := .str (rt.hmac token bytes) }) = .ok _ :=
    decode_encode_of_annotated hid hversion (hannotated.sign hfr hke) hheaders hpayload
  rw [hde]
  exact congrArg Except.ok hby

/-! ## A runtime -/

end PeerFrame

open Classical in
/-- The value with a number. -/
noncomputable def valueOf (n : Nat) : Option Json :=
  if h : ∃ value : Json, encode value.tokens = n then some h.choose else none

theorem valueOf_encode (value : Json) : valueOf (encode value.tokens) = some value := by
  have h : ∃ other : Json, encode other.tokens = encode value.tokens := ⟨value, rfl⟩
  rw [valueOf, dif_pos h]
  exact congrArg some (tokens_injective (encode_injective h.choose_spec))

/-- Zeros up to a one: the text of a value in the simplest runtime. -/
noncomputable def unaryDumps (value : Json) : Bytes :=
  openingBrace :: replicate (encode value.tokens) 0x30 ++ [0x31]

noncomputable def unaryLoads (bytes : Bytes) : Option Json :=
  if 0x31 ∈ bytes then valueOf (bytes.count 0x30) else none

def unaryPack (bytes : Bytes) : String :=
  String.ofList (replicate (encode (bytes.map UInt8.toNat)) '0')

def unaryUnpack (s : String) : Option Bytes :=
  (decode s.toList.length : Option (List Nat)).map (·.map UInt8.ofNat)

/-- A runtime in which texts are unary and a hash shows its key and its bytes. -/
noncomputable def unaryRuntime : Runtime where
  dumps := unaryDumps
  loads := unaryLoads
  pack := unaryPack
  unpack := unaryUnpack
  canonical fields := (unaryDumps (.obj fields))
  format _ _ := "0"
  hmac token bytes := token ++ toString (bytes.map UInt8.toNat)
  repr _ := "value"
  readFloat _ := none
  column
    | .str s => some s
    | _ => none
  loads_dumps value := by
    simp [unaryLoads, unaryDumps, openingBrace, count_append, valueOf_encode]
  loads_newline bytes := by
    simp [unaryLoads, newline, count_append]
  loads_of_prefix fields first later h hlater := by
    have habsent : (0x31 : UInt8) ∉ first := by
      rcases eq_nil_or_concat later with rfl | ⟨init, last, rfl⟩
      · exact absurd rfl hlater
      rw [unaryDumps, concat_eq_append, ← append_assoc] at h
      have hinit := (append_inj' h rfl).1
      intro hmem
      rcases mem_cons.mp (hinit ▸ mem_append_left init hmem) with hbrace | hzero
      · exact absurd hbrace (by decide)
      · exact absurd (eq_of_mem_replicate hzero) (by decide)
    rw [unaryLoads, if_neg habsent]
  unpack_pack bytes := by
    simp [unaryUnpack, unaryPack, Function.comp_def]
  oneLine value byte hbyte := by
    simp only [unaryDumps, mem_append, mem_cons, mem_replicate, not_mem_nil, or_false] at hbyte
    rcases hbyte with (rfl | ⟨-, rfl⟩) | rfl <;> decide
  dumps_obj _ := ⟨_, rfl⟩
  sep_notMem_canonical fields := by
    simp only [unaryDumps, mem_append, mem_cons, mem_replicate, not_mem_nil, or_false]
    rintro ((h | ⟨-, h⟩) | h) <;> exact absurd h (by decide)
  sep_notMem_format _ _ := by decide
  column_str _ := rfl

/-- A signed greeting comes back with the bytes that were signed. -/
theorem PeerFrame.decode_encode_greeting :
    let frame : PeerFrame := { type := .hello, frameId := "f1", orchId := .str "a", timestamp := 7 }
    decode unaryRuntime "new" 0 (encode unaryRuntime 1 frame) = .ok frame ∧
      ∀ token nonce signed, sign unaryRuntime token nonce frame = .ok signed →
        ∃ bytes, signed.signature = .str (unaryRuntime.hmac token bytes) ∧
          (decode unaryRuntime "new" 0 (encode unaryRuntime 1 signed)).map
            (signaturePayload unaryRuntime) = .ok (some bytes) :=
  decode_encode unaryRuntime "new" 0 1
    { type := .hello, frameId := "f1", orchId := .str "a", timestamp := 7 }
    (by decide) rfl ⟨by simp, by simp⟩ (by simp) (by simp)

end Orchestratord.Peer
