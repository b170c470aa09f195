import Orchestratord.Peer.Replay

/-! # An attacker on the network

The attacker sees the signed frames and presents what it likes. Without the token it cannot make
a hash that the sender has not made; but the nonce by which replays are found is not among the
hashed parts, nor is the timestamp beyond its sixth decimal. -/

namespace Orchestratord.Peer

open Foundation List Option

/-! ## What a signature covers -/

variable {rt : Runtime} {frame signed : PeerFrame}

section

/-- The signed content of a frame; a body is what its sorted text says. -/
def content (rt : Runtime) (frame : PeerFrame) : String × Bytes × ℚ :=
  (frame.frameId, canonicalBytes rt frame.body, frame.timestamp)

/-- The ids are free of the byte that separates the signed parts. -/
def Separable (frame : PeerFrame) : Prop :=
  (∀ orchId, orchText frame.orchId = some orchId → sep ∉ utf8 orchId) ∧ sep ∉ utf8 frame.frameId

theorem sep_notMem_canonicalBytes (body : Option Json.Fields) : sep ∉ canonicalBytes rt body := by
  cases body with
  | none => exact not_mem_nil
  | some body => exact rt.sep_notMem_canonical body

/-- The frames agree in what is signed, their timestamps at the signed precision. -/
structure SameContent (rt : Runtime) (frame signed : PeerFrame) : Prop where
  orchId : orchText frame.orchId = orchText signed.orchId
  frameId : frame.frameId = signed.frameId
  body : canonicalBytes rt frame.body = canonicalBytes rt signed.body
  timestamp : rt.format ".6f" frame.timestamp = rt.format ".6f" signed.timestamp

/-- The signed bytes tell the signed parts, if the ids of one side are separable. -/
theorem signed_content {payload : Bytes} (hfm : signaturePayload rt frame = some payload)
    (hsi : signaturePayload rt signed = some payload) (hse : Separable signed) :
    SameContent rt frame signed := by
  obtain ⟨orchId, hor, hpy⟩ := map_eq_some_iff.mp hfm
  obtain ⟨orchId', hor', hpa'⟩ := map_eq_some_iff.mp hsi
  have hfe : ∀ part ∈ signedParts rt orchId' signed, sep ∉ part := by
    simp only [signedParts, forall_mem_cons, not_mem_nil, false_imp_iff, implies_true, and_true]
    exact ⟨hse.1 orchId' hor', hse.2, sep_notMem_canonicalBytes _, rt.sep_notMem_format _ _⟩
  have hpa : signedParts rt orchId frame = signedParts rt orchId' signed :=
    intercalate_injective hfe rfl (hpy.trans hpa'.symm)
  simp only [signedParts, cons.injEq, and_true] at hpa
  obtain ⟨hid, hfr, hbo, hti⟩ := hpa
  exact ⟨by rw [hor, hor', utf8_injective hid], utf8_injective hfr, hbo, utf8_injective hti⟩

end

/-! ## Ids with a separator -/

section

theorem utf8_eq_flatMap (s : String) : utf8 s = s.toList.flatMap String.utf8EncodeChar := by
  obtain ⟨l, rfl⟩ : ∃ l, String.ofList l = s := ⟨s.toList, String.ofList_toList⟩
  rw [utf8, String.toByteArray_ofList, utf8Encode, String.toList_ofList, data_toByteArray]

/-- Only the separator itself is written with its byte. -/
theorem utf8EncodeChar_of_sep_mem {c : Char} (h : sep ∈ String.utf8EncodeChar c) :
    String.utf8EncodeChar c = [sep] := by
  have hby (n : ℕ) : sep = UInt8.ofNat n ↔ n % 256 = 31 := by
    rw [← UInt8.toNat_inj, eq_comm]
    rfl
  dsimp only [String.utf8EncodeChar] at h ⊢
  split at h
  case isTrue hv =>
    rw [if_pos hv]
    simpa [eq_comm] using h
  · exfalso
    split at h <;> try split at h
    all_goals
      simp only [mem_cons, not_mem_nil, or_false, hby] at h
      omega

theorem exists_cut_of_sep_mem {s : String} (h : sep ∈ utf8 s) :
    ∃ a b, utf8 s = utf8 a ++ sep :: utf8 b := by
  rw [utf8_eq_flatMap] at h
  obtain ⟨c, hc, hsep⟩ := mem_flatMap.mp h
  obtain ⟨before, after, hli⟩ := append_of_mem hc
  refine ⟨String.ofList before, String.ofList after, ?_⟩
  simp [utf8_eq_flatMap, hli, utf8EncodeChar_of_sep_mem hsep]

theorem utf8_join (s t : String) : utf8 (s ++ "\x1f" ++ t) = utf8 s ++ sep :: utf8 t := by
  simp [utf8_eq_flatMap]
  rfl

theorem orchText_str (orchId : String) : orchText (.str orchId) = some orchId := by
  unfold orchText
  split <;> simp_all [Json.truthy]

variable {orchId : String}

theorem signaturePayload_of_str (h : frame.orchId = .str orchId) :
    signaturePayload rt frame = some (utf8 orchId ++ sep :: (utf8 frame.frameId ++ sep ::
      [sep].intercalate
        [canonicalBytes rt frame.body, utf8 (rt.format ".6f" frame.timestamp)])) := by
  simp [signaturePayload, h, orchText_str, signedParts]

/-- The bytes of a separator in an id can be read as the end of a shorter one. -/
theorem separable_of_unambiguous (h : ∀ other, signaturePayload rt other =
      signaturePayload rt { frame with orchId := .str orchId } →
      SameContent rt other { frame with orchId := .str orchId }) :
    sep ∉ utf8 orchId ∧ sep ∉ utf8 frame.frameId := by
  constructor
  · intro hmem
    obtain ⟨first, later, hcut⟩ := exists_cut_of_sep_mem hmem
    have hsa := h { frame with frameId := later ++ "\x1f" ++ frame.frameId, orchId := .str first }
      (((signaturePayload_of_str rfl).trans (by simp [utf8_join, hcut])).trans
        (signaturePayload_of_str rfl).symm)
    have hfi := hsa.orchId
    simp only [orchText_str, some.injEq] at hfi
    simp [hfi] at hcut
  · intro hmem
    obtain ⟨first, later, hcut⟩ := exists_cut_of_sep_mem hmem
    have hsa := h { frame with frameId := later, orchId := .str (orchId ++ "\x1f" ++ first) }
      (((signaturePayload_of_str rfl).trans (by simp [utf8_join, hcut])).trans
        (signaturePayload_of_str rfl).symm)
    have hla : later = frame.frameId := hsa.frameId
    have hle := congrArg length hcut
    simp only [hla, length_append, length_cons] at hle
    omega

/-- A frame's signature is good for frames with its signed content only, unless two signed byte
strings have one hash, exactly when neither of its ids holds a separator. -/
theorem signature_unambiguous_iff (rt : Runtime) (token orchId : String) (frame : PeerFrame) :
    let signed : PeerFrame := { frame with orchId := .str orchId }
    (∀ other, (signaturePayload rt other = signaturePayload rt signed →
        SameContent rt other signed) ∧
      ∀ fresh sent window now key, sign rt token fresh signed = .ok sent →
        other.signature = sent.signature → checkFrame rt token window now other = .ok key →
        SameContent rt other signed ∨ ∃ payload payload', payload ≠ payload' ∧
          signaturePayload rt other = some payload ∧ signaturePayload rt signed = some payload' ∧
          rt.hmac token payload = rt.hmac token payload') ↔
      sep ∉ utf8 orchId ∧ sep ∉ utf8 frame.frameId := by
  intro signed
  constructor
  · intro h
    exact separable_of_unambiguous fun other => (h other).1
  rintro ⟨hor, hfm⟩ _
  have hse : Separable signed := by
    refine ⟨fun orchId' h => ?_, hfm⟩
    rw [orchText_str] at h
    exact some.inj h ▸ hor
  have hpa : signaturePayload rt signed = some _ := signaturePayload_of_str rfl
  refine ⟨fun heq => signed_content (heq.trans hpa) hpa hse, ?_⟩
  intro _ _ _ _ _ hsn hsg hch
  obtain ⟨payload', _, hsi, -, -, rfl⟩ := PeerFrame.sign_ok hsn
  obtain ⟨payload, hot, hown⟩ := (checkFrame_ok hch).signed
  by_cases heq : payload = payload'
  · exact .inl (signed_content hot (heq ▸ hsi) hse)
  · refine .inr ⟨payload, payload', heq, hot, hsi, ?_⟩
    exact Json.str.inj (hown.symm.trans hsg)

/-- A signature for one pair of ids is good for another. -/
theorem shifted_separator_verifies : let frame : PeerFrame :=
      { type := .ping, frameId := "c", orchId := .str "a\x1fb", timestamp := 0 }
    ∃ sent, sign unaryRuntime "secret" "n" frame = .ok sent ∧ (checkFrame unaryRuntime "secret" 60 0
        { sent with frameId := "b\x1fc", orchId := .str "a" }).toOption = some ("a", "n") := by
  intro frame
  let payload := [sep].intercalate [utf8 "a\x1fb", utf8 "c", [], utf8 "0"]
  have hpa : signaturePayload unaryRuntime frame = some payload := signaturePayload_of_str rfl
  refine ⟨{ frame with nonce := .str "n", signature := .str (unaryRuntime.hmac "secret" payload) },
    ?_, by decide +kernel⟩
  rw [sign, if_neg (by decide), if_neg (by decide), hpa]

end

namespace Exchange

variable {window : ℚ} {token : String} {s : Exchange}

/-! ## The attacker -/

/-- The sender has signed these bytes with the token. -/
def HasSigned (rt : Runtime) (token : String) (s : Exchange) (payload : Bytes)
    (signed : PeerFrame) : Prop :=
  (token, signed) ∈ s.signed ∧ signaturePayload rt signed = some payload

/-- Without the token no hash can be made up: a frame that carries the hash of its own signed
bytes has them from a frame of the sender. -/
def Unforged (rt : Runtime) (token : String) (s : Exchange) : Input → Prop
  | .present token' frame _ _ => token' = token → ∀ payload,
      signaturePayload rt frame = some payload → frame.signature = .str (rt.hmac token payload) →
      ∃ signed, s.HasSigned rt token payload signed
  | _ => True

/-- A frame with the signed bytes of the sender also has the nonce and the timestamp of one. -/
def Unedited (rt : Runtime) (token : String) (s : Exchange) : Input → Prop
  | .present token' frame _ _ => token' = token → ∀ payload signed,
      signaturePayload rt frame = some payload → s.HasSigned rt token payload signed →
      ∃ signed, s.HasSigned rt token payload signed ∧ signed.nonce = frame.nonce ∧
        signed.timestamp = frame.timestamp
  | _ => True

/-- The sender's ids are separable. -/
def SeparableIds (token : String) (_ : Exchange) : Input → Prop
  | .sign token' _ frame => token' = token → Separable frame
  | _ => True

/-! ## Counting -/

/-- The frames of a token with a content. -/
def withContent (rt : Runtime) (token : String) (c : String × Bytes × ℚ)
    (entries : List (String × PeerFrame)) : List (String × PeerFrame) :=
  entries.filter fun entry => entry.1 = token ∧ content rt entry.2 = c

/-- The sender's frames are separable, and every accepted frame is one of them but for parts that
neither the signature nor the store looks at. -/
structure SenderInv (rt : Runtime) (token : String) (s : Exchange) : Prop where
  separable : ∀ signed, (token, signed) ∈ s.signed → Separable signed
  origin : ∀ frame, (token, frame) ∈ s.accepted → ∃ signed, (token, signed) ∈ s.signed ∧
    content rt signed = content rt frame ∧ nonceKey rt signed = nonceKey rt frame

variable {storeNow : ℚ} {now : ℚ} {token' : String}

variable (h : SenderInv rt token s)

include h

theorem SenderInv.accept {key : String × String} (hch : Checked rt token' window now frame key)
    (hun : s.Unforged rt token (.present token' frame now storeNow))
    (hud : s.Unedited rt token (.present token' frame now storeNow)) (store : NonceStore) :
    SenderInv rt token
      { s with store, clock := storeNow, accepted := s.accepted ++ [(token', frame)] } := by
  refine ⟨h.separable, ?_⟩
  intro accepted hac
  rcases mem_append.mp hac with hold | hnew
  · exact h.origin accepted hold
  obtain ⟨rfl, rfl⟩ := Prod.mk.inj (mem_singleton.mp hnew)
  obtain ⟨payload, hpa, hsg⟩ := hch.signed
  obtain ⟨first, hfi⟩ := hun rfl payload hpa hsg
  obtain ⟨signed, ⟨hmem, hsi⟩, hno, hti⟩ := hud rfl payload first hpa hfi
  have hsa := signed_content hpa hsi (h.separable signed hmem)
  refine ⟨signed, hmem, ?_, ?_⟩
  · rw [content, content, hsa.frameId, hsa.body, hti]
  · rw [nonceKey, nonceKey, hsa.orchId, hno]

theorem SenderInv.sign (hse : token' = token → Separable signed) :
    SenderInv rt token { s with signed := s.signed ++ [(token', signed)] } := by
  constructor
  · intro other hot
    rcases mem_append.mp hot with hold | hnew
    · exact h.separable other hold
    · obtain ⟨rfl, rfl⟩ := Prod.mk.inj (mem_singleton.mp hnew)
      exact hse rfl
  · intro frame hfm
    obtain ⟨other, hmem, hsa⟩ := h.origin frame hfm
    exact ⟨other, mem_append_left _ hmem, hsa⟩

theorem SenderInv.step {input : Input}
    (hun : s.Unforged rt token input) (hud : s.Unedited rt token input)
    (hse : SeparableIds token s input) : SenderInv rt token (s.step rt window input) := by
  cases input with
  | sign =>
    simp only [Exchange.step]
    split
    case h_1 _ hsi =>
      obtain ⟨_, _, -, -, -, rfl⟩ := PeerFrame.sign_ok hsi
      exact h.sign hse
    · exact h
  | present =>
    simp only [Exchange.step]
    split
    case h_1 store hve =>
      obtain ⟨_, hch, -, -⟩ := verify_ok hve
      exact h.accept hch hun hud store
    · exact ⟨h.separable, h.origin⟩
  | prune => exact ⟨h.separable, h.origin⟩

/-- Accepted frames of one content have different nonces, and each is the nonce of a signed one. -/
theorem SenderInv.accepted_le_signed (hre : ReplayInv rt window s) (c : String × Bytes × ℚ) :
    (withContent rt token c s.accepted).length ≤ (withContent rt token c s.signed).length := by
  have hno : ((withContent rt token c s.accepted).map (nonceKey rt ·.2)).Nodup := by
    rw [List.Nodup, pairwise_map]
    refine (hre.apart.filter _).imp_of_mem ?_
    intro a b ha hb hap heq
    have ha := (of_decide_eq_true (mem_filter.mp ha).2).2
    have hb := (of_decide_eq_true (mem_filter.mp hb).2).2
    have hti : a.2.timestamp = b.2.timestamp := congrArg (·.2.2) (ha.trans hb.symm)
    exact hap ⟨heq, hti⟩
  have hsu : (withContent rt token c s.accepted).map (nonceKey rt ·.2) ⊆
      (withContent rt token c s.signed).map (nonceKey rt ·.2) := by
    intro _ hkey
    obtain ⟨⟨token', frame⟩, hen, rfl⟩ := mem_map.mp hkey
    obtain ⟨hmem, hco⟩ := mem_filter.mp hen
    obtain ⟨rfl, hc⟩ := of_decide_eq_true hco
    obtain ⟨signed, hsi, hsa, hnn⟩ := h.origin frame hmem
    refine mem_map.mpr ⟨(token', signed), mem_filter.mpr ⟨hsi, ?_⟩, hnn⟩
    exact decide_eq_true ⟨rfl, hsa.trans hc⟩
  have hle := (hno.subperm hsu).length_le
  rwa [length_map, length_map] at hle

omit h

/-- In every run in which no hash is forged, the clock never goes back and checks are timely, the
sender's ids are separable and the frames that are presented keep the nonce and the timestamp with
which they were signed, at most as many frames are accepted with a content as were signed. -/
theorem accepted_le_signed_of_unedited (rt : Runtime) (window : ℚ) (token : String) (clock : ℚ)
    (inputs : List Input)
    (hrun : Guarded (step rt window) (fun s input => (s.Ticks input ∧ Timely window s input) ∧
      s.Unforged rt token input ∧ s.Unedited rt token input ∧ SeparableIds token s input)
      { clock } inputs) (c : String × Bytes × ℚ) :
    (withContent rt token c (runFrom (step rt window) { clock } inputs).accepted).length ≤
      (withContent rt token c (runFrom (step rt window) { clock } inputs).signed).length := by
  have hst : ∀ s input, SenderInv rt token s ∧ ReplayInv rt window s →
      (s.Ticks input ∧ Timely window s input) ∧
        s.Unforged rt token input ∧ s.Unedited rt token input ∧ SeparableIds token s input →
      SenderInv rt token (s.step rt window input) ∧ ReplayInv rt window (s.step rt window input) := by
    rintro s _ ⟨hse, hre⟩ ⟨⟨htc, hti⟩, hun, hud, hsp⟩
    exact ⟨hse.step hun hud hsp, hre.step htc hti⟩
  obtain ⟨hse, hre⟩ := hrun.invariant hst ⟨⟨by simp, by simp⟩, ⟨by simp, by simp⟩⟩
  exact hse.accepted_le_signed hre c

/-- The greeting before it is signed. -/
noncomputable def unsignedGreeting : PeerFrame := { greeting with nonce := .null, signature := .null }

theorem sign_greeting : Peer.sign unaryRuntime "secret" "n1" unsignedGreeting = .ok greeting := by
  rfl

theorem separable_greeting : Separable unsignedGreeting := by
  refine ⟨?_, by decide⟩
  intro orchId hor
  obtain rfl : "east" = orchId := some.inj hor
  decide

/-- Once the greeting is signed, it stays so. -/
theorem greeting_signed (clock : ℚ) : ("secret", greeting) ∈
      (step unaryRuntime 60 { clock } (.sign "secret" "n1" unsignedGreeting)).signed := by
  simp [step, sign_greeting]

theorem mem_signed_present {entry : String × PeerFrame} (h : entry ∈ s.signed) :
    entry ∈ (s.step rt window (.present token frame now storeNow)).signed := by
  simp only [step]
  split <;> exact h

theorem unforged_of_signed (hsi : (token, signed) ∈ s.signed)
    (hsa : signaturePayload rt frame = signaturePayload rt signed) :
    s.Unforged rt token (.present token frame now storeNow) :=
  fun _ _ hpa _ => ⟨signed, hsi, hsa ▸ hpa⟩

theorem unedited_of_signed (hsi : (token, frame) ∈ s.signed) :
    s.Unedited rt token (.present token frame now storeNow) :=
  fun _ _ _ hpa _ => ⟨frame, ⟨hsi, hpa⟩, rfl, rfl⟩

/-- Signed once, presented twice, accepted once. -/
theorem greeting_accepted_le_signed :
    let s := runFrom (step unaryRuntime 60) { clock := 100 }
      [.sign "secret" "n1" unsignedGreeting, .present "secret" greeting 100 100,
        .present "secret" greeting 101 101]
    (withContent unaryRuntime "secret" ("f1", [], 100) s.accepted).length = 1 ∧
      (withContent unaryRuntime "secret" ("f1", [], 100) s.accepted).length ≤
        (withContent unaryRuntime "secret" ("f1", [], 100) s.signed).length := by
  have hcl : Guarded (step unaryRuntime 60) (fun s input => s.Ticks input ∧ Timely 60 s input)
      { clock := 100 } [.sign "secret" "n1" unsignedGreeting, .present "secret" greeting 100 100,
        .present "secret" greeting 101 101] := by
    decide +kernel
  have hsi := greeting_signed 100
  refine ⟨by decide +kernel, accepted_le_signed_of_unedited unaryRuntime 60 "secret" 100 _ ?_ _⟩
  exact ⟨⟨hcl.1, trivial, trivial, fun _ => separable_greeting⟩,
    ⟨hcl.2.1, unforged_of_signed hsi rfl, unedited_of_signed hsi, trivial⟩,
    ⟨hcl.2.2.1, unforged_of_signed (mem_signed_present hsi) rfl,
      unedited_of_signed (mem_signed_present hsi), trivial⟩, trivial⟩

/-- With another nonce the same signed greeting is accepted again. -/
theorem renamed_nonce_accepted_twice :
    let inputs := [.sign "secret" "n1" unsignedGreeting, .present "secret" greeting 100 100,
      .present "secret" { greeting with nonce := .str "n2" } 101 101]
    let s := runFrom (step unaryRuntime 60) { clock := 100 } inputs
    Guarded (step unaryRuntime 60) (fun s input => (s.Ticks input ∧ Timely 60 s input) ∧
      s.Unforged unaryRuntime "secret" input ∧ SeparableIds "secret" s input)
      { clock := 100 } inputs ∧
    (withContent unaryRuntime "secret" ("f1", [], 100) s.accepted).length = 2 ∧
    (withContent unaryRuntime "secret" ("f1", [], 100) s.signed).length = 1 := by
  have hcl : Guarded (step unaryRuntime 60) (fun s input => s.Ticks input ∧ Timely 60 s input)
      { clock := 100 } [.sign "secret" "n1" unsignedGreeting, .present "secret" greeting 100 100,
        .present "secret" { greeting with nonce := .str "n2" } 101 101] := by
    decide +kernel
  have hsi := greeting_signed 100
  refine ⟨?_, by decide +kernel, by decide +kernel⟩
  exact ⟨⟨hcl.1, trivial, fun _ => separable_greeting⟩,
    ⟨hcl.2.1, unforged_of_signed hsi rfl, trivial⟩,
    ⟨hcl.2.2.1, unforged_of_signed (mem_signed_present hsi) rfl, trivial⟩, trivial⟩

end Exchange

end Orchestratord.Peer
