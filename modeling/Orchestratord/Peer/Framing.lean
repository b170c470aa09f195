import Orchestratord.Peer.Batch
import Orchestratord.Peer.RoundTrip

/-! # Frames and chunks

The body of a batch is the lines of its frames, but it arrives in chunks that can be cut anywhere,
and the reader cuts each chunk into lines by itself. The frames are served as they were sent just
when no chunk ends inside a line that is still to be read. -/

namespace Orchestratord.Peer.Batch

open Foundation PeerFrame List

variable {σ : Type} {e : Endpoint σ}

/-! ## Reading as far as a list goes -/

section

variable {α β : Type} {read : Reading σ → α → Reading σ × Outcome}

theorem readAll_append (r : Reading σ) (first later : List α) : readAll read r (first ++ later) =
      match readAll read r first with
      | (r, .more) => readAll read r later
      | (r, .stopped) => (r, .stopped)
      | (r, .waits reply counted) => (r, .waits reply counted) := by
  induction first generalizing r with
  | nil => rfl
  | cons item _ ih =>
    rw [cons_append, readAll, readAll]
    rcases read r item with ⟨r', _ | _ | _⟩
    · exact ih r'
    · rfl
    · rfl

/-- Two nested loops are one. -/
theorem readAll_flatMap (cut : β → List α) (r : Reading σ) (items : List β) :
    readAll (fun r item => readAll read r (cut item)) r items =
      readAll read r (items.flatMap cut) := by
  induction items generalizing r with
  | nil => rfl
  | cons item _ ih =>
    rw [flatMap_cons, readAll_append, readAll]
    rcases readAll read r (cut item) with ⟨r', _ | _ | _⟩
    · exact ih r'
    · rfl
    · rfl

/-- What is passed over can be left out. -/
theorem readAll_filter (p : α → Bool) (hsk : ∀ r item, p item = false → read r item = (r, .more))
    (r : Reading σ) (items : List α) : readAll read r (items.filter p) = readAll read r items := by
  induction items generalizing r with
  | nil => rfl
  | cons item _ ih =>
    rw [filter_cons]
    split
    · rw [readAll, readAll]
      rcases read r item with ⟨r', _ | _ | _⟩
      · exact ih r'
      · rfl
      · rfl
    case isFalse hp => rw [ih, readAll, hsk r item (by simpa using hp)]

end

variable (r : Reading σ)

theorem reader_eq_pieces (chunks : List Bytes) :
    reader e r chunks = readAll (readLine e) r (pieces chunks) := by
  rw [reader, readAll_flatMap, pieces, readAll_filter]
  intro r line hli
  have hli : line = [] := by simpa using hli
  rw [hli]
  rfl

/-! ## What has been handled -/

theorem handled_queueReply (reply : PeerFrame) (counted : Bool) :
    (queueReply e r reply counted).1.handled = r.handled := by
  unfold queueReply
  cases r.connection.sendFrame e.maxsize reply with
  | some | none => rfl

theorem handled_serveFrame (frame : PeerFrame) :
    (serveFrame e r frame).1.handled = r.handled ++ [frame] := by
  unfold serveFrame
  rcases handleFrame e r.world frame with ⟨_ | ⟨reply, counted⟩ | _, world⟩
  · rfl
  · exact handled_queueReply _ _ _
  · rfl

theorem handled_readLine (line : Bytes) : r.handled <+: (readLine e r line).1.handled := by
  unfold readLine
  split
  · exact prefix_rfl
  split
  · rw [handled_serveFrame]
    exact prefix_append _ _
  · exact prefix_rfl

theorem handled_readLines (lines : List Bytes) :
    r.handled <+: (readAll (readLine e) r lines).1.handled := by
  induction lines generalizing r with
  | nil => exact prefix_rfl
  | cons line _ ih =>
    have hli := handled_readLine (e := e) r line
    rw [readAll]
    generalize readLine e r line = read at hli ⊢
    rcases read with ⟨r', _ | _ | _⟩
    · exact hli.trans (ih r')
    · exact hli
    · exact hli

/-- What the first line adds is never taken back. -/
theorem handled_readLines_cons (line : Bytes) (lines : List Bytes) :
    (readLine e r line).1.handled <+: (readAll (readLine e) r (line :: lines)).1.handled := by
  rw [readAll]
  generalize readLine e r line = read
  rcases read with ⟨r', _ | _ | _⟩
  · exact handled_readLines r' lines
  all_goals exact prefix_rfl

/-- The frames of a batch up to the one that ends the session, or whose reply has to wait. -/
def served (e : Endpoint σ) (r : Reading σ) : List PeerFrame → List PeerFrame
  | [] => []
  | frame :: frames =>
    frame :: match serveFrame e r frame with
      | (r, .more) => served e r frames
      | _ => []

theorem served_isPrefix (frames : List PeerFrame) : served e r frames <+: frames := by
  induction frames generalizing r with
  | nil => exact prefix_rfl
  | cons frame frames ih =>
    rw [served]
    refine (prefix_cons_inj frame).mpr ?_
    split
    case h_1 r' _ => exact ih r'
    · exact nil_prefix

/-! ## Lines -/

variable (rt : Runtime) (minBytes : Int) (frame : PeerFrame)

/-- The line of a frame without its newline. -/
def text : Bytes := rt.dumps (.obj (frame.wire rt minBytes))

variable (frames : List PeerFrame)

/-- The body of a request. -/
def body : Bytes := (frames.map (encode rt minBytes)).flatten

theorem body_eq_unlines : body rt minBytes frames = unlines (frames.map (text rt minBytes)) := by
  rw [unlines, map_map]
  rfl

/-- A frame that is read from its line as it was sent. -/
def Legible : Prop := ∀ fresh now, decode rt fresh now (frame.encode rt minBytes) = .ok frame

variable {minBytes : Int}

section

variable {rt : Runtime} {frame : PeerFrame}

theorem decode_encode_eq_text (fresh : String) (now : ℚ) :
    decode rt fresh now (frame.encode rt minBytes) =
      decode rt fresh now (text rt minBytes frame) := by
  unfold decode encode
  rw [rt.loads_newline]
  rfl

/-- The line of a frame has its id and its time, so nothing is drawn for it. -/
theorem decode_text_eq (fresh fresh' : String) (now now' : ℚ) :
    decode rt fresh now (text rt minBytes frame) =
      decode rt fresh' now' (text rt minBytes frame) := by
  have hid : Json.get (frame.wire rt minBytes) "frame_id" = .str frame.frameId := by
    rw [get_wire rt minBytes (by decide), get_toDict_header (by decide)]
    simp [Json.get_cons]
  have hti : Json.get (frame.wire rt minBytes) "timestamp" = .float frame.timestamp := by
    rw [get_wire rt minBytes (by decide), get_toDict_header (by decide)]
    simp [Json.get_cons]
  unfold decode text
  rw [rt.loads_dumps]
  simp only [fromDict, readFrameId, readTimestamp, hid,
    lookup_of_get hti (by simp), Option.getD_some]

theorem legible_of_decode {fresh : String} {now : ℚ}
    (h : decode rt fresh now (text rt minBytes frame) = .ok frame) :
    Legible rt minBytes frame := by
  intro fresh' now'
  rw [decode_encode_eq_text, decode_text_eq fresh' fresh now' now, h]

theorem text_ne_nil (rt : Runtime) (minBytes : Int) (frame : PeerFrame) :
    text rt minBytes frame ≠ [] := by
  obtain ⟨_, hta⟩ := rt.dumps_obj (frame.wire rt minBytes)
  rw [text, hta]
  exact cons_ne_nil _ _

/-- A line that begins like an object is not passed over. -/
theorem isBlankLine_start (start rest : Bytes) (hst : start ≠ [])
    (h : text rt minBytes frame = start ++ rest) : isBlankLine start = false := by
  obtain ⟨_, hta⟩ := rt.dumps_obj (frame.wire rt minBytes)
  cases start with
  | nil => exact absurd rfl hst
  | cons byte =>
    have hby : byte = openingBrace := (cons.inj (h.symm.trans hta)).1
    rw [hby]
    rfl

theorem isBlankLine_text (rt : Runtime) (minBytes : Int) (frame : PeerFrame) :
    isBlankLine (text rt minBytes frame) = false := by
  exact isBlankLine_start _ [] (text_ne_nil rt minBytes frame) (append_nil _).symm

end

theorem readLine_text (minBytes : Int) (frame : PeerFrame) (r : Reading σ) :
    readLine e r (text e.rt minBytes frame) =
      match decode e.rt (e.uuid r.world) (e.time r.world) (text e.rt minBytes frame) with
      | .ok frame => serveFrame e r frame
      | .error _ => (r, .stopped) := by
  rw [readLine, isBlankLine_text]
  rfl

/-! ## Lines as they arrive -/

/-- The first lines arrive whole, and then the start of one that cannot be read, if any. -/
inductive Arrives (e : Endpoint σ) (minBytes : Int) : List PeerFrame → List Bytes → Nat → Prop
  | all : Arrives e minBytes [] [] 0
  | broken {frame : PeerFrame} {frames : List PeerFrame} {start : Bytes} {more : List Bytes}
      (hread : ∀ r, readLine e r start = (r, .stopped)) :
      Arrives e minBytes (frame :: frames) (start :: more) 0
  | whole {frame : PeerFrame} {frames : List PeerFrame} {lines : List Bytes} {n : Nat}
      (hrest : Arrives e minBytes frames lines n) :
      Arrives e minBytes (frame :: frames) (text e.rt minBytes frame :: lines) (n + 1)

theorem arrives_all (minBytes : Int) (frames : List PeerFrame) :
    Arrives e minBytes frames (frames.map (text e.rt minBytes)) frames.length := by
  induction frames with
  | nil => exact .all
  | cons _ _ ih => exact .whole ih

variable {frames : List PeerFrame} {n : Nat}

theorem arrives_broken {start rest : Bytes}
    (hte : (frames.map (text e.rt minBytes))[n]? = some (start ++ rest)) (hst : start ≠ [])
    (hre : rest ≠ []) (more : List Bytes) :
    Arrives e minBytes frames ((frames.map (text e.rt minBytes)).take n ++ start :: more) n := by
  induction frames generalizing n with
  | nil => simp at hte
  | cons frame _ ih =>
    cases n with
    | zero =>
      have hte : text e.rt minBytes frame = start ++ rest := by simpa using hte
      refine .broken fun r => ?_
      rw [readLine, isBlankLine_start start rest hst hte, decode,
        e.rt.loads_of_prefix _ start rest hte hre]
      rfl
    | succ => exact .whole (ih (by simpa using hte))

/-- The frames are handled as they were sent just when each of them is legible and its line arrives
whole. -/
theorem Arrives.handled_iff {lines : List Bytes}
    (h : Arrives e minBytes frames lines n) (r : Reading σ) :
    (readAll (readLine e) r lines).1.handled = r.handled ++ served e r frames ↔
      (∀ frame ∈ served e r frames, Legible e.rt minBytes frame) ∧
        (served e r frames).length ≤ n := by
  induction h generalizing r with
  | all => simp [readAll, served]
  | broken hre => simp [readAll, hre, served]
  | @whole frame frames lines n hrs ih =>
    have hli := readLine_text (e := e) minBytes frame r
    have hle : Legible e.rt minBytes frame →
        decode e.rt (e.uuid r.world) (e.time r.world) (text e.rt minBytes frame) = .ok frame := by
      intro hle
      rw [← decode_encode_eq_text]
      exact hle _ _
    have hmem : frame ∈ served e r (frame :: frames) := mem_cons_self
    rcases hde : decode e.rt (e.uuid r.world) (e.time r.world)
      (text e.rt minBytes frame) with err | frame'
    · -- the line itself cannot be read
      rw [hde] at hli
      have hnot : ¬ Legible e.rt minBytes frame := fun hl => by simp [hle hl] at hde
      refine iff_of_false ?_ fun h => hnot (h.1 frame hmem)
      simp [readAll, hli, served]
    · rw [hde] at hli
      by_cases hsa : frame' = frame
      · subst hsa
        have hse := handled_serveFrame (e := e) r frame'
        rw [readAll, hli, served]
        dsimp only
        generalize serveFrame e r frame' = after at hse ⊢
        rcases after with ⟨r', _ | _ | _⟩
        · have hih := ih r'
          rw [hse, append_assoc, singleton_append] at hih
          rw [hih]
          simp [legible_of_decode hde]
        all_goals simp_all [legible_of_decode hde]
      · have hnot : ¬ Legible e.rt minBytes frame := fun hl => hsa (by
          simpa [hle hl] using hde.symm)
        refine iff_of_false ?_ fun h => hnot (h.1 frame hmem)
        intro heq
        have hpr := handled_readLines_cons (e := e) r (text e.rt minBytes frame) lines
        rw [heq, hli, handled_serveFrame, prefix_append_right_inj] at hpr
        exact hsa (cons_prefix_cons.mp hpr).1

/-- The reader, on the body of any batch in any chunks, handles exactly the frames of the batch, in
order and up to the one that ends the session, if and only if each of them is legible and every
chunk ends at the end of a line or after all of them. -/
theorem reader_handles_iff (e : Endpoint σ) (minBytes : Int) (r : Reading σ)
    (frames : List PeerFrame) (chunks : List Bytes)
    (hbody : chunks.flatten = body e.rt minBytes frames) :
    (reader e r chunks).1.handled = r.handled ++ served e r frames ↔
      (∀ frame ∈ served e r frames, Legible e.rt minBytes frame) ∧
        ∀ first later, chunks = first ++ later →
          AtLineEnd (frames.map (text e.rt minBytes)) first.flatten ∨
            (body e.rt minBytes (served e r frames)).length ≤ first.flatten.length := by
  set texts := frames.map (text e.rt minBytes) with htx
  have hone : ∀ line ∈ texts, OneLine line := by
    intro _ hli
    obtain ⟨_, -, rfl⟩ := mem_map.mp hli
    exact e.rt.oneLine _
  have hne : ∀ line ∈ texts, line ≠ [] := by
    intro _ hli
    obtain ⟨frame, -, rfl⟩ := mem_map.mp hli
    exact text_ne_nil e.rt minBytes frame
  have hse : body e.rt minBytes (served e r frames) =
      unlines (texts.take (served e r frames).length) := by
    rw [body_eq_unlines, ← map_take, ← prefix_iff_eq_take.mp (served_isPrefix r frames)]
  have hfo : Found texts [] chunks ([] ++ pieces chunks) :=
    found_pieces hone hne 0 false rfl (by rw [hbody, body_eq_unlines]; rfl)
  rw [nil_append] at hfo
  rw [reader_eq_pieces, hse]
  rcases hfo with ⟨hen, hall⟩ | ⟨n, start, more, hbr, hpi⟩
  · rw [hall, (arrives_all minBytes frames).handled_iff r]
    refine and_congr_right fun _ => iff_of_true (served_isPrefix r frames).length_le ?_
    intro first later hcut
    exact .inl (hen first later hcut)
  obtain ⟨⟨_, hre, hte⟩, hst, first, later, hcut, hfi, hlea⟩ := hbr
  rw [hpi, (arrives_broken hte hst hre more).handled_iff r]
  refine and_congr_right fun _ => ?_
  constructor
  · -- the lines that are served end before the first break
    intro hle first' later' hcut'
    by_cases hend : AtLineEnd texts first'.flatten
    · exact .inl hend
    have hln := hlea first' later' hcut' hend
    have hls := length_unlines_take_le texts hle
    simp only [nil_append] at hln hfi
    rw [hfi, length_append] at hln
    exact .inr (by omega)
  · intro hcu
    simp only [nil_append] at hfi
    have hin := not_atLineEnd_inside hte rfl hst hre
    by_contra hlt
    rcases hcu first later hcut with hend | hln
    · exact hin (hfi ▸ hend)
    have hls := length_unlines_take_le texts (Nat.succ_le_of_lt (Nat.lt_of_not_le hlt))
    rw [hfi, length_append] at hln
    have hnx := length_unlines_take_succ hte
    have := length_pos_of_ne_nil hre
    rw [length_append] at hnx
    rw [Nat.succ_eq_add_one] at hls
    omega

/-! ## A batch of one frame -/

/-- An endpoint whose calls all succeed and change nothing. -/
noncomputable def quietEndpoint : Endpoint Unit where
  rt := unaryRuntime
  orchId := "a"
  token := "t"
  uuid _ := "id"
  time _ := 0
  nonce _ := "n"
  traceId _ _ := "trace"
  verify _ _ := (.ok (), ())
  tryAcquire _ := (none, ())
  dispatchInvokeFrame _ frame := (some frame, ())
  addPeerTopic _ _ := some ()
  removePeerTopic _ _ := some ()
  clearPeerTopics _ := ()

def ping : PeerFrame := { type := .ping, frameId := "p1", orchId := .str "a", timestamp := 7 }

theorem legible_ping (rt : Runtime) (minBytes : Int) : Legible rt minBytes ping := fun _ _ =>
  decode_encode_of_annotated (by decide) rfl ⟨by simp [ping], by simp [ping]⟩
    (by simp [ping]) (by simp [ping])

/-- A newline in a chunk of its own does no harm. -/
theorem reader_handles_ping : let chunks := [text unaryRuntime 0 ping, [newline]]
    chunks.flatten = body unaryRuntime 0 [ping] ∧
      (reader quietEndpoint { world := () } chunks).1.handled =
        served quietEndpoint { world := () } [ping] := by
  have hbo : [text unaryRuntime 0 ping, [newline]].flatten = body unaryRuntime 0 [ping] := by
    simp [body, encode, text]
  refine ⟨hbo, ?_⟩
  have hse : served quietEndpoint { world := () } [ping] = [ping] := rfl
  refine (reader_handles_iff quietEndpoint 0 { world := () } [ping] _ hbo).mpr ⟨?_, ?_⟩
  · intro _ hfr
    rw [hse, mem_singleton] at hfr
    exact hfr ▸ legible_ping _ _
  · intro first _ hcut
    left
    rcases first with _ | ⟨a, _ | ⟨b, first⟩⟩
    · exact ⟨0, .inl rfl⟩
    · obtain ⟨rfl, -⟩ := cons.inj hcut
      exact ⟨1, .inr (by simp [unlines, quietEndpoint])⟩
    · simp only [cons_append, cons.injEq, nil_eq, append_eq_nil_iff] at hcut
      obtain ⟨rfl, rfl, rfl, -⟩ := hcut
      exact ⟨1, .inl (by simp [unlines, quietEndpoint])⟩

/-- The same frame in two chunks that are cut inside its line: the reader takes the first byte for
a frame, and stops. -/
theorem reader_misses_cut_ping :
    ∃ chunks : List Bytes, chunks.flatten = body unaryRuntime 0 [ping] ∧
      (reader quietEndpoint { world := () } chunks).1.handled = [] ∧
      served quietEndpoint { world := () } [ping] = [ping] := by
  obtain ⟨tail, hta⟩ := unaryRuntime.dumps_obj (ping.wire unaryRuntime 0)
  refine ⟨[[openingBrace], tail ++ [newline]], ?_, ?_, rfl⟩
  · simp [body, encode, hta]
  have hls : splitLines [openingBrace] = [[openingBrace]] := by decide
  have hst : readLine quietEndpoint { world := () } [openingBrace] =
      ({ world := () }, .stopped) := by
    rw [readLine, decode, quietEndpoint]
    rfl
  rw [reader, readAll, hls, readAll, hst]

end Orchestratord.Peer.Batch
