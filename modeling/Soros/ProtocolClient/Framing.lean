import Soros.Lib.Lines
import Soros.ProtocolClient.Basic
import Soros.Wire.Decode

set_option autoImplicit false

/-! # How the client cuts the stream into messages

`receive_message` with its buffer, over what successive reads of the registry's socket return.
It reads before it looks at what it has, and stops when the *last* read has brought a newline.
That no complete message is left behind in the buffer, where the next call would wait for a
read it does not need, is due to the length of the responses: `receives_stream`. -/

namespace Soros

namespace ProtocolClient

/-- What is left of the stream, read by read, and the client's buffer `curr_data`. -/
structure Incoming where
  reads : List (ReadResult Bytes)
  currData : Bytes

/-- What `read` puts into the buffer, or its error. -/
def readInto : ReadResult Bytes → Except IoError Bytes
  | .eof => .ok []
  | .data bytes => .ok bytes
  | .failed e => .error e

/-- The end of the loop of `receive_message`, and on the side the contents of `curr_data` at
each read that it made. -/
structure Filled where
  result : Except IoError Unit
  left : Incoming
  buffered : List Bytes

/-- The loop of `receive_message`; `none` while it blocks. -/
def fill (currData : Bytes) : List (ReadResult Bytes) → Option Filled
  | [] => none
  | read :: reads =>
      match readInto read with
      | .error e => some ⟨.error e, ⟨reads, currData⟩, [currData]⟩
      | .ok bytes =>
          let buffer := bytes ++ List.replicate (32 - bytes.length) 0
          let currData' := currData ++ buffer.take bytes.length
          if buffer.contains newline then some ⟨.ok (), ⟨reads, currData'⟩, [currData]⟩
          else (fill currData' reads).map fun f => { f with buffered := currData :: f.buffered }

/-- One call of `receive_message`. -/
structure Received where
  outcome : Outcome ProtocolClientError Message
  left : Incoming
  buffered : List Bytes

/-- `Message::from_slice` between two log lines that want the data to be UTF-8. The second one, over
a parse error, is logged unless the log is off; a text that parses is UTF-8 anyway. -/
def decode (serde : Serde Bytes) (data : Bytes) : Outcome ProtocolClientError Message :=
  if serde.isUtf8 data then
    match serde.fromSlice data with
    | .ok message => .ok message
    | .error text => .err (.serializationError text)
  else .panic "called `Result::unwrap()` on an `Err` value"

/-- The rest of `receive_message`, once its loop has ended. -/
def extract (serde : Serde Bytes) (f : Filled) : Received :=
  match f.result with
  | .error e => ⟨.err (.ioError e), f.left, f.buffered⟩
  | .ok () =>
      match f.left.currData.idxOf? newline with
      | none => ⟨.err .unexpectedResponse, f.left, f.buffered⟩
      | some index =>
          let data := f.left.currData.take index
          ⟨decode serde data, ⟨f.left.reads, f.left.currData.drop (index + 1)⟩, f.buffered⟩

def receive (serde : Serde Bytes) (s : Incoming) : Option Received :=
  (fill s.currData s.reads).map (extract serde)

/-- Calls one after the other, as long as they return. -/
def receiveAll (serde : Serde Bytes) : Nat → Incoming → List Received
  | 0, _ => []
  | n + 1, s =>
      match receive serde s with
      | none => []
      | some r => r :: receiveAll serde n r.left

/-! ## One call -/

/-- The reads of a stream are pieces of it that fit into the buffer. -/
def Fits (reads : List Bytes) : Prop := ∀ r ∈ reads, r.length ≤ 32

/-- **The loop ends with the first line**: every read is made while the line is incomplete, and
what comes after it is shorter than the buffer. -/
theorem fill_line {reads : List Bytes} (hfits : Fits reads) {currData body rest : Bytes}
    (hbody : newline ∉ body) (hopen : newline ∉ currData)
    (h : currData ++ reads.flatten = body ++ newline :: rest) :
    ∃ tail reads' buffered,
      fill currData (reads.map .data)
        = some ⟨.ok (), ⟨reads'.map .data, body ++ newline :: tail⟩, buffered⟩ ∧
      tail ++ reads'.flatten = rest ∧ tail.length < 32 ∧ Fits reads' ∧
      ∀ b ∈ buffered, newline ∉ b := by
  induction reads generalizing currData with
  | nil =>
      rw [List.flatten_nil, List.append_nil] at h
      exact absurd (h ▸ List.mem_append_right _ List.mem_cons_self) hopen
  | cons r reads ih =>
      have hr : r.length ≤ 32 := hfits r List.mem_cons_self
      have hreads : Fits reads := fun r' hr' => hfits r' (List.mem_cons_of_mem r hr')
      have hzero : newline ∉ List.replicate (32 - r.length) (0 : UInt8) := fun hno =>
        absurd (List.eq_of_mem_replicate hno) (by decide)
      rw [List.flatten_cons, ← List.append_assoc] at h
      rw [List.map_cons, fill]
      simp only [readInto, List.take_left, List.contains_eq_mem, List.mem_append, hzero, or_false,
        decide_eq_true_eq]
      -- the loop looks for a newline in the read buffer only, zeros included
      by_cases hsep : newline ∈ r
      · obtain ⟨tail, hcurr, htail⟩ :=
          Lines.complete hbody h (List.mem_append_right currData hsep)
        refine ⟨tail, reads, [currData], ?_, htail, ?_, hreads, ?_⟩
        · rw [if_pos hsep, hcurr]
        · have hlength := Lines.length_le hcurr hopen
          have htotal := congrArg List.length hcurr
          simp only [List.length_append, List.length_cons] at htotal
          omega
        · intro b hb
          rw [List.mem_singleton.1 hb]
          exact hopen
      · have hopen' : newline ∉ currData ++ r := fun hno =>
          (List.mem_append.1 hno).elim hopen hsep
        obtain ⟨tail, reads', buffered, hfill, htail, hlength, hfits', hbuffered⟩ :=
          ih hreads hopen' h
        refine ⟨tail, reads', currData :: buffered, ?_, htail, hlength, hfits', ?_⟩
        · rw [if_neg hsep, hfill]
          rfl
        · intro b hb
          rcases List.mem_cons.1 hb with rfl | hb
          · exact hopen
          · exact hbuffered b hb

/-- **One call** on a stream whose next message is there or still to come. -/
theorem receive_frame {serde : Serde Bytes} (hserde : serde.Compact) {reads : List Bytes}
    (hfits : Fits reads) {currData rest : Bytes} (hopen : newline ∉ currData) {message : Message}
    (h : currData ++ reads.flatten = message.frame ++ rest) :
    ∃ tail reads' buffered,
      receive serde ⟨reads.map .data, currData⟩
        = some ⟨.ok message, ⟨reads'.map .data, tail⟩, buffered⟩ ∧
      tail ++ reads'.flatten = rest ∧ tail.length < 32 ∧ Fits reads' ∧
      ∀ b ∈ buffered, newline ∉ b := by
  rw [Message.frame, List.append_assoc, List.singleton_append] at h
  obtain ⟨tail, reads', buffered, hfill, hrest⟩ :=
    fill_line hfits (newline_notMem_json message) hopen h
  refine ⟨tail, reads', buffered, ?_, hrest⟩
  have hdecode : decode serde message.json = .ok message := by
    rw [decode, if_pos (hserde.isUtf8_json message), hserde.fromSlice_json message]
  have hdrop : (message.json ++ newline :: tail).drop (message.json.length + 1) = tail := by
    rw [← List.drop_drop, List.drop_left, List.drop_one, List.tail_cons]
  rw [receive, hfill, Option.map_some, extract]
  dsimp only
  rw [Lines.idxOf?_line (newline_notMem_json message)]
  dsimp only
  rw [List.take_left, hdecode, hdrop]

/-! ## Streams of responses -/

/-- Less than 32 bytes of a stream of responses are no whole frame. -/
theorem no_frame (response : RegistryResponse) (responses : List RegistryResponse)
    {tail coming : Bytes}
    (h : tail ++ coming = ((response :: responses).map fun response =>
      Message.frame (.registry (.response response))).flatten)
    (hlength : tail.length < 32) : newline ∉ tail := by
  have hframe := response_frame response
  simp only [List.map_cons, List.flatten_cons, Message.frame, List.append_assoc,
    List.singleton_append, List.length_append, List.length_singleton] at h hframe
  exact Lines.incomplete (newline_notMem_json _) h (by omega)

/-- Calls on a stream that goes on with a message and then responses. -/
theorem receiveAll_frames {serde : Serde Bytes} (hserde : serde.Compact)
    (responses : List RegistryResponse) (message : Message) {reads : List Bytes}
    (hfits : Fits reads) {currData : Bytes} (hopen : newline ∉ currData)
    (h : currData ++ reads.flatten = message.frame ++
      (responses.map fun response => Message.frame (.registry (.response response))).flatten) :
    let calls := receiveAll serde (responses.length + 1) ⟨reads.map .data, currData⟩
    calls.map Received.outcome
      = (message :: responses.map fun response => .registry (.response response)).map .ok ∧
    (∀ c ∈ calls, newline ∉ c.left.currData) ∧ ∀ c ∈ calls, ∀ b ∈ c.buffered, newline ∉ b := by
  induction responses generalizing message reads currData with
  | nil =>
      obtain ⟨tail, reads', buffered, hreceive, htail, hlength, -, hbuffered⟩ :=
        receive_frame hserde hfits hopen h
      have hnone : newline ∉ tail := by
        obtain ⟨rfl, -⟩ := List.append_eq_nil_iff.1 htail
        exact List.not_mem_nil
      rw [List.length_nil, receiveAll, hreceive]
      dsimp only [receiveAll]
      refine ⟨rfl, fun c hc => ?_, fun c hc => ?_⟩
      · rw [List.mem_singleton.1 hc]
        exact hnone
      · rw [List.mem_singleton.1 hc]
        exact hbuffered
  | cons response responses ih =>
      obtain ⟨tail, reads', buffered, hreceive, htail, hlength, hfits', hbuffered⟩ :=
        receive_frame hserde hfits hopen h
      have hnone : newline ∉ tail := no_frame response responses htail hlength
      obtain ⟨houtcomes, hcurr, hreads⟩ := ih (.registry (.response response)) hfits' hnone htail
      rw [List.length_cons, receiveAll, hreceive]
      dsimp only
      refine ⟨?_, ?_, ?_⟩
      · rw [List.map_cons, houtcomes]
        rfl
      · intro c hc
        rcases List.mem_cons.1 hc with rfl | hc
        · exact hnone
        · exact hcurr c hc
      · intro c hc
        rcases List.mem_cons.1 hc with rfl | hc
        · exact hbuffered
        · exact hreads c hc

/-- **Client framing is independent of segmentation.** However the greeting and the responses
that follow it are cut into reads, the calls of `receive_message` return them one by one; no
newline stays in the buffer, and no read is made while one is there. -/
theorem receives_stream {serde : Serde Bytes} (hserde : serde.Compact) (procId : ProcId)
    (responses : List RegistryResponse) (reads : List Bytes)
    (hreads : ∀ r ∈ reads, r ≠ [] ∧ r.length ≤ 32)
    (hstream : reads.flatten = ((Message.registry (.connection procId) ::
      responses.map fun response => .registry (.response response)).map serde.toVec).flatten) :
    let calls := receiveAll serde (responses.length + 1) ⟨reads.map .data, []⟩
    calls.map Received.outcome = (Message.registry (.connection procId) ::
      responses.map fun response => .registry (.response response)).map .ok ∧
    (∀ c ∈ calls, newline ∉ c.left.currData) ∧ ∀ c ∈ calls, ∀ b ∈ c.buffered, newline ∉ b := by
  refine receiveAll_frames hserde responses _ (fun r hr => (hreads r hr).2) List.not_mem_nil ?_
  rw [hstream, List.nil_append, List.map_cons, List.flatten_cons, List.map_map,
    hserde.toVec_eq]
  congr 2
  exact List.map_congr_left fun response _ => hserde.toVec_eq _

/-- A greeting and a response, in reads that end in the middle of them. -/
theorem receives_stream_two :
    let stream := (Message.registry (.connection 1)).frame ++
      (Message.registry (.response (.success 7))).frame
    let calls := receiveAll Serde.json 2
      ⟨[.data (stream.take 32), .data ((stream.drop 32).take 32), .data (stream.drop 64)], []⟩
    calls.map Received.outcome
      = [.ok (.registry (.connection 1)), .ok (.registry (.response (.success 7)))] ∧
    (∀ c ∈ calls, newline ∉ c.left.currData) ∧ ∀ c ∈ calls, ∀ b ∈ c.buffered, newline ∉ b :=
  receives_stream Serde.json_compact 1 [.success 7] [_, _, _] (by decide) (by decide)

end ProtocolClient

end Soros
