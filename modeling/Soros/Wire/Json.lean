import Soros.RegistryServer.Basic

set_option autoImplicit false

/-! # Messages as bytes

The compact JSON that `Message::to_vec` makes of a message: an enum variant is an object with
the name of the variant as its only key, a variant without fields a string, a struct variant an
object with the fields in the order of their declaration. A newline ends the message.

Control characters in strings are escaped, so the newline at the end is the only one
(`newline_notMem_json`). A frame with a response is at least 32 bytes long (`response_frame`). -/

namespace Soros

abbrev Bytes := List UInt8

/-- The byte that ends a message. -/
def newline : UInt8 := 10

/-- The bytes of a text in ASCII. -/
def ascii (text : String) : Bytes := text.toList.map fun c => c.toNat.toUInt8

/-- The bytes of a text in UTF-8. -/
def utf8 (text : String) : Bytes := text.toUTF8.data.toList

namespace Json

def number (n : Nat) : Bytes := (Nat.toDigits 10 n).map fun c => c.toNat.toUInt8

def hexDigit (b : UInt8) : UInt8 := if b < 10 then 48 + b else 87 + b

/-- The byte in a string. -/
def escape (b : UInt8) : Bytes :=
  if b = 34 then ascii "\\\""
  else if b = 92 then ascii "\\\\"
  else if b = 8 then ascii "\\b"
  else if b = 9 then ascii "\\t"
  else if b = 10 then ascii "\\n"
  else if b = 12 then ascii "\\f"
  else if b = 13 then ascii "\\r"
  else if b < 32 then ascii "\\u00" ++ [hexDigit (b / 16), hexDigit (b % 16)]
  else [b]

def string (text : String) : Bytes := ascii "\"" ++ (utf8 text).flatMap escape ++ ascii "\""

/-- An object with one key. -/
def tagged (name : String) (value : Bytes) : Bytes :=
  ascii "\x7b\"" ++ ascii name ++ ascii "\":" ++ value ++ ascii "\x7d"

end Json

open Json

def SocketAddr.text (addr : SocketAddr) : String := s!"{addr.ip}:{addr.port.toNat}"

def RequestType.json : RequestType → Bytes
  | .create => ascii "\"Create\""
  | .delete => ascii "\"Delete\""
  | .read => ascii "\"Read\""
  | .write => ascii "\"Write\""
  | .release => ascii "\"Release\""

def RegistryResponse.json : RegistryResponse → Bytes
  | .ack => ascii "\"Ack\""
  | .success keyId => tagged "Success" (number keyId)
  | .wait keyId => tagged "Wait" (number keyId)
  | .holder keyId addr =>
      tagged "Holder" (ascii "[" ++ number keyId ++ ascii "," ++ string addr.text ++ ascii "]")
  | .error text => tagged "Error" (string text)

def RegistryMessage.json : RegistryMessage → Bytes
  | .connection procId => tagged "Connection" (number procId)
  | .connectionEstablished idCounter => tagged "ConnectionEstablished" (number idCounter)
  | .request procId requestType keyId =>
      tagged "Request" (ascii "\x7b\"proc_id\":" ++ number procId ++ ascii ",\"request_type\":" ++
        requestType.json ++ ascii ",\"key_id\":" ++ number keyId ++ ascii "\x7d")
  | .response resp => tagged "Response" resp.json
  | .stopRequest => ascii "\"StopRequest\""

def DataMessage.json : DataMessage → Bytes
  | .request keyId => tagged "Request" (tagged "key_id" (number keyId))
  | .response data => tagged "Response" (tagged "data" (string data))

/-- `serde_json::to_vec`. -/
def Message.json : Message → Bytes
  | .registry message => tagged "Registry" message.json
  | .data message => tagged "Data" message.json

/-- `Message::to_vec`. -/
def Message.frame (message : Message) : Bytes := message.json ++ [newline]

/-- The whitespace of JSON. -/
def Blank (bytes : Bytes) : Prop := ∀ b ∈ bytes, b = 32 ∨ b = 9 ∨ b = 10 ∨ b = 13

/-- What is assumed of `serde_json`: compact output, and `from_slice` undoes `to_vec`. The messages
meant are those with identifiers below 2^64; there are no others in the source. -/
structure Serde.Compact (serde : Serde Bytes) : Prop where
  toVec_eq : ∀ message : Message, serde.toVec message = message.frame
  fromSlice_json : ∀ message : Message, serde.fromSlice message.json = .ok message
  isUtf8_json : ∀ message : Message, serde.isUtf8 message.json = true

/-- What is assumed of `serde_json` besides: `from_slice` accepts exactly one JSON value, which
may have whitespace around it. -/
structure Serde.SingleValue (serde : Serde Bytes) : Prop extends serde.Compact where
  fromSlice_blank : ∀ (message : Message) before after, Blank before → Blank after →
    serde.fromSlice (before ++ message.json ++ after) = .ok message
  /-- A value is complete where it ends: what follows it is whitespace. -/
  fromSlice_more : ∀ bytes more message message', serde.fromSlice bytes = .ok message →
    serde.fromSlice (bytes ++ more) = .ok message' → Blank more

/-! ## What messages are made of -/

/-- Printable ASCII. -/
def Printable (bytes : Bytes) : Prop := ∀ b ∈ bytes, 32 ≤ b ∧ b < 127

instance (bytes : Bytes) : Decidable (Printable bytes) :=
  List.decidableBAll (fun b => 32 ≤ b ∧ b < 127) bytes

/-- A property that printable text and strings have and that appending keeps. -/
structure Closed (P : Bytes → Prop) : Prop where
  append : ∀ {a b}, P a → P b → P (a ++ b)
  printable : ∀ {bytes}, Printable bytes → P bytes
  string : ∀ text, P (string text)

/-- The codes of the decimal digits. -/
theorem digit_range {c : Char} (h : c.isDigit = true) : 48 ≤ c.toNat ∧ c.toNat ≤ 57 := by
  simp only [Char.isDigit, Bool.and_eq_true, decide_eq_true_eq, ge_iff_le, UInt32.le_iff_toNat_le]
    at h
  exact h

theorem printable_number (n : Nat) : Printable (number n) := by
  intro b hb
  obtain ⟨c, hc, rfl⟩ := List.mem_map.1 hb
  obtain ⟨hlow, hhigh⟩ :=
    digit_range (Nat.isDigit_of_mem_toDigits (by decide) (by decide) hc)
  rw [UInt8.le_iff_toNat_le, UInt8.lt_iff_toNat_lt, Nat.toUInt8_eq, UInt8.toNat_ofNat']
  simp only [UInt8.reduceToNat]
  omega

namespace Closed

variable {P : Bytes → Prop}

theorem number (h : Closed P) (n : Nat) : P (number n) := h.printable (printable_number n)

theorem tagged (h : Closed P) {name : String} {value : Bytes} (hname : Printable (ascii name))
    (hvalue : P value) : P (tagged name value) :=
  h.append (h.append (h.append (h.append (h.printable (by decide)) (h.printable hname))
    (h.printable (by decide))) hvalue) (h.printable (by decide))

theorem requestType (h : Closed P) (t : RequestType) : P t.json := by
  cases t <;> exact h.printable (by decide)

theorem response (h : Closed P) (resp : RegistryResponse) : P resp.json := by
  cases resp with
  | ack => exact h.printable (by decide)
  | success k | wait k => exact h.tagged (by decide) (h.number k)
  | holder k addr =>
      refine h.tagged (by decide) ?_
      have hkey : P (ascii "[" ++ Json.number k) :=
        h.append (h.printable (by decide)) (h.number k)
      have haddr := h.append (h.append hkey (h.printable (by decide : Printable (ascii ","))))
        (h.string addr.text)
      exact h.append haddr (h.printable (by decide))
  | error text => exact h.tagged (by decide) (h.string text)

theorem registryMessage (h : Closed P) (message : RegistryMessage) : P message.json := by
  cases message with
  | connection p | connectionEstablished p => exact h.tagged (by decide) (h.number p)
  | request p t k =>
      refine h.tagged (by decide) ?_
      have hproc : P (ascii "\x7b\"proc_id\":" ++ Json.number p) :=
        h.append (h.printable (by decide)) (h.number p)
      have htype := h.append (h.append hproc
        (h.printable (by decide : Printable (ascii ",\"request_type\":")))) (h.requestType t)
      have hkey := h.append (h.append htype
        (h.printable (by decide : Printable (ascii ",\"key_id\":")))) (h.number k)
      exact h.append hkey (h.printable (by decide))
  | response resp => exact h.tagged (by decide) (h.response resp)
  | stopRequest => exact h.printable (by decide)

theorem dataMessage (h : Closed P) (message : DataMessage) : P message.json := by
  cases message with
  | request k => exact h.tagged (by decide) (h.tagged (by decide) (h.number k))
  | response data => exact h.tagged (by decide) (h.tagged (by decide) (h.string data))

/-- **The texts of messages** are made of printable ASCII and strings. -/
theorem message (h : Closed P) (message : Message) : P message.json := by
  cases message with
  | registry message => exact h.tagged (by decide) (h.registryMessage message)
  | data message => exact h.tagged (by decide) (h.dataMessage message)

end Closed

/-! ## No newline inside a message -/

theorem newline_notMem_escape (b : UInt8) : newline ∉ escape b := by
  have h : ∀ i : Fin 256, newline ∉ escape (UInt8.ofNat i) := by decide +kernel
  have hb := h ⟨b.toNat, b.toNat_lt⟩
  rwa [UInt8.ofNat_toNat] at hb

theorem closed_plain : Closed fun bytes => newline ∉ bytes where
  append ha hb := fun h => (List.mem_append.1 h).elim ha hb
  printable h := fun hno => absurd (h _ hno).1 (by decide)
  string text := by
    intro h
    rcases List.mem_append.1 h with h | h
    · rcases List.mem_append.1 h with h | h
      · exact absurd h (by decide)
      · obtain ⟨b, -, hb⟩ := List.mem_flatMap.1 h
        exact newline_notMem_escape b hb
    · exact absurd h (by decide)

/-- **Compact output has no raw newline.** -/
theorem newline_notMem_json (message : Message) : newline ∉ message.json :=
  closed_plain.message message

/-! ## The ends of a message -/

/-- A message is an object: it begins with one brace and ends with the other. -/
theorem json_braces (message : Message) :
    ∃ inner, message.json = 123 :: inner ++ [125] := by
  cases message <;> exact ⟨_, rfl⟩

/-! ## The length of a response -/

theorem length_tagged (name : String) (value : Bytes) :
    (tagged name value).length = (ascii name).length + value.length + 5 := by
  simp only [tagged, List.length_append]
  have hopen : (ascii "\x7b\"").length = 2 := by decide
  have hcolon : (ascii "\":").length = 2 := by decide
  have hclose : (ascii "\x7d").length = 1 := by decide
  omega

/-- The shortest response is `Ack`. -/
theorem length_response (response : RegistryResponse) : 5 ≤ response.json.length := by
  cases response with
  | ack => decide
  | success k | wait k | holder k addr | error text =>
      rw [RegistryResponse.json, length_tagged]
      omega

/-- **The frame of a response** has at least 32 bytes. -/
theorem response_frame (response : RegistryResponse) :
    32 ≤ (Message.frame (.registry (.response response))).length := by
  have hregistry : (ascii "Registry").length = 8 := by decide
  have hresponse : (ascii "Response").length = 8 := by decide
  have hlength := length_response response
  simp only [Message.frame, Message.json, RegistryMessage.json, List.length_append, length_tagged,
    List.length_singleton]
  omega

example : (Message.frame (.registry (.response .ack))).length = 32 := by decide

end Soros
