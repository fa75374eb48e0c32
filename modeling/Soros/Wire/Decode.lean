import Soros.Lib.Parse
import Soros.Wire.Json

set_option autoImplicit false

/-! # Bytes as messages

A decoder for the texts of `Wire/Json.lean`: it accepts what `Message::to_vec` makes of a
message, with whitespace around it, and reads it back. `Serde.json` puts the two together; all
that is assumed of the encoding anywhere holds of it (`json_compact`, `json_singleValue`). Numbers
may be of any size here, while the decoder of the source accepts what a `usize` holds. -/

namespace Soros

namespace Json

open Parser

/-! ## Numbers -/

def isDigit (b : UInt8) : Bool := 48 ≤ b && b ≤ 57

def value (digits : Bytes) : Option Nat :=
  if digits ≠ [] ∧ digits.all isDigit then
    some (Nat.ofDigitChars 10 (digits.map fun b => Char.ofNat b.toNat) 0)
  else none

/-- A number and the byte after it. -/
def numeral (stop : UInt8) : Parser UInt8 Nat := do
  let digits ← upTo stop
  ofOption (value digits)

/-! ## Strings -/

def hexValue (b : UInt8) : Option UInt8 :=
  if isDigit b then some (b - 48)
  else if 97 ≤ b ∧ b ≤ 102 then some (b - 87)
  else none

/-- The byte that a letter after a backslash stands for. -/
def unescape (b : UInt8) : Option UInt8 :=
  if b = 34 ∨ b = 92 then some b
  else if b = 98 then some 8
  else if b = 116 then some 9
  else if b = 110 then some 10
  else if b = 102 then some 12
  else if b = 114 then some 13
  else none

def hexByte (high low : UInt8) : Option UInt8 :=
  (hexValue high).bind fun h => (hexValue low).map fun l => 16 * h + l

/-- A byte of a string, or the quote at its end. -/
def symbol : Parser UInt8 (Option UInt8) := do
  let b ← item
  if b = 34 then pure none
  else if b = 92 then do
    let c ← item
    if c = 117 then do
      literal (ascii "00")
      let high ← item
      let low ← item
      let byte ← ofOption (hexByte high low)
      pure (some byte)
    else do
      let byte ← ofOption (unescape c)
      pure (some byte)
  else if b < 32 then fail
  else pure (some b)

/-- What is left of a string after its opening quote. -/
def text : Parser UInt8 String := do
  let bytes ← manyUntil symbol
  ofOption (String.fromUTF8? ⟨bytes.toArray⟩)

/-! ## Messages -/

/-- The name in a tagged value, after its opening brace. -/
def key : Parser UInt8 Bytes := do
  literal (ascii "\"")
  let name ← upTo 34
  literal (ascii ":")
  pure name

/-- A value of an enum: a name alone, or an object whose only key is the name. -/
def enum {α : Type} (unit : Bytes → Option α) (body : Bytes → Parser UInt8 α) :
    Parser UInt8 α := do
  let b ← item
  if b = 34 then do
    let name ← upTo 34
    ofOption (unit name)
  else if b = 123 then do
    let name ← key
    body name
  else fail

def requestTypeOf (name : Bytes) : Option RequestType :=
  if name = ascii "Create" then some .create
  else if name = ascii "Delete" then some .delete
  else if name = ascii "Read" then some .read
  else if name = ascii "Write" then some .write
  else if name = ascii "Release" then some .release
  else none

def requestType : Parser UInt8 RequestType := enum requestTypeOf fun _ => fail

/-- The address and the port that a text names. -/
def addressOf (text : String) : Option SocketAddr :=
  let digits := (text.toList.reverse.takeWhile (· ≠ ':')).reverse
  let ip := ((text.toList.reverse.dropWhile (· ≠ ':')).drop 1).reverse
  some ⟨String.ofList ip, UInt16.ofNat (Nat.ofDigitChars 10 digits 0)⟩

def responseUnit (name : Bytes) : Option RegistryResponse :=
  if name = ascii "Ack" then some .ack else none

def responseBody (name : Bytes) : Parser UInt8 RegistryResponse :=
  if name = ascii "Success" then do
    let keyId ← numeral 125
    pure (.success keyId)
  else if name = ascii "Wait" then do
    let keyId ← numeral 125
    pure (.wait keyId)
  else if name = ascii "Holder" then do
    literal (ascii "[")
    let keyId ← numeral 44
    literal (ascii "\"")
    let addr ← text
    literal (ascii "]\x7d")
    let addr ← ofOption (addressOf addr)
    pure (.holder keyId addr)
  else if name = ascii "Error" then do
    literal (ascii "\"")
    let err ← text
    literal (ascii "\x7d")
    pure (.error err)
  else fail

def response : Parser UInt8 RegistryResponse := enum responseUnit responseBody

def registryUnit (name : Bytes) : Option RegistryMessage :=
  if name = ascii "StopRequest" then some .stopRequest else none

def registryBody (name : Bytes) : Parser UInt8 RegistryMessage :=
  if name = ascii "Connection" then do
    let procId ← numeral 125
    pure (.connection procId)
  else if name = ascii "ConnectionEstablished" then do
    let idCounter ← numeral 125
    pure (.connectionEstablished idCounter)
  else if name = ascii "Request" then do
    literal (ascii "\x7b\"proc_id\":")
    let procId ← numeral 44
    literal (ascii "\"request_type\":")
    let t ← requestType
    literal (ascii ",\"key_id\":")
    let keyId ← numeral 125
    literal (ascii "\x7d")
    pure (.request procId t keyId)
  else if name = ascii "Response" then do
    let resp ← response
    literal (ascii "\x7d")
    pure (.response resp)
  else fail

def dataBody (name : Bytes) : Parser UInt8 DataMessage :=
  if name = ascii "Request" then do
    literal (ascii "\x7b\"key_id\":")
    let keyId ← numeral 125
    literal (ascii "\x7d")
    pure (.request keyId)
  else if name = ascii "Response" then do
    literal (ascii "\x7b\"data\":\"")
    let data ← text
    literal (ascii "\x7d\x7d")
    pure (.response data)
  else fail

def messageBody (name : Bytes) : Parser UInt8 Message :=
  if name = ascii "Registry" then do
    let message ← enum registryUnit registryBody
    literal (ascii "\x7d")
    pure (.registry message)
  else if name = ascii "Data" then do
    let message ← enum (fun _ => none) dataBody
    literal (ascii "\x7d")
    pure (.data message)
  else fail

def message : Parser UInt8 Message := enum (fun _ => none) messageBody

def isBlank (b : UInt8) : Bool := b = 32 || b = 9 || b = 10 || b = 13

/-- One message with whitespace around it. -/
def decode (bytes : Bytes) : Except String Message :=
  match message.run (bytes.dropWhile isBlank) with
  | some (message, rest) => if rest.all isBlank then .ok message else .error "trailing characters"
  | none => .error "expected value"

/-! ## The texts are read back -/

theorem isDigit_code {c : Char} (h : c.isDigit = true) :
    isDigit c.toNat.toUInt8 = true ∧ Char.ofNat c.toNat.toUInt8.toNat = c := by
  obtain ⟨hlow, hhigh⟩ := digit_range h
  have hcode : c.toNat.toUInt8.toNat = c.toNat := by
    rw [Nat.toUInt8_eq, UInt8.toNat_ofNat']
    omega
  refine ⟨?_, by rw [hcode, Char.ofNat_toNat]⟩
  simp only [isDigit, Bool.and_eq_true, decide_eq_true_eq, UInt8.le_iff_toNat_le, hcode]
  exact ⟨hlow, hhigh⟩

theorem value_number (n : Nat) : value (number n) = some n := by
  have hdigit : ∀ c ∈ Nat.toDigits 10 n, c.isDigit = true := fun c hc =>
    Nat.isDigit_of_mem_toDigits (by decide) (by decide) hc
  have hall : (number n).all isDigit = true := by
    rw [number, List.all_map, List.all_eq_true]
    exact fun c hc => (isDigit_code (hdigit c hc)).1
  have hchars : (number n).map (fun b => Char.ofNat b.toNat) = Nat.toDigits 10 n := by
    rw [number, List.map_map]
    conv => rhs; rw [← List.map_id (Nat.toDigits 10 n)]
    exact List.map_congr_left fun c hc => (isDigit_code (hdigit c hc)).2
  have hne : number n ≠ [] := fun h => Nat.toDigits_ne_nil (List.map_eq_nil_iff.1 h)
  rw [value, if_pos ⟨hne, hall⟩, hchars, Nat.ofDigitChars_toDigits (by decide) (by decide)]

/-- The last part of a text. -/
theorem reads_last {α β : Type} {p : Parser UInt8 α} {bytes : Bytes} {a : α} {c : β}
    (f : α → Parser UInt8 β) (hp : Reads p bytes a) (hf : f a = pure c) :
    Reads (p >>= f) bytes c := by
  have hrest : Reads (f a) [] c := by
    rw [hf]
    exact Reads.pure c
  have hread := hp.bind hrest
  rwa [List.append_nil] at hread

theorem reads_numeral (n : Nat) {stop : UInt8} (hstop : isDigit stop = false) :
    Reads (numeral stop) (number n ++ [stop]) n := by
  have hnumber : stop ∉ number n := by
    intro h
    obtain ⟨c, hc, rfl⟩ := List.mem_map.1 h
    have hdigit := Nat.isDigit_of_mem_toDigits (by decide) (by decide) hc
    rw [(isDigit_code hdigit).1] at hstop
    cases hstop
  refine reads_last _ (Reads.upTo hnumber) ?_
  rw [value_number]
  rfl

theorem hexByte_hexDigit (b : UInt8) : hexByte (hexDigit (b / 16)) (hexDigit (b % 16)) = some b := by
  have h : ∀ i : Fin 256, hexByte (hexDigit (UInt8.ofNat i / 16)) (hexDigit (UInt8.ofNat i % 16))
      = some (UInt8.ofNat i) := by decide +kernel
  have hb := h ⟨b.toNat, b.toNat_lt⟩
  rwa [UInt8.ofNat_toNat] at hb

theorem reads_symbol (b : UInt8) : Reads symbol (escape b) (some b) := by
  intro rest
  unfold escape
  split_ifs with h34 h92 h8 h9 h10 h12 h13 hcontrol
  · rw [h34]; rfl
  · rw [h92]; rfl
  · rw [h8]; rfl
  · rw [h9]; rfl
  · rw [h10]; rfl
  · rw [h12]; rfl
  · rw [h13]; rfl
  · show (ofOption (hexByte (hexDigit (b / 16)) (hexDigit (b % 16))) >>= fun byte =>
      (pure (some byte) : Parser UInt8 (Option UInt8))).run rest = _
    rw [hexByte_hexDigit]
    rfl
  · show (if b = 34 then _ else _ : Parser UInt8 (Option UInt8)).run rest = _
    rw [if_neg h34, if_neg h92, if_neg hcontrol]
    rfl

theorem escape_ne_nil (b : UInt8) : escape b ≠ [] := by
  unfold escape
  split_ifs <;> simp [ascii]

theorem reads_text (s : String) : Reads text ((utf8 s).flatMap escape ++ ascii "\"") s := by
  have hclose : Reads symbol (ascii "\"") none := fun _ => rfl
  have hbytes : Reads (manyUntil symbol) ((utf8 s).flatMap escape ++ ascii "\"") (utf8 s) :=
    Reads.manyUntil (fun b _ => ⟨reads_symbol b, escape_ne_nil b⟩) hclose (by decide)
  have hutf8 : String.fromUTF8? ⟨(utf8 s).toArray⟩ = some s := by
    simp only [utf8, Array.toArray_toList, String.fromUTF8?]
    exact dif_pos s.isValidUTF8
  refine reads_last _ hbytes ?_
  rw [hutf8]
  rfl

theorem addressOf_text (addr : SocketAddr) : addressOf addr.text = some addr := by
  have htext : addr.text.toList = addr.ip.toList ++ ':' :: Nat.toDigits 10 addr.port.toNat := by
    have hcolon : (toString ":").toList = [':'] := rfl
    have hip : toString addr.ip = addr.ip := rfl
    simp [SocketAddr.text, String.toList_append, hcolon, hip]
  have hcolon : ∀ c ∈ (Nat.toDigits 10 addr.port.toNat).reverse, decide (c ≠ ':') = true := by
    intro c hc
    refine decide_eq_true fun heq => ?_
    subst heq
    exact absurd (Nat.isDigit_of_mem_toDigits (by decide) (by decide) (List.mem_reverse.1 hc))
      (by decide)
  unfold addressOf
  rw [htext, List.reverse_append, List.reverse_cons, List.append_assoc,
    List.takeWhile_append_of_pos hcolon, List.dropWhile_append_of_pos hcolon]
  simp [Nat.ofDigitChars_toDigits]

/-! ### Values of enums -/

section Enum

variable {α : Type} {unit : Bytes → Option α} {body : Bytes → Parser UInt8 α} {a : α}

theorem reads_unit (name : String) (hname : 34 ∉ ascii name) (h : unit (ascii name) = some a) :
    Reads (enum unit body) (ascii "\"" ++ ascii name ++ ascii "\"") a := by
  have hname : Reads (upTo 34 >>= fun name => ofOption (unit name))
      (ascii name ++ [34] ++ []) a := by
    refine (Reads.upTo hname).bind ?_
    rw [h]
    exact Reads.pure a
  have hread : Reads (enum unit body) ([34] ++ (ascii name ++ [34] ++ [])) a :=
    (Reads.item 34).bind hname
  simpa [ascii] using hread

theorem reads_tagged {name : String} {value : Bytes} (hname : 34 ∉ ascii name)
    (h : Reads (body (ascii name)) (value ++ ascii "\x7d") a) :
    Reads (enum unit body) (tagged name value) a := by
  have hkey : Reads key (ascii "\"" ++ (ascii name ++ [34] ++ (ascii ":" ++ []))) (ascii name) :=
    (Reads.literal _).bind ((Reads.upTo hname).bind ((Reads.literal _).bind (Reads.pure _)))
  have hread : Reads (enum unit body) ([123] ++ ((ascii "\"" ++ (ascii name ++ [34] ++
      (ascii ":" ++ []))) ++ (value ++ ascii "\x7d"))) a := (Reads.item 123).bind (hkey.bind h)
  simpa [ascii, tagged] using hread

end Enum

theorem reads_requestType (t : RequestType) : Reads requestType t.json t := by
  cases t with
  | create => exact reads_unit "Create" (by decide) rfl
  | delete => exact reads_unit "Delete" (by decide) rfl
  | read => exact reads_unit "Read" (by decide) rfl
  | write => exact reads_unit "Write" (by decide) rfl
  | release => exact reads_unit "Release" (by decide) rfl

theorem reads_response (resp : RegistryResponse) : Reads response resp.json resp := by
  cases resp with
  | ack => exact reads_unit "Ack" (by decide) rfl
  | success k =>
      refine reads_tagged (by decide) ?_
      exact reads_last _ (reads_numeral k (by decide)) rfl
  | wait k =>
      refine reads_tagged (by decide) ?_
      exact reads_last _ (reads_numeral k (by decide)) rfl
  | holder k addr =>
      refine reads_tagged (by decide) ?_
      have hread : Reads (responseBody (ascii "Holder")) (ascii "[" ++ ((number k ++ [44]) ++
          (ascii "\"" ++ (((utf8 addr.text).flatMap escape ++ ascii "\"") ++ ascii "]\x7d"))))
          (.holder k addr) := by
        refine (Reads.literal _).bind ((reads_numeral k (by decide)).bind
          ((Reads.literal _).bind ((reads_text addr.text).bind (reads_last _ (Reads.literal _) ?_))))
        rw [addressOf_text]
        rfl
      simpa [string, ascii] using hread
  | error err =>
      refine reads_tagged (by decide) ?_
      have hread : Reads (responseBody (ascii "Error")) (ascii "\"" ++
          (((utf8 err).flatMap escape ++ ascii "\"") ++ ascii "\x7d")) (.error err) :=
        (Reads.literal _).bind ((reads_text err).bind (reads_last _ (Reads.literal _) rfl))
      simpa [string, ascii] using hread

theorem reads_registry (m : RegistryMessage) : Reads (enum registryUnit registryBody) m.json m := by
  cases m with
  | connection p =>
      exact reads_tagged (by decide) (reads_last _ (reads_numeral p (by decide)) rfl)
  | connectionEstablished c =>
      exact reads_tagged (by decide) (reads_last _ (reads_numeral c (by decide)) rfl)
  | request p t k =>
      refine reads_tagged (by decide) ?_
      have hread : Reads (registryBody (ascii "Request")) (ascii "\x7b\"proc_id\":" ++
          ((number p ++ [44]) ++ (ascii "\"request_type\":" ++ (t.json ++
            (ascii ",\"key_id\":" ++ ((number k ++ [125]) ++ ascii "\x7d")))))) (.request p t k) :=
        (Reads.literal _).bind ((reads_numeral p (by decide)).bind ((Reads.literal _).bind
          ((reads_requestType t).bind ((Reads.literal _).bind ((reads_numeral k (by decide)).bind
            (reads_last _ (Reads.literal _) rfl))))))
      simpa [ascii] using hread
  | response resp =>
      exact reads_tagged (by decide) ((reads_response resp).bind (reads_last _ (Reads.literal _) rfl))
  | stopRequest => exact reads_unit "StopRequest" (by decide) rfl

theorem reads_data (m : DataMessage) : Reads (enum (fun _ => none) dataBody) m.json m := by
  cases m with
  | request k =>
      refine reads_tagged (by decide) ?_
      have hread : Reads (dataBody (ascii "Request")) (ascii "\x7b\"key_id\":" ++
          ((number k ++ [125]) ++ ascii "\x7d")) (.request k) :=
        (Reads.literal _).bind ((reads_numeral k (by decide)).bind
          (reads_last _ (Reads.literal _) rfl))
      simpa [ascii, tagged] using hread
  | response data =>
      refine reads_tagged (by decide) ?_
      have hread : Reads (dataBody (ascii "Response")) (ascii "\x7b\"data\":\"" ++
          (((utf8 data).flatMap escape ++ ascii "\"") ++ ascii "\x7d\x7d")) (.response data) :=
        (Reads.literal _).bind ((reads_text data).bind (reads_last _ (Reads.literal _) rfl))
      simpa [ascii, tagged, string] using hread

theorem reads_message (m : Message) : Reads message m.json m := by
  cases m with
  | registry m =>
      exact reads_tagged (by decide) ((reads_registry m).bind (reads_last _ (Reads.literal _) rfl))
  | data m =>
      exact reads_tagged (by decide) ((reads_data m).bind (reads_last _ (Reads.literal _) rfl))

/-! ## No more than one message -/

theorem steady_numeral (stop : UInt8) : Steady (numeral stop) :=
  (Steady.upTo stop).bind fun _ => Steady.ofOption _

theorem steady_symbol : Steady symbol := by
  refine Steady.item.bind fun b => ?_
  refine .ite (.pure _) (.ite ?_ (.ite .fail (.pure _)))
  refine Steady.item.bind fun c => .ite ?_ ((Steady.ofOption _).bind fun _ => .pure _)
  refine (Steady.literal _).bind fun _ => Steady.item.bind fun high => ?_
  exact Steady.item.bind fun low => (Steady.ofOption _).bind fun _ => .pure _

theorem steady_text : Steady text :=
  (Steady.manyUntil steady_symbol).bind fun _ => Steady.ofOption _

theorem steady_enum {α : Type} {unit : Bytes → Option α} {body : Bytes → Parser UInt8 α}
    (h : ∀ name, Steady (body name)) : Steady (enum unit body) := by
  refine Steady.item.bind fun b => .ite ?_ (.ite ?_ .fail)
  · exact (Steady.upTo 34).bind fun _ => Steady.ofOption _
  · have hkey : Steady key :=
      (Steady.literal _).bind fun _ => (Steady.upTo 34).bind fun _ =>
        (Steady.literal _).bind fun _ => .pure _
    exact hkey.bind h

theorem steady_response : Steady response := by
  refine steady_enum fun name => .ite ?_ (.ite ?_ (.ite ?_ (.ite ?_ .fail)))
  · exact (steady_numeral 125).bind fun _ => .pure _
  · exact (steady_numeral 125).bind fun _ => .pure _
  · refine (Steady.literal _).bind fun _ => (steady_numeral 44).bind fun k => ?_
    refine (Steady.literal _).bind fun _ => steady_text.bind fun addr => ?_
    exact (Steady.literal _).bind fun _ => (Steady.ofOption _).bind fun _ => .pure _
  · refine (Steady.literal _).bind fun _ => steady_text.bind fun err => ?_
    exact (Steady.literal _).bind fun _ => .pure _

theorem steady_registry : Steady (enum registryUnit registryBody) := by
  refine steady_enum fun name => .ite ?_ (.ite ?_ (.ite ?_ (.ite ?_ .fail)))
  · exact (steady_numeral 125).bind fun _ => .pure _
  · exact (steady_numeral 125).bind fun _ => .pure _
  · have ht : Steady requestType := steady_enum fun _ => .fail
    refine (Steady.literal _).bind fun _ => (steady_numeral 44).bind fun p => ?_
    refine (Steady.literal _).bind fun _ => ht.bind fun t => ?_
    refine (Steady.literal _).bind fun _ => (steady_numeral 125).bind fun k => ?_
    exact (Steady.literal _).bind fun _ => .pure _
  · exact steady_response.bind fun _ => (Steady.literal _).bind fun _ => .pure _

theorem steady_data : Steady (enum (fun _ => none) dataBody) := by
  refine steady_enum fun name => .ite ?_ (.ite ?_ .fail)
  · refine (Steady.literal _).bind fun _ => (steady_numeral 125).bind fun k => ?_
    exact (Steady.literal _).bind fun _ => .pure _
  · refine (Steady.literal _).bind fun _ => steady_text.bind fun data => ?_
    exact (Steady.literal _).bind fun _ => .pure _

theorem steady_message : Steady message := by
  refine steady_enum fun name => .ite ?_ (.ite ?_ .fail)
  · exact steady_registry.bind fun _ => (Steady.literal _).bind fun _ => .pure _
  · exact steady_data.bind fun _ => (Steady.literal _).bind fun _ => .pure _

/-! ## The encoding -/

theorem isBlank_iff (bytes : Bytes) : bytes.all isBlank = true ↔ Blank bytes := by
  simp [isBlank, Blank, or_assoc]

theorem decode_blank (m : Message) {before after : Bytes} (hbefore : Blank before)
    (hafter : Blank after) : decode (before ++ m.json ++ after) = .ok m := by
  have hskip : (before ++ m.json ++ after).dropWhile isBlank = m.json ++ after := by
    obtain ⟨inner, hjson⟩ := json_braces m
    rw [List.append_assoc,
      List.dropWhile_append_of_pos (List.all_eq_true.1 ((isBlank_iff before).2 hbefore)), hjson]
    rfl
  rw [decode, hskip, reads_message m after]
  dsimp only
  rw [if_pos ((isBlank_iff after).2 hafter)]

theorem decode_more {bytes more : Bytes} {m m' : Message} (h : decode bytes = .ok m)
    (hmore : decode (bytes ++ more) = .ok m') : Blank more := by
  have hskip : (bytes ++ more).dropWhile isBlank = bytes.dropWhile isBlank ++ more := by
    rw [List.dropWhile_append, if_neg]
    intro hempty
    rw [decode, List.isEmpty_iff.1 hempty] at h
    cases h
  unfold decode at h hmore
  rw [hskip] at hmore
  cases hrun : message.run (bytes.dropWhile isBlank) with
  | none =>
      rw [hrun] at h
      cases h
  | some r =>
      obtain ⟨m₀, rest⟩ := r
      rw [steady_message _ _ _ more hrun] at hmore
      dsimp only at hmore
      split at hmore
      · rename_i hblank
        have hall := (isBlank_iff _).1 hblank
        exact fun b hb => hall b (List.mem_append_right rest hb)
      · cases hmore

/-- `std::str::from_utf8` accepts the bytes. -/
def isUtf8 (bytes : Bytes) : Bool := decide bytes.toByteArray.IsValidUTF8

theorem utf8EncodeChar_ascii {b : UInt8} (hb : b < 128) :
    String.utf8EncodeChar (Char.ofNat b.toNat) = [b] := by
  have h : ∀ i : Fin 128, String.utf8EncodeChar (Char.ofNat (UInt8.ofNat i).toNat)
      = [UInt8.ofNat i] := by decide +kernel
  have hcode := h ⟨b.toNat, hb⟩
  rwa [UInt8.ofNat_toNat] at hcode

theorem valid_ascii {bytes : Bytes} (h : ∀ b ∈ bytes, b < 128) :
    bytes.toByteArray.IsValidUTF8 := by
  induction bytes with
  | nil => exact ByteArray.isValidUTF8_empty
  | cons b bytes ih =>
      have hrest := ih fun b' hb' => h b' (List.mem_cons_of_mem b hb')
      have hchar := Char.isValidUTF8_toByteArray_utf8EncodeChar (c := Char.ofNat b.toNat)
      rw [utf8EncodeChar_ascii (h b List.mem_cons_self)] at hchar
      have happend := hchar.append hrest
      rwa [← List.toByteArray_append] at happend

/-- The bytes of a character outside ASCII are high. -/
theorem utf8EncodeChar_high {c : Char} (hc : c.utf8Size ≠ 1) :
    ∀ b ∈ String.utf8EncodeChar c, 128 ≤ b := by
  have hhigh : ∀ i : Fin 256, 128 ≤ UInt8.ofNat i ||| 128 ∧ 128 ≤ UInt8.ofNat i ||| 192 ∧
      128 ≤ UInt8.ofNat i ||| 224 ∧ 128 ≤ UInt8.ofNat i ||| 240 := by decide +kernel
  have hor : ∀ x : UInt8, 128 ≤ x ||| 128 ∧ 128 ≤ x ||| 192 ∧ 128 ≤ x ||| 224 ∧ 128 ≤ x ||| 240 := by
    intro x
    have hx := hhigh ⟨x.toNat, x.toNat_lt⟩
    rwa [UInt8.ofNat_toNat] at hx
  rcases c.utf8Size_eq with h | h | h | h
  · exact absurd h hc
  · rw [String.utf8EncodeChar_eq_cons_cons h]
    simp [hor]
  · rw [String.utf8EncodeChar_eq_cons_cons_cons h]
    simp [hor]
  · rw [String.utf8EncodeChar_eq_cons_cons_cons_cons h]
    simp [hor]

theorem escape_ascii {b : UInt8} (hb : b < 128) : ∀ b' ∈ escape b, b' < 128 := by
  have h : ∀ i : Fin 128, ∀ b' ∈ escape (UInt8.ofNat i), b' < 128 := by decide +kernel
  have hcode := h ⟨b.toNat, hb⟩
  rwa [UInt8.ofNat_toNat] at hcode

theorem escape_high {b : UInt8} (hb : 128 ≤ b) : escape b = [b] := by
  have h : ∀ i : Fin 256, 128 ≤ UInt8.ofNat i → escape (UInt8.ofNat i) = [UInt8.ofNat i] := by
    decide +kernel
  have hcode := h ⟨b.toNat, b.toNat_lt⟩
  rw [UInt8.ofNat_toNat] at hcode
  exact hcode hb

/-- Escaping a character leaves UTF-8. -/
theorem valid_escapeChar (c : Char) :
    ((String.utf8EncodeChar c).flatMap escape).toByteArray.IsValidUTF8 := by
  by_cases hc : c.utf8Size = 1
  · have hcode : c.val.toUInt8 < 128 := by
      have hle := Char.utf8Size_eq_one_iff.1 hc
      rw [UInt32.le_iff_toNat_le] at hle
      rw [UInt8.lt_iff_toNat_lt, UInt32.toNat_toUInt8]
      simp only [UInt32.reduceToNat, UInt8.reduceToNat] at hle ⊢
      omega
    rw [String.utf8EncodeChar_eq_singleton hc, List.flatMap_singleton]
    exact valid_ascii (escape_ascii hcode)
  · have hsame : (String.utf8EncodeChar c).flatMap escape = String.utf8EncodeChar c := by
      conv => rhs; rw [← List.flatMap_singleton' (String.utf8EncodeChar c)]
      exact List.flatMap_congr fun b hb => escape_high (utf8EncodeChar_high hc b hb)
    rw [hsame]
    exact Char.isValidUTF8_toByteArray_utf8EncodeChar

theorem valid_printable {bytes : Bytes} (h : Printable bytes) : bytes.toByteArray.IsValidUTF8 :=
  valid_ascii fun b hb => UInt8.lt_trans (h b hb).2 (by decide)

theorem closed_utf8 : Closed fun bytes => bytes.toByteArray.IsValidUTF8 where
  append ha hb := by
    rw [List.toByteArray_append]
    exact ha.append hb
  printable := valid_printable
  string text := by
    obtain ⟨chars, hchars⟩ := text.isValidUTF8
    have hutf8 : utf8 text = chars.flatMap String.utf8EncodeChar := by
      rw [utf8, String.toUTF8, hchars, List.utf8Encode, List.data_toByteArray]
    have hinner : ∀ chars : List Char, ((chars.flatMap String.utf8EncodeChar).flatMap
        escape).toByteArray.IsValidUTF8 := by
      intro chars
      induction chars with
      | nil => exact ByteArray.isValidUTF8_empty
      | cons c chars ih =>
          rw [List.flatMap_cons, List.flatMap_append, List.toByteArray_append]
          exact (valid_escapeChar c).append ih
    rw [string, hutf8, List.toByteArray_append, List.toByteArray_append]
    have hquote := valid_printable (by decide : Printable (ascii "\""))
    exact (hquote.append (hinner chars)).append hquote

end Json

/-- The encoding and its decoder. -/
def Serde.json : Serde Bytes where
  toVec := Message.frame
  fromSlice := Json.decode
  isUtf8 := Json.isUtf8
  fromSlice_toVec m := by
    have hframe : Json.decode ([] ++ m.json ++ [newline]) = .ok m :=
      Json.decode_blank m (by simp [Blank]) (by simp [Blank, newline])
    rwa [List.nil_append] at hframe

theorem Serde.json_compact : Serde.json.Compact where
  toVec_eq _ := rfl
  fromSlice_json m := by
    have hjson : Json.decode ([] ++ m.json ++ []) = .ok m :=
      Json.decode_blank m (by simp [Blank]) (by simp [Blank])
    rwa [List.nil_append, List.append_nil] at hjson
  isUtf8_json m := decide_eq_true (Json.closed_utf8.message m)

theorem Serde.json_singleValue : Serde.json.SingleValue where
  toCompact := Serde.json_compact
  fromSlice_blank m _ _ hbefore hafter := Json.decode_blank m hbefore hafter
  fromSlice_more _ _ _ _ h hmore := Json.decode_more h hmore

end Soros
