import Mathlib
import NanoDelta.Library.Wire

/-!
# Packets of the Dhan feed

`decode_packet` (`providers/dhan.py`): eight bytes of header, and a payload by the response code, each field at an offset of
its own. Bytes after the payload are not looked at, and neither is a payload that is not whole.

* `decodePacket`: the reader. `Message.encode`: a packet as a header and a payload, field after field.
* `decodePacket_encode`: what is written is read back, whatever follows it.
* `exists_message`: every packet of eight bytes is a message with what follows it, so that the reader never reads past the
  end.
* `decodePacket_injective`: but for NaN, a packet is all in what is read of it.
-/

namespace NanoDelta.Providers

open Library Library.Wire

/-! ### Values -/

/-- A format of `struct`, with `<`: `B`, `H`, `I` and `f`. -/
inductive Format where
  | u8
  | u16
  | u32
  | f32
  deriving DecidableEq

/-- `struct.calcsize`. -/
def Format.width : Format → ℕ
  | .u8 => 1
  | .u16 => 2
  | .u32 => 4
  | .f32 => 4

/-- A float of 32 bits: a significand times a power of two, or none. -/
inductive Binary32 where
  | finite (negative : Bool) (significand : ℕ) (exponent : ℤ)
  | infinite (negative : Bool)
  | nan
  deriving DecidableEq

/-- The float that four bytes stand for. -/
def Binary32.ofBits (bits : ℕ) : Binary32 :=
  let negative := decide (2 ^ 31 ≤ bits)
  let exponent : ℕ := bits / 2 ^ 23 % 256
  let fraction := bits % 2 ^ 23
  if exponent = 255 then if fraction = 0 then .infinite negative else .nan
  else if exponent = 0 then .finite negative fraction (-149)
  else .finite negative (2 ^ 23 + fraction) ((exponent : ℤ) - 150)

/-- A value of the dictionary. -/
inductive PacketValue where
  | int (n : ℕ)
  | text (text : String)
  | float (x : Binary32)
  deriving DecidableEq

/-- The value of the bytes of a field. -/
def Format.value : Format → ℕ → PacketValue
  | .f32, bits => .float (.ofBits bits)
  | _, n => .int n

/-! ### The reader -/

/-- What the reader can raise. -/
inductive PacketError where
  /-- `ProviderClientError`. -/
  | providerClientError (message : String)
  /-- `struct.error`, or `IndexError`. -/
  | pastTheEnd
  deriving DecidableEq

/-- A field of a payload: its name, its format and its offset. -/
abbrev PacketField := String × Format × ℕ

/-- The payload of a response code, with the length of its packets. -/
def payload : ℕ → Option (ℕ × List PacketField)
  | 2 => some (16, [("ltp", .f32, 8), ("last_trade_time", .u32, 12)])
  | 4 => some (50, [("ltp", .f32, 8), ("last_trade_quantity", .u16, 12), ("last_trade_time", .u32, 14),
      ("average_trade_price", .f32, 18), ("volume", .u32, 22), ("total_sell_quantity", .u32, 26),
      ("total_buy_quantity", .u32, 30), ("day_open", .f32, 34), ("day_close", .f32, 38), ("day_high", .f32, 42),
      ("day_low", .f32, 46)])
  | 5 => some (12, [("open_interest", .u32, 8)])
  | 6 => some (16, [("previous_close", .f32, 8), ("previous_open_interest", .u32, 12)])
  | 50 => some (10, [("disconnect_code", .u16, 8)])
  | _ => none

/-- `struct.unpack_from` of one number. -/
def number (format : Format) (packet : List UInt8) (offset : ℕ) : Except PacketError ℕ :=
  match unpackFrom format.width packet offset with
  | none => .error .pastTheEnd
  | some n => .ok n

/-- A field, with its name. -/
def readField (packet : List UInt8) (field : PacketField) : Except PacketError (String × PacketValue) := do
  let n ← number field.2.1 packet field.2.2
  return (field.1, field.2.1.value n)

/-- What every packet has. -/
def headerFields (responseCode messageLength exchangeSegment securityId : ℕ) : List (String × PacketValue) :=
  [("response_code", .int responseCode), ("message_length", .int messageLength),
    ("exchange_segment", .int exchangeSegment), ("security_id", .text (toString securityId))]

/-- The payload, if the packet is long enough for it. -/
def readPayload (packet : List UInt8) (responseCode : ℕ) : Except PacketError (List (String × PacketValue)) :=
  match payload responseCode with
  | none => .ok []
  | some (length, fields) => if length ≤ packet.length then fields.mapM (readField packet) else .ok []

/-- `DhanClient.decode_packet`. -/
def decodePacket (packet : List UInt8) : Except PacketError (List (String × PacketValue)) :=
  if packet.length < 8 then .error (.providerClientError "Dhan packet is shorter than its 8-byte header")
  else do
    let responseCode ← number .u8 packet 0
    let messageLength ← number .u16 packet 1
    let exchangeSegment ← number .u8 packet 3
    let securityId ← number .u32 packet 4
    if packet.length < messageLength then
      .error (.providerClientError "Dhan packet length header exceeds received bytes")
    else do
      let values ← readPayload packet responseCode
      return headerFields responseCode messageLength exchangeSegment securityId ++ values

/-! ### Messages -/

/-- The names and the formats of the payload of a response code. -/
def layout (responseCode : ℕ) : List (String × Format) :=
  ((payload responseCode).elim [] Prod.snd).map fun field => (field.1, field.2.1)

/-- The widths of the header. -/
def headerWidths : List ℕ := [1, 2, 1, 4]

/-- The widths of the payload. -/
def widths (responseCode : ℕ) : List ℕ := (layout responseCode).map fun field => field.2.width

/-- The numbers of a payload, with their names. -/
def named (layout : List (String × Format)) (ns : List ℕ) : List (String × PacketValue) :=
  List.zipWith (fun field n => (field.1, field.2.value n)) layout ns

/-- A header, and the numbers of a payload. -/
structure Message where
  responseCode : ℕ
  messageLength : ℕ
  exchangeSegment : ℕ
  securityId : ℕ
  values : List ℕ
  /-- The numbers of the header have their widths. -/
  header_fits : Fits headerWidths [responseCode, messageLength, exchangeSegment, securityId]

namespace Message

variable (m : Message)

/-- The numbers of the header. -/
def header : List ℕ := [m.responseCode, m.messageLength, m.exchangeSegment, m.securityId]

/-- The bytes of a message. -/
def encode : List UInt8 := pack headerWidths m.header ++ pack (widths m.responseCode) m.values

/-- What a message says. -/
def fields : List (String × PacketValue) :=
  headerFields m.responseCode m.messageLength m.exchangeSegment m.securityId ++
    named (layout m.responseCode) m.values

/-- The payload is whole. -/
def Whole : Prop := Fits (widths m.responseCode) m.values

/-- There is no payload, and no room for it. -/
def Bare (length : ℕ) : Prop := m.values = [] ∧ length < 8 + size (widths m.responseCode)

end Message

/-! ### Reading a payload -/

/-- The layout of a response code with a payload. -/
theorem layout_of_payload {responseCode length : ℕ} {fields : List PacketField}
    (h : payload responseCode = some (length, fields)) :
    layout responseCode = fields.map fun field => (field.1, field.2.1) := by
  simp [layout, h]

theorem widths_of_payload {responseCode length : ℕ} {fields : List PacketField}
    (h : payload responseCode = some (length, fields)) :
    widths responseCode = fields.map fun field => field.2.1.width := by
  rw [widths, layout_of_payload h, List.map_map]
  rfl

/-- **The offsets** of a payload are those of fields one after the other from the header on, and its length is that of all of
them. -/
theorem payload_layout {responseCode length : ℕ} {fields : List PacketField}
    (h : payload responseCode = some (length, fields)) :
    length = 8 + size (widths responseCode) ∧
      fields.map (fun field => field.2.2) = offsets 8 (fields.map fun field => field.2.1.width) := by
  rw [widths_of_payload h]
  unfold payload at h
  split at h <;> cases h <;> exact ⟨rfl, rfl⟩

/-- Fields one after the other, read one by one. -/
theorem mapM_readField (packet : List UInt8) {fields : List PacketField} {offset : ℕ}
    (h : fields.map (fun field => field.2.2) = offsets offset (fields.map fun field => field.2.1.width)) :
    fields.mapM (readField packet) =
      match unpack packet offset (fields.map fun field => field.2.1.width) with
      | none => .error .pastTheEnd
      | some ns => .ok (List.zipWith (fun field n => (field.1, field.2.1.value n)) fields ns) := by
  induction fields generalizing offset with
  | nil => rfl
  | cons field fields ih =>
    obtain ⟨hoffset, hrest⟩ := List.cons.inj h
    rw [List.mapM_cons, ih hrest, List.map_cons, unpack]
    simp only [readField, number, hoffset]
    cases unpackFrom field.2.1.width packet offset with
    | none => rfl
    | some n => cases unpack packet (offset + field.2.1.width) (fields.map fun field => field.2.1.width) <;> rfl

/-- **The payload** that is read: all of it, or nothing if the packet is too short. -/
theorem readPayload_eq (packet : List UInt8) (responseCode : ℕ) (hlength : 8 ≤ packet.length) :
    readPayload packet responseCode =
      .ok (named (layout responseCode)
        ((unpack packet 8 (widths responseCode)).getD [])) := by
  unfold readPayload
  cases hpayload : payload responseCode with
  | none => simp [named, layout, widths, hpayload, unpack]
  | some found =>
    obtain ⟨length, fields⟩ := found
    obtain ⟨hsize, hoffsets⟩ := payload_layout hpayload
    have hsome : (unpack packet 8 (widths responseCode)).isSome = true ↔ 8 + size (widths responseCode) ≤ packet.length :=
      isSome_unpack_iff hlength
    dsimp only
    by_cases hthere : length ≤ packet.length
    · obtain ⟨ns, hns⟩ := Option.isSome_iff_exists.mp (hsome.mpr (by omega))
      rw [if_pos hthere, mapM_readField packet hoffsets, ← widths_of_payload hpayload, hns, layout_of_payload hpayload]
      simp [named, List.zipWith_map_left]
    · have hnone : unpack packet 8 (widths responseCode) = none :=
        Option.not_isSome_iff_eq_none.mp fun h => hthere (by have := hsome.mp h; omega)
      rw [if_neg hthere, hnone]
      simp [named]

/-! ### Messages are read back -/

/-- The header, number by number. -/
theorem unpack_header {packet : List UInt8} {responseCode messageLength exchangeSegment securityId : ℕ} :
    unpack packet 0 headerWidths = some [responseCode, messageLength, exchangeSegment, securityId] ↔
      unpackFrom 1 packet 0 = some responseCode ∧ unpackFrom 2 packet 1 = some messageLength ∧
        unpackFrom 1 packet 3 = some exchangeSegment ∧ unpackFrom 4 packet 4 = some securityId := by
  simp only [headerWidths, unpack, Option.bind_eq_bind, Option.bind_eq_some_iff]
  constructor
  · rintro ⟨a, ha, _, ⟨b, hb, _, ⟨c, hc, _, ⟨d, hd, _, hnil, heq⟩, heq'⟩, heq''⟩, heq'''⟩
    cases hnil
    cases heq
    cases heq'
    cases heq''
    cases heq'''
    exact ⟨ha, hb, hc, hd⟩
  · rintro ⟨ha, hb, hc, hd⟩
    exact ⟨_, ha, _, ⟨_, hb, _, ⟨_, hc, _, ⟨_, hd, _, rfl, rfl⟩, rfl⟩, rfl⟩, rfl⟩

/-- **A packet of eight bytes**, by its header. -/
theorem decodePacket_eq {packet : List UInt8} {responseCode messageLength exchangeSegment securityId : ℕ}
    (h : unpack packet 0 headerWidths = some [responseCode, messageLength, exchangeSegment, securityId]) :
    decodePacket packet =
      if packet.length < messageLength then
        .error (.providerClientError "Dhan packet length header exceeds received bytes")
      else .ok (headerFields responseCode messageLength exchangeSegment securityId ++
        named (layout responseCode)
          ((unpack packet 8 (widths responseCode)).getD [])) := by
  have hlength : 8 ≤ packet.length := by
    have hsome := (isSome_unpack_iff (Nat.zero_le packet.length)).mp (Option.isSome_iff_exists.mpr ⟨_, h⟩)
    simpa [size, headerWidths] using hsome
  obtain ⟨hcode, hmessage, hsegment, hid⟩ := unpack_header.mp h
  unfold decodePacket
  rw [if_neg (by omega)]
  simp only [number, Format.width, hcode, hmessage, hsegment, hid, bind, Except.bind]
  split_ifs
  · rfl
  · rw [readPayload_eq packet responseCode hlength]
    rfl

namespace Message

variable {m m' : Message}

theorem length_header (m : Message) : (pack headerWidths m.header).length = 8 := length_pack m.header_fits

/-- The header of a message is read. -/
theorem unpack_encode (m : Message) (rest : List UInt8) :
    unpack (m.encode ++ rest) 0 headerWidths = some [m.responseCode, m.messageLength, m.exchangeSegment, m.securityId] :=
  (unpack_eq_some_iff (Nat.zero_le _)).mpr ⟨m.header_fits, [], pack (widths m.responseCode) m.values ++ rest,
    by simp [encode, header], rfl⟩

/-- Its payload is read if it is whole, and nothing if it is bare. -/
theorem unpack_values (m : Message) (rest : List UInt8) (h : m.Whole ∨ m.Bare (m.encode ++ rest).length) :
    (unpack (m.encode ++ rest) 8 (widths m.responseCode)).getD [] = m.values := by
  have hlength : 8 ≤ (m.encode ++ rest).length := by simp [encode, m.length_header]
  rcases h with hwhole | ⟨hnil, hshort⟩
  · have hread : unpack (m.encode ++ rest) 8 (widths m.responseCode) = some m.values :=
      (unpack_eq_some_iff hlength).mpr ⟨hwhole, pack headerWidths m.header, rest, rfl, m.length_header⟩
    rw [hread, Option.getD_some]
  · have hnone : unpack (m.encode ++ rest) 8 (widths m.responseCode) = none :=
      Option.not_isSome_iff_eq_none.mp fun hsome => by
        have := (isSome_unpack_iff hlength).mp hsome
        omega
    rw [hnone, hnil, Option.getD_none]

end Message

/-- **What is written is read back**, whatever follows it: a message is accepted if its length says no more than was
received, and then its fields are returned. -/
theorem decodePacket_encode (m : Message) (rest : List UInt8) (h : m.Whole ∨ m.Bare (m.encode ++ rest).length) :
    decodePacket (m.encode ++ rest) =
      if (m.encode ++ rest).length < m.messageLength then
        .error (.providerClientError "Dhan packet length header exceeds received bytes")
      else .ok m.fields := by
  rw [decodePacket_eq (m.unpack_encode rest), m.unpack_values rest h]
  rfl

/-- **Every packet of eight bytes is a message**, whole or bare, with what follows it. -/
theorem exists_message {packet : List UInt8} (h : 8 ≤ packet.length) :
    ∃ (m : Message) (rest : List UInt8), packet = m.encode ++ rest ∧ (m.Whole ∨ m.Bare packet.length) := by
  have hsome : (unpack packet 0 headerWidths).isSome = true :=
    (isSome_unpack_iff (Nat.zero_le packet.length)).mpr (by simpa [size, headerWidths] using h)
  obtain ⟨ns, hns⟩ := Option.isSome_iff_exists.mp hsome
  obtain ⟨hfits, before, after, hpacket, hbefore⟩ := (unpack_eq_some_iff (Nat.zero_le _)).mp hns
  obtain rfl := List.length_eq_zero_iff.mp hbefore
  rw [List.nil_append] at hpacket
  obtain ⟨a, b, c, d, rfl⟩ : ∃ a b c d, ns = [a, b, c, d] := by
    have hfour : ns.length = 4 := hfits.length_eq.symm
    exact List.length_eq_four.mp hfour
  have hheader : (pack headerWidths [a, b, c, d]).length = 8 := length_pack hfits
  cases hvalues : unpack packet 8 (widths a) with
  | some values =>
    obtain ⟨hwhole, before, rest, hsplit, hbefore⟩ := (unpack_eq_some_iff h).mp hvalues
    have hsame : before = pack headerWidths [a, b, c, d] := by
      rw [hsplit, List.append_assoc] at hpacket
      exact (List.append_inj hpacket (by omega)).1
    exact ⟨⟨a, b, c, d, values, hfits⟩, rest, by rw [hsplit, hsame]; rfl, Or.inl hwhole⟩
  | none =>
    have hshort : ¬ 8 + size (widths a) ≤ packet.length := fun hthere => by
      simpa [hvalues] using (isSome_unpack_iff h).mpr hthere
    refine ⟨⟨a, b, c, d, [], hfits⟩, after, ?_, Or.inr ⟨rfl, not_le.mp hshort⟩⟩
    rw [hpacket]
    cases hwidths : widths a <;> simp [Message.encode, Message.header, pack, hwidths]

/-- The reader raises for what is too short or says that it is longer, and never reads past the end. -/
theorem decodePacket_error {packet : List UInt8} {e : PacketError} (h : decodePacket packet = .error e) :
    e = .providerClientError "Dhan packet is shorter than its 8-byte header" ∨
      e = .providerClientError "Dhan packet length header exceeds received bytes" := by
  by_cases hlength : packet.length < 8
  · rw [decodePacket, if_pos hlength] at h
    cases h
    exact Or.inl rfl
  · obtain ⟨m, rest, rfl, hm⟩ := exists_message (not_lt.mp hlength)
    rw [decodePacket_encode m rest hm] at h
    split_ifs at h
    cases h
    exact Or.inr rfl

/-! ### Nothing is lost -/

/-- Floats that are not NaN have one spelling. -/
theorem Binary32.ofBits_injective {bits bits' : ℕ} (h : bits < 2 ^ 32) (h' : bits' < 2 ^ 32)
    (hnan : Binary32.ofBits bits ≠ .nan) (heq : Binary32.ofBits bits = Binary32.ofBits bits') : bits = bits' := by
  unfold ofBits at hnan heq
  dsimp only at hnan heq
  split_ifs at hnan heq <;> simp at heq hnan <;> omega

/-- A value that is not NaN has one number. -/
theorem Format.value_injective {format : Format} {n n' : ℕ} (h : n < 256 ^ format.width) (h' : n' < 256 ^ format.width)
    (hnan : format.value n ≠ .float .nan) (heq : format.value n = format.value n') : n = n' := by
  cases format with
  | f32 =>
    simp only [Format.value, PacketValue.float.injEq, ne_eq] at hnan heq
    exact Binary32.ofBits_injective (by simpa [Format.width] using h) (by simpa [Format.width] using h') hnan heq
  | u8 => simpa [Format.value] using heq
  | u16 => simpa [Format.value] using heq
  | u32 => simpa [Format.value] using heq

/-- The numbers of a payload without NaN. -/
theorem named_injective {layout : List (String × Format)} {ns ns' : List ℕ}
    (h : Fits (layout.map fun field => field.2.width) ns) (h' : Fits (layout.map fun field => field.2.width) ns')
    (hnan : ∀ field ∈ named layout ns, field.2 ≠ .float .nan) (heq : named layout ns = named layout ns') : ns = ns' := by
  induction layout generalizing ns ns' with
  | nil =>
    cases h
    cases h'
    rfl
  | cons field layout ih =>
    cases h with
    | cons hn hns =>
      cases h' with
      | cons hn' hns' =>
        obtain ⟨hfirst, hrest⟩ := List.cons.inj heq
        obtain ⟨hnanFirst, hnanRest⟩ := List.forall_mem_cons.mp hnan
        rw [Format.value_injective hn hn' hnanFirst (Prod.mk.inj hfirst).2, ih hns hns' hnanRest hrest]

@[simp] theorem named_nil (layout : List (String × Format)) : named layout [] = [] := List.zipWith_nil_right

/-- A payload with numbers says something. -/
theorem eq_nil_of_named_eq_nil {layout : List (String × Format)} {ns : List ℕ}
    (h : Fits (layout.map fun field => field.2.width) ns) (hnil : named layout ns = []) : ns = [] := by
  cases layout with
  | nil =>
    cases h
    rfl
  | cons field layout =>
    cases h
    simp [named] at hnil

/-- The numbers of payloads without NaN, each of them whole or not there. -/
theorem eq_of_named_eq {layout : List (String × Format)} {ns ns' : List ℕ}
    (h : Fits (layout.map fun field => field.2.width) ns ∨ ns = [])
    (h' : Fits (layout.map fun field => field.2.width) ns' ∨ ns' = [])
    (hnan : ∀ field ∈ named layout ns, field.2 ≠ .float .nan) (heq : named layout ns = named layout ns') : ns = ns' := by
  rcases h with hfits | rfl
  · rcases h' with hfits' | rfl
    · exact named_injective hfits hfits' hnan heq
    · exact eq_nil_of_named_eq_nil hfits (heq.trans (named_nil layout))
  · rcases h' with hfits' | rfl
    · exact (eq_nil_of_named_eq_nil hfits' (heq.symm.trans (named_nil layout))).symm
    · rfl

/-- What is returned for an accepted message is what it says. -/
theorem Message.fields_of_decodePacket {m : Message} {fields : List (String × PacketValue)}
    (hm : m.Whole ∨ m.Bare m.encode.length) (h : decodePacket m.encode = .ok fields) : m.fields = fields := by
  have hread := decodePacket_encode m [] (by simpa using hm)
  rw [List.append_nil, h] at hread
  split_ifs at hread
  exact (Except.ok.inj hread).symm

/-- **Nothing is lost**: two messages that are accepted with the same fields, none of them NaN, are the same packet. -/
theorem decodePacket_injective {m m' : Message} {fields : List (String × PacketValue)}
    (hm : m.Whole ∨ m.Bare m.encode.length) (hm' : m'.Whole ∨ m'.Bare m'.encode.length)
    (h : decodePacket m.encode = .ok fields) (h' : decodePacket m'.encode = .ok fields)
    (hnan : ∀ field ∈ fields, field.2 ≠ .float .nan) : m.encode = m'.encode := by
  have hsays := Message.fields_of_decodePacket hm h
  have heq := hsays.trans (Message.fields_of_decodePacket hm' h').symm
  rw [← hsays] at hnan
  obtain ⟨a, b, c, d, ns, hfits⟩ := m
  obtain ⟨a', b', c', d', ns', hfits'⟩ := m'
  -- The response code is one of the fields, so that both payloads have one layout.
  simp only [Message.fields, headerFields, List.cons_append, List.nil_append, List.cons.injEq, Prod.mk.injEq,
    PacketValue.int.injEq, PacketValue.text.injEq, true_and] at heq
  obtain ⟨rfl, rfl, rfl, hid, hpayload⟩ := heq
  obtain rfl : d = d' := Nat.repr_injective hid
  have hnamed : ∀ field ∈ named (layout a) ns, field.2 ≠ .float .nan := fun field hfield =>
    hnan field (List.mem_append_right _ hfield)
  have hvalues : ns = ns' := eq_of_named_eq (hm.imp_right And.left) (hm'.imp_right And.left) hnamed hpayload
  rw [Message.encode, Message.encode, hvalues]

end NanoDelta.Providers
