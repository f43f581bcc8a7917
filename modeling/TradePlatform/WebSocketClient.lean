/-
# `TradePlatform.WebSocketClient` — the text messages of a public feed

`_WebSocketClient` of `bybit_public_websocket_recorder_v1.py`, after the handshake: bytes are read
from a buffer that `recv` fills, frames are read from the bytes, and `receive_text` puts the next
text message together from the frames, answering pings on the way.
-/
import TradePlatform.Domain
import TradePlatform.Lib.StreamReader

namespace TradePlatform

namespace WebSocket

open StreamReader (Source)

abbrev Bytes := List UInt8

/-! ## The code -/

def opcodeContinuation : UInt8 := 0x0

def opcodeText : UInt8 := 0x1

def opcodeBinary : UInt8 := 0x2

def opcodeClose : UInt8 := 0x8

def opcodePing : UInt8 := 0x9

def opcodePong : UInt8 := 0xA

def maxFrameBytes : ℕ := 8 * 1024 * 1024

/-- A client: its buffer and socket, and the frames it has sent, before they are masked. -/
structure Client where
  source : Source UInt8
  sent : List (UInt8 × Bytes)

def Client.stream (c : Client) : Bytes := c.source.stream

abbrev Recv := Raising Client Exn

def refuse {α : Type} (message : String) : Recv α :=
  Raising.fail (.bybitPublicWebSocketError message)

def recvExact (count : ℕ) : Recv Bytes := ⟨fun c =>
  match StreamReader.readExact count c.source with
  | (none, source) =>
      (.error (.bybitPublicWebSocketError "connection_closed_by_peer"), { c with source := source })
  | (some taken, source) => (.ok taken, { c with source := source })⟩

def sendFrame (opcode : UInt8) (payload : Bytes) : Recv Unit :=
  ⟨fun c => (.ok (), { c with sent := c.sent ++ [(opcode, payload)] })⟩

/-- `struct.unpack("!H", …)` and `struct.unpack("!Q", …)`: an unsigned number, big-endian. -/
def unpack (bytes : Bytes) : ℕ := bytes.foldl (fun n byte => 256 * n + byte.toNat) 0

def extendedBytes (length : UInt8) : ℕ :=
  if length = 126 then 2 else if length = 127 then 8 else 0

def lengthOf (length : UInt8) (extended : Bytes) : ℕ :=
  if length = 126 ∨ length = 127 then unpack extended else length.toNat

structure Frame where
  fin : Bool
  opcode : UInt8
  payload : Bytes
deriving DecidableEq

def readFrame : Recv Frame := do
  let header ← recvExact 2
  match header with
  | [first, second] =>
      if second &&& 0x80 ≠ 0 then refuse "server_frames_must_not_be_masked"
      else do
        let extended ← recvExact (extendedBytes (second &&& 0x7F))
        let length := lengthOf (second &&& 0x7F) extended
        if maxFrameBytes < length then refuse "frame_exceeds_maximum_size"
        else do
          let payload ← recvExact length
          return ⟨decide (first &&& 0x80 ≠ 0), first &&& 0x0F, payload⟩
  -- two bytes are two bytes
  | _ => Raising.fail (.valueError "not enough values to unpack")

def decode (bytes : Bytes) : Except Exn String :=
  match String.fromUTF8? ⟨bytes.toArray⟩ with
  | none => .error .unicodeDecodeError
  | some text => .ok text

/-! ## The bytes of a frame -/

section Reads

variable {c c' : Client} {count : ℕ} {taken rest : Bytes}

theorem recvExact_of_lt (h : c.stream.length < count) :
    ∃ c', (recvExact count).run c =
        (.error (.bybitPublicWebSocketError "connection_closed_by_peer"), c') ∧
      c'.stream = c.stream := by
  obtain ⟨hnone, hstream⟩ := StreamReader.readExact_of_lt h
  unfold recvExact
  dsimp only
  generalize StreamReader.readExact count c.source = read at hnone hstream
  obtain ⟨result, source⟩ := read
  obtain rfl : result = none := hnone
  exact ⟨_, rfl, hstream⟩

theorem recvExact_of_le (h : count ≤ c.stream.length) :
    ∃ c', (recvExact count).run c = (.ok (c.stream.take count), c') ∧
      c'.stream = c.stream.drop count := by
  obtain ⟨hsome, hstream⟩ := StreamReader.readExact_of_le h
  unfold recvExact
  dsimp only
  generalize StreamReader.readExact count c.source = read at hsome hstream
  obtain ⟨result, source⟩ := read
  obtain rfl : result = some _ := hsome
  exact ⟨_, rfl, hstream⟩

theorem recvExact_ok (h : (recvExact count).run c = (.ok taken, c')) :
    c.stream = taken ++ c'.stream ∧ taken.length = count := by
  rcases Nat.lt_or_ge c.stream.length count with hlt | hge
  · obtain ⟨d, hrun, -⟩ := recvExact_of_lt hlt
    rw [hrun] at h
    cases h
  · obtain ⟨d, hrun, hstream⟩ := recvExact_of_le hge
    rw [hrun] at h
    cases h
    rw [hstream, List.take_append_drop, List.length_take]
    exact ⟨rfl, min_eq_left hge⟩

theorem recvExact_append (h : c.stream = taken ++ rest) (hcount : taken.length = count) :
    ∃ c', (recvExact count).run c = (.ok taken, c') ∧ c'.stream = rest := by
  have hge : count ≤ c.stream.length := by
    rw [h, List.length_append]
    omega
  obtain ⟨d, hrun, hstream⟩ := recvExact_of_le hge
  rw [h, ← hcount, List.take_left] at hrun
  rw [h, ← hcount, List.drop_left] at hstream
  exact ⟨d, hcount ▸ hrun, hstream⟩

theorem sees_recvExact (count : ℕ) : Raising.Sees Client.stream (recvExact count) := by
  intro c d h
  rcases Nat.lt_or_ge c.stream.length count with hlt | hge
  · obtain ⟨c', hc, hcstream⟩ := recvExact_of_lt hlt
    obtain ⟨d', hd, hdstream⟩ := recvExact_of_lt (h ▸ hlt)
    rw [hc, hd]
    exact ⟨rfl, hcstream.trans (h.trans hdstream.symm)⟩
  · obtain ⟨c', hc, hcstream⟩ := recvExact_of_le hge
    obtain ⟨d', hd, hdstream⟩ := recvExact_of_le (h ▸ hge)
    rw [hc, hd, h]
    exact ⟨rfl, by rw [hcstream, hdstream, h]⟩

theorem sees_readFrame : Raising.Sees Client.stream readFrame := by
  refine (sees_recvExact 2).bind fun header => ?_
  split
  · refine .ite (.fail _) ((sees_recvExact _).bind fun extended => ?_)
    exact .ite (.fail _) ((sees_recvExact _).bind fun payload => .pure _)
  · exact .fail _

/-- The bytes of a frame that a server may send: the header, the extended length that the header
calls for, and the payload. -/
structure Encodes (frame : Frame) (first second : UInt8) (extended : Bytes) : Prop where
  unmasked : second &&& 0x80 = 0
  fin : frame.fin = decide (first &&& 0x80 ≠ 0)
  opcode : frame.opcode = first &&& 0x0F
  extendedLength : extended.length = extendedBytes (second &&& 0x7F)
  payloadLength : frame.payload.length = lengthOf (second &&& 0x7F) extended
  fits : frame.payload.length ≤ maxFrameBytes

def IsFrame (frame : Frame) (bytes : Bytes) : Prop :=
  ∃ first second extended, Encodes frame first second extended ∧
    bytes = first :: second :: (extended ++ frame.payload)

theorem readFrame_ok {frame : Frame} (h : readFrame.run c = (.ok frame, c')) :
    ∃ bytes, IsFrame frame bytes ∧ c.stream = bytes ++ c'.stream := by
  obtain ⟨header, c₁, hheader, h⟩ := Raising.bind_eq_ok.mp h
  obtain ⟨hstream, -⟩ := recvExact_ok hheader
  split at h
  · rename_i first second
    split at h
    · cases h
    · rename_i hmask
      obtain ⟨extended, c₂, hextended, h⟩ := Raising.bind_eq_ok.mp h
      obtain ⟨hstream', hlength⟩ := recvExact_ok hextended
      dsimp only at h
      split at h
      · cases h
      · rename_i hfits
        obtain ⟨payload, c₃, hpayload, h⟩ := Raising.bind_eq_ok.mp h
        obtain ⟨hstream'', hlength'⟩ := recvExact_ok hpayload
        cases h
        refine ⟨_, ⟨first, second, extended, ⟨not_not.mp hmask, rfl, rfl, hlength, hlength', ?_⟩,
          rfl⟩, ?_⟩
        · rw [hlength']
          exact not_lt.mp hfits
        · rw [hstream, hstream', hstream'']
          simp
  · cases h

theorem readFrame_append {frame : Frame} {bytes : Bytes} (hframe : IsFrame frame bytes)
    (h : c.stream = bytes ++ rest) :
    ∃ c', readFrame.run c = (.ok frame, c') ∧ c'.stream = rest := by
  obtain ⟨first, second, extended, hencodes, rfl⟩ := hframe
  have hheader : c.stream = [first, second] ++ (extended ++ (frame.payload ++ rest)) := by
    rw [h]
    simp
  obtain ⟨c₁, hread₁, hrest₁⟩ := @recvExact_append c 2 [first, second] _ hheader rfl
  obtain ⟨c₂, hread₂, hrest₂⟩ := recvExact_append hrest₁ hencodes.extendedLength
  obtain ⟨c₃, hread₃, hrest₃⟩ := recvExact_append hrest₂ hencodes.payloadLength
  refine ⟨c₃, ?_, hrest₃⟩
  unfold readFrame
  rw [Raising.bind_ok hread₁]
  dsimp only
  rw [if_neg (not_not.mpr hencodes.unmasked), Raising.bind_ok hread₂,
    if_neg (not_lt.mpr (hencodes.payloadLength ▸ hencodes.fits)), Raising.bind_ok hread₃,
    ← hencodes.fin, ← hencodes.opcode]
  rfl

theorem stream_readFrame_lt {frame : Frame} (h : readFrame.run c = (.ok frame, c')) :
    c'.stream.length < c.stream.length := by
  obtain ⟨bytes, ⟨first, second, extended, -, rfl⟩, hstream⟩ := readFrame_ok h
  rw [hstream, List.length_append, List.length_cons]
  omega

end Reads

/-! ## Messages -/

/-- The loop of `receive_text`, with the fragments so far and the opcode they started with. -/
def receiveLoop (fragments : List Bytes) (fragmentOpcode : Option UInt8) (c : Client) :
    Except Exn String × Client :=
  match hread : readFrame.run c with
  | (.error e, c') => (.error e, c')
  | (.ok frame, c') =>
      if frame.opcode = opcodePing then
        receiveLoop fragments fragmentOpcode ((sendFrame opcodePong frame.payload).run c').2
      else if frame.opcode = opcodePong then receiveLoop fragments fragmentOpcode c'
      else if frame.opcode = opcodeClose then
        (.error (.bybitPublicPeerClosedError "connection_closed_by_peer_close_frame"), c')
      else if frame.opcode = opcodeBinary then
        (.error (.bybitPublicWebSocketError "binary_frames_are_not_expected_on_this_feed"), c')
      else if frame.opcode = opcodeContinuation ∧ fragmentOpcode = none then
        (.error (.bybitPublicWebSocketError "continuation_without_a_started_message"), c')
      else
        let started :=
          if frame.opcode = opcodeContinuation then fragmentOpcode else some frame.opcode
        let joined := fragments ++ [frame.payload]
        if frame.fin then
          if started ≠ some opcodeText then
            (.error (.bybitPublicWebSocketError "unexpected_non_text_message"), c')
          else (decode joined.flatten, c')
        else receiveLoop joined started c'
termination_by c.stream.length
decreasing_by
  all_goals
    have hlt := stream_readFrame_lt hread
    exact hlt

def receiveText : Recv String := ⟨receiveLoop [] none⟩

end WebSocket

end TradePlatform
