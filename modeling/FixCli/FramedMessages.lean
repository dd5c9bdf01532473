import FixCli.CodecRoundTrip
import FixCli.Framing
import Mathlib.Data.List.Forall2

/-! A stream of encoded messages, cut anywhere: the framer returns the wires and the
parser the messages. -/
namespace FixCli.Codec
open Lib

structure Message where
  beginString : Bytes
  fields : List Field
  deriving DecidableEq, Repr

structure Travels (maxBodyLength : Nat) (message : Message) (wire : Bytes) : Prop where
  encodes : encodeMessage message.beginString message.fields = .ok wire
  plain : ∀ f ∈ message.fields, sohFree f
  body : ∀ body, encodeBody message.fields = .ok body → body.length ≤ maxBodyLength
  beginString : message.beginString.length ≤ 900

def Parses (message : Message) (frame : Bytes) : Prop :=
  ∃ checksum, parseFrame frame = .ok ⟨message.beginString,message.fields,checksum⟩

theorem decimalLength {n k : Nat} (small : n < 10 ^ (k + 1)) : (decimal n).length ≤ k + 1 := by
  rw [decimal,List.length_map]
  exact (Nat.length_toDigits_le_iff (by decide) (Nat.succ_pos k)).mpr small

variable {maxBodyLength : Nat} {message : Message} {wire : Bytes}

theorem travelsWire (fits : maxBodyLength + 1024 < usizeLimit) (h : Travels maxBodyLength message wire) :
    ∃ body, Encodes message.beginString message.fields body ∧ wire = frameOf message.beginString body ∧
      body.length ≤ maxBodyLength ∧ (frameOf message.beginString body).length ≤ maxBodyLength + 1024 := by
  obtain ⟨body,enc,rfl⟩ := encoded h.encodes
  have short := h.body body enc.body
  have digits : (decimal body.length).length ≤ 19 + 1 := decimalLength (by unfold usizeLimit at fits; omega)
  have begins := h.beginString
  refine ⟨body,enc,rfl,short,?_⟩
  rw [frameLength,checksumAt,bodyAt,bodyLengthAt]
  omega

theorem travelsTaken (fits : maxBodyLength + 1024 < usizeLimit) (h : Travels maxBodyLength message wire) :
    Taken (framer maxBodyLength) wire wire := by
  obtain ⟨body,enc,rfl,short,size⟩ := travelsWire fits h
  exact fun rest => tryTakeEncoded _ body rest maxBodyLength enc.beginString.2.1 short (by omega)

theorem travelsParsed (fits : maxBodyLength + 1024 < usizeLimit) (h : Travels maxBodyLength message wire) :
    Parses message wire := by
  obtain ⟨body,enc,rfl,-,size⟩ := travelsWire fits h
  exact ⟨_,parseFrameEncoded enc h.plain (by omega)⟩

theorem relatedFrom {α β : Type} {R : α → β → Prop} {as : List α} {bs : List β} (h : List.Forall₂ R as bs) :
    ∀ b ∈ bs, ∃ a, R a b := by
  induction h with
  | nil => exact fun b mem => absurd mem List.not_mem_nil
  | cons here _ ih =>
    intro b mem
    rcases List.mem_cons.mp mem with rfl | later
    · exact ⟨_,here⟩
    · exact ih b later

theorem messagesTravel (maxBodyLength : Nat) (fits : maxBodyLength + 1024 < usizeLimit)
    (messages : List Message) (wires chunks : List Bytes)
    (travel : List.Forall₂ (Travels maxBodyLength) messages wires) (cut : chunks.flatten = wires.flatten) :
    ingestAll maxBodyLength chunks = (wires,.ok (.new maxBodyLength)) ∧
      List.Forall₂ Parses messages wires := by
  refine ⟨?_,travel.imp fun _ _ => travelsParsed fits⟩
  have taken : List.Forall₂ (Taken (framer maxBodyLength)) wires wires := by
    refine List.forall₂_same.mpr fun wire mem => ?_
    obtain ⟨message,h⟩ := relatedFrom travel wire mem
    exact travelsTaken fits h
  have short : ∀ wire ∈ wires, wire.length ≤ maxBodyLength + 1024 := by
    intro wire mem
    obtain ⟨message,h⟩ := relatedFrom travel wire mem
    obtain ⟨body,-,rfl,-,size⟩ := travelsWire fits h
    exact size
  have whole : Scans (framer maxBodyLength) ([] ++ chunks.flatten) wires none [] :=
    cut ▸ scansTaken (newWaits maxBodyLength) taken
  obtain ⟨feeds,kept⟩ := feedFeeds (.new maxBodyLength) chunks
  obtain ⟨frames,outcome⟩ := feedsAll feeds (newWaits maxBodyLength) whole fun fed part waits pre scan => by
    obtain ⟨later,rfl⟩ := pre
    exact leftErrorNone fits (scansTakenPart taken short (by rw [← cut,List.flatten_append]; rfl) scan)
  refine Prod.ext frames ?_
  rcases ends : (ingestAll maxBodyLength chunks).2 with e | decoder
  · rw [show (feed (.new maxBodyLength) chunks).2 = .error e from ends] at outcome
    cases outcome
  · have limit := kept decoder ends
    rw [show (feed (.new maxBodyLength) chunks).2 = .ok decoder from ends] at outcome
    cases decoder
    cases outcome
    cases limit
    rfl

theorem messagesTravelHeartbeats :
    ingestAll 32 [heartbeatFrame.take 13,heartbeatFrame.drop 13 ++ heartbeatFrame] =
        ([heartbeatFrame,heartbeatFrame],.ok (.new 32)) ∧
      List.Forall₂ Parses
        [⟨ascii "FIX.4.2",[⟨35,ascii "0"⟩]⟩,⟨ascii "FIX.4.2",[⟨35,ascii "0"⟩]⟩] [heartbeatFrame,heartbeatFrame] := by
  have travels : Travels 32 ⟨ascii "FIX.4.2",[⟨35,ascii "0"⟩]⟩ heartbeatFrame :=
    ⟨by decide +kernel,by decide,fun body enc => by
      have one : encodeBody [⟨35,ascii "0"⟩] = .ok (ascii "35=0" ++ [SOH]) := by decide +kernel
      rw [one] at enc
      cases enc
      decide,by decide⟩
  exact messagesTravel 32 (by decide) _ _ _ (.cons travels (.cons travels .nil)) (by decide +kernel)

end FixCli.Codec
