import FixCli.CodecRoundTrip
import FixCli.Framing
import FixCli.Lib.Stream
import FixCli.SessionRun

/-! One direction of a connection: the frames that were written, the bytes that were read
of them, and how many frames the reader has handled. -/
namespace FixCli.Session
open Lib Codec

structure Takeable (beginString wire : Bytes) : Prop where
  body : ∀ body, wire = frameOf beginString body → body.length ≤ decoderLimit
  whole : wire.length ≤ decoderLimit + 1024

def Cuttable (all : List Bytes) : Prop :=
  ∀ frame ∈ all, Taken (framer decoderLimit) frame frame ∧ frame.length ≤ decoderLimit + 1024

section

variable {b wire : Bytes} {codes : List Bytes}

theorem frameRoom : decoderLimit + 1024 < usizeLimit := by decide

theorem Takeable.room (h : Takeable b wire) : wire.length < usizeLimit := Nat.lt_of_le_of_lt h.whole frameRoom

theorem Takeable.taken {fields : List Field} (h : Takeable b wire) (encodes : encodeMessage b fields = .ok wire) :
    Taken (framer decoderLimit) wire wire := by
  obtain ⟨body,enc,rfl⟩ := encoded encodes
  exact fun rest => tryTakeEncoded _ body rest decoderLimit enc.beginString.2.1 (h.body body rfl) h.room

theorem ingestReads {decoder : FrameDecoder} {chunk rest : Bytes} (limit : decoder.maxBodyLength = decoderLimit)
    (carried : Carried (framer decoderLimit) decoder.buffer (chunk ++ rest) codes) (framed : Cuttable codes) :
    ∃ n left, ingest decoder chunk = .ok (codes.take n,⟨left,decoderLimit⟩) ∧
      Carried (framer decoderLimit) left rest (codes.drop n) := by
  have each : List.Forall₂ (Taken (framer decoderLimit)) codes codes :=
    List.forall₂_same.mpr fun code mem => (framed code mem).1
  obtain ⟨n,left,-,scan,behind⟩ := carried.reads rfl each
  obtain ⟨frames,stop,last,found,run⟩ := ingestScans decoder chunk
  rw [limit] at found run
  obtain ⟨rfl,rfl,rfl⟩ := scansUnique found scan
  have size : last.length ≤ decoderLimit + 1024 :=
    scansTakenPart each (fun code mem => (framed code mem).2) (by rw [List.append_assoc]; exact carried.bytes) scan
  refine ⟨n,last,?_,behind⟩
  rw [run,leftErrorNone frameRoom size]

end

def framesIn (bytes : Bytes) : Nat :=
  match takeFrames decoderLimit (bytes.length + 1) bytes with
  | .ok (frames,_) => frames.length
  | .error _ => 0

structure Reaching (all : List Bytes) (read : Nat) (decoder : FrameDecoder) (pending : List Bytes) (taken : Nat) : Prop where
  limit : decoder.maxBodyLength = decoderLimit
  inside : read ≤ all.flatten.length
  bound : taken ≤ all.length
  rest : ∃ waiting, all.drop taken = pending ++ waiting ∧
    Carried (framer decoderLimit) decoder.buffer (all.flatten.drop read) waiting

namespace Reaching

variable {all pending : List Bytes} {read taken : Nat} {decoder : FrameDecoder}

theorem start (all : List Bytes) : Reaching all 0 ⟨[],decoderLimit⟩ [] 0 :=
  ⟨rfl,Nat.zero_le _,Nat.zero_le _,all,rfl,⟨rfl,rfl⟩⟩

theorem writes (h : Reaching all read decoder pending taken) (more : List Bytes) :
    Reaching (all ++ more) read decoder pending taken := by
  obtain ⟨waiting,split,carried⟩ := h.rest
  refine ⟨h.limit,?_,?_,waiting ++ more,?_,?_⟩
  · have := h.inside
    rw [List.flatten_append,List.length_append]
    omega
  · have := h.bound
    rw [List.length_append]
    omega
  · rw [List.drop_append_of_le_length h.bound,split,List.append_assoc]
  · rw [List.flatten_append,List.drop_append_of_le_length h.inside]
    exact carried.writes more

theorem next {frame : Bytes} {later : List Bytes} (h : Reaching all read decoder (frame :: later) taken) :
    all[taken]? = some frame ∧ Reaching all read decoder later (taken + 1) := by
  obtain ⟨waiting,split,carried⟩ := h.rest
  have here : all[taken]? = some frame := by
    rw [← List.head?_drop,split]
    rfl
  refine ⟨here,h.limit,h.inside,?_,waiting,?_,carried⟩
  · exact (List.getElem?_eq_some_iff.mp here).1
  · rw [← List.tail_drop,split]
    rfl

theorem reads {chunk later : Bytes} (h : Reaching all read decoder [] taken) (framed : Cuttable all)
    (cut : all.flatten.drop read = chunk ++ later) : ∃ frames after, ingest decoder chunk = .ok (frames,after) ∧
      Reaching all (read + chunk.length) after frames taken := by
  obtain ⟨waiting,split,carried⟩ := h.rest
  rw [List.nil_append] at split
  have each : ∀ frame ∈ waiting, frame ∈ all := fun frame mem => List.mem_of_mem_drop (split ▸ mem)
  rw [cut] at carried
  obtain ⟨n,left,run,behind⟩ := ingestReads h.limit carried fun frame mem => framed frame (each frame mem)
  have size := congrArg List.length cut
  rw [List.length_drop,List.length_append] at size
  have inside := h.inside
  refine ⟨waiting.take n,_,run,rfl,by omega,h.bound,waiting.drop n,?_,?_⟩
  · rw [split,List.take_append_drop]
  · rw [← List.drop_drop,cut,List.drop_left]
    exact behind

theorem ends (h : Reaching all read decoder [] taken) (framed : Cuttable all) (nothing : all.flatten.drop read = []) :
    taken = all.length := by
  obtain ⟨waiting,split,carried⟩ := h.rest
  rw [List.nil_append] at split
  have bound := h.bound
  cases waiting with
  | nil =>
    have size := congrArg List.length split
    rw [List.length_drop,List.length_nil] at size
    omega
  | cons frame later =>
    have mem : frame ∈ all := List.mem_of_mem_drop (split ▸ List.mem_cons_self)
    have whole := carried.bytes
    rw [nothing,List.append_nil,List.flatten_cons] at whole
    have waits := carried.waits
    rw [whole,(framed frame mem).1] at waits
    cases waits

theorem count (h : Reaching all read decoder pending taken) (framed : Cuttable all) :
    taken + (pending.length + framesIn (decoder.buffer ++ all.flatten.drop read)) = all.length := by
  obtain ⟨waiting,split,carried⟩ := h.rest
  have each : ∀ frame ∈ waiting, Taken (framer decoderLimit) frame frame := fun frame mem =>
    (framed frame (List.mem_of_mem_drop (split ▸ List.mem_append_right _ mem))).1
  have scans := carried.scans rfl (List.forall₂_same.mpr each)
  obtain ⟨frames,stop,left,found,run⟩ := takeFramesScans decoderLimit (decoder.buffer ++ all.flatten.drop read)
    (Nat.lt_succ_self _)
  obtain ⟨rfl,rfl,rfl⟩ := scansUnique found scans
  have size := congrArg List.length split
  rw [List.length_drop,List.length_append] at size
  have bound := h.bound
  simp only [framesIn,run]
  omega

end Reaching
end FixCli.Session
