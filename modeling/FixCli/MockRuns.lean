import FixCli.MockAnswers

/-! The mock only ever adds to what it wrote, and its timer. -/
namespace FixCli.Mock
open Lib Codec Session

def Longer (s t : MockState) : Prop := ∃ new, t.written = new ++ s.written

instance : Std.Refl Longer := ⟨fun _ => ⟨[],rfl⟩⟩

instance : IsTrans MockState Longer := ⟨fun _ _ _ ⟨new,h⟩ ⟨newer,g⟩ => ⟨newer ++ new,by rw [g,h,List.append_assoc]⟩⟩

section

variable {k : MockConfig} {env : MockEnv} {s : MockState} {closing : Prop} {codes : List Bytes} {wire : Bytes}

open Prog

theorem longerWrite (fields : List Field) : Moves Longer (writeMessage k env fields) := by
  refine Moves.bind (Moves.ofExcept _) fun wire => Moves.bind (Moves.change fun _ => ⟨[],rfl⟩) fun _ =>
    Moves.bind Moves.state fun s => ?_
  split
  · exact Moves.bind (Moves.change fun _ => ⟨[],rfl⟩) fun _ => Moves.stop _
  · exact Moves.change fun _ => ⟨[wire],rfl⟩

theorem longerTime : Moves Longer (mockSendingTime env) := fun _ => ⟨[],rfl⟩

theorem longerNow : Moves Longer (mockNow env) := fun _ => ⟨[],rfl⟩

theorem longerCount : Moves Longer (countOutbound env) :=
  Moves.bind Moves.state fun _ => Moves.bind (Moves.ofExcept _) fun _ => Moves.bind longerNow fun _ =>
    Moves.change fun _ => ⟨[],rfl⟩

theorem longerReport (n executionId : Nat) (request : ParsedMessage) :
    Moves Longer (executionReportFields k env n executionId request) :=
  Moves.bind (Moves.ofExcept _) fun _ => Moves.bind (Moves.ofExcept _) fun _ => Moves.bind (Moves.ofExcept _) fun _ =>
    Moves.bind longerTime fun _ => Moves.pure _

theorem longerNote (record : LogRecord) : Moves Longer (note record) := Moves.change fun _ => ⟨[],rfl⟩

theorem longerAnswer (message : ParsedMessage) (msgType : Bytes) : Moves Longer (answerOf k env message msgType) := by
  refine Moves.bind Moves.state fun s => ?_
  split
  · exact Moves.bind (longerNote _) fun _ => Moves.bind (longerNote _) fun _ => Moves.bind (Moves.change fun _ => ⟨[],rfl⟩)
      fun _ => Moves.bind longerTime fun _ => Moves.pure _
  split
  · exact Moves.pure _
  split
  · exact Moves.bind longerTime fun _ => Moves.pure _
  split
  · exact Moves.bind (longerReport _ _ _) fun _ => Moves.bind (Moves.ofExcept _) fun _ =>
      Moves.bind (Moves.change fun _ => ⟨[],rfl⟩) fun _ => Moves.pure _
  split
  · exact Moves.bind (longerNote _) fun _ => Moves.bind (longerNote _) fun _ => Moves.bind longerTime fun _ =>
      Moves.bind (longerWrite _) fun _ => Moves.stop _
  · exact Moves.bind (longerNote _) fun _ => Moves.stop _

theorem longerHandle (frame : Bytes) : Moves Longer (mockHandle k env frame) := by
  refine Moves.bind (longerNote _) fun _ => Moves.bind (Moves.ofExcept _) fun message => Moves.bind Moves.state fun s => ?_
  split
  · exact Moves.bind (longerNote _) fun _ => Moves.stop _
  · refine Moves.bind (Moves.ofExcept _) fun _ => Moves.bind (Moves.change fun _ => ⟨[],rfl⟩) fun _ =>
      Moves.bind (Moves.ofExcept _) fun _ => Moves.bind (longerAnswer _ _) fun fields => ?_
    cases fields with
    | none => exact Moves.pure _
    | some fields => exact Moves.bind (longerWrite _) fun _ => longerCount

theorem longerRead (chunk : Bytes) : Moves Longer (mockRead chunk) := by
  unfold mockRead
  split
  · exact Moves.stop _
  · exact Moves.bind Moves.state fun _ => Moves.bind (Moves.ofExcept _) fun _ =>
      Moves.bind (Moves.change fun _ => ⟨[],rfl⟩) fun _ => Moves.pure _

theorem longerTimer : Moves Longer (mockTimer k env) := by
  refine Moves.bind Moves.state fun s => Moves.bind longerNow fun woken => ?_
  split
  · exact Moves.pure _
  split
  · exact Moves.bind longerTime fun _ => Moves.bind (longerWrite _) fun _ => longerCount
  · exact Moves.pure _

theorem timesWell (sound : Sound k env) (counted : Counted k s) :
    Goes k closing s 0 (mockTimer k env s) ∧ Confirms s [] (mockTimer k env s).2 := by
  have same (tick : Nat) : Counted k {s with tick := tick} := counted.same rfl rfl counted.executions
  have idle (tick : Nat) : Confirms s [] {s with tick := tick} := fun _ => ⟨[],rfl,rfl⟩
  unfold mockTimer
  rw [bindReturns (stateRun s)]
  simp only [bindRun,mockNow]
  split
  · exact ⟨⟨same _,rfl,rfl⟩,idle _⟩
  · split
    · have reply := heartbeatReply sound (s.tick + 1) s.nextOut none (fun _ none => by cases none)
      have spoke := saysNext (s := {s with tick := s.tick + 2}) sound (same _) reply
      have beats {t : MockState} (said : Said k {s with tick := s.tick + 2} (ascii "0") [] t) : Confirms s [] t := by
        obtain ⟨wire,n,written,letter⟩ := said
        intro fits
        refine ⟨[wire],written,?_⟩
        have id := letterId letter sound.names (fits wire (by rw [written]; exact List.mem_cons_self)) reportTypes
        rw [if_neg (by decide)] at id
        simp only [List.reverse_singleton,List.filterMap_cons,List.filterMap_nil,id]
      simp only [bindRun,mockSendingTime] at spoke ⊢
      rcases ran : (do writeMessage k env (heartbeatFields k (env.sendingTime (s.tick + 1)) s.nextOut none)
                       countOutbound env : MockAct Unit) {s with tick := s.tick + 2} with ⟨ending | _,t⟩
      · simp only [bindRun] at ran
        rw [ran] at spoke
        change Goes k closing s 0 _ ∧ _
        rw [ran]
        exact ⟨.inl spoke.1,beats spoke.2⟩
      · simp only [bindRun] at ran
        rw [ran] at spoke
        rw [ran]
        exact ⟨⟨spoke.1.toCounted,spoke.1.nextIn,spoke.1.decoder⟩,beats spoke.2⟩
    · exact ⟨⟨same _,rfl,rfl⟩,idle _⟩

end
end FixCli.Mock
