import FixCli.SessionState
import FixCli.StoredRecords

/-! The life of a store file: processes that open it, ask, and may end at any call into
the database. Whatever the calls meet, the answers are those of one journal whose
operations take effect whole or not at all. -/
namespace FixCli.Redb
open Lib Store
open Txn (faulted Faulted faults)

/-- What a process asks of the file. `start` is a process that begins anew. -/
inductive Request where
  | start
  | recover
  | apply (op : StoreOp)

inductive Said where
  | opened (result : Except StoreError Unit)
  | recovered (result : Except StoreError RecoveryState)
  | applied (result : Except StoreError StoreReply)
  | died
  | unopened
  deriving DecidableEq

def ended {α : Type} (said : Except StoreError α → Said) : Except (Abort StoreError) α → Said
  | .ok a => said (.ok a)
  | .error (.error e) => said (.error e)
  | .error .died => .died

structure Process where
  database : Database Tables
  opened : Bool

def Process.fresh : Process := ⟨⟨.blank,.blank,0⟩,false⟩

def succeeded {α : Type} : Except (Abort StoreError) α → Bool
  | .ok _ => true
  | .error _ => false

def alive {α : Type} : Except (Abort StoreError) α → Bool
  | .error .died => false
  | _ => true

section

variable (fault : Nat → CallFault) (serde : Serde)

def serve (p : Process) : Request → Said × Process
  | .start =>
    let ran := openStore fault p.database
    (ended .opened ran.1,⟨ran.2,succeeded ran.1⟩)
  | .recover =>
    if p.opened then
      let ran := recover fault p.database
      (ended .recovered ran.1,⟨ran.2,alive ran.1⟩)
    else (.unopened,p)
  | .apply op =>
    if p.opened then
      let ran := apply fault serde op p.database
      (ended .applied ran.1,⟨ran.2,alive ran.1⟩)
    else (.unopened,p)

def serves : List Request → Process → List Said × Process
  | [],p => ([],p)
  | request :: rest,p =>
    let first := serve fault serde p request
    let last := serves rest first.2
    (first.1 :: last.1,last.2)

end

structure Keeper where
  journal : Journal
  opened : Bool

def Keeper.fresh : Keeper := ⟨.empty,false⟩

def keep (k : Keeper) (seen : CallFault) : Request → Said × Keeper
  | .start =>
    let ran := faulted .backend k.journal (.ok ()) k.journal seen
    (ended .opened ran.1,⟨ran.2,succeeded ran.1⟩)
  | .recover =>
    if k.opened then
      let ran := faulted .backend k.journal (.ok (Store.recover k.journal)) k.journal seen
      (ended .recovered ran.1,⟨ran.2,alive ran.1⟩)
    else (.unopened,k)
  | .apply op =>
    if k.opened then
      let ran := faulted .backend k.journal (Store.apply k.journal op).1 (Store.apply k.journal op).2 seen
      (ended .applied ran.1,⟨ran.2,alive ran.1⟩)
    else (.unopened,k)

def keeps : List (CallFault × Request) → Keeper → List Said × Keeper
  | [],k => ([],k)
  | (seen,request) :: rest,k =>
    let first := keep k seen request
    let last := keeps rest first.2
    (first.1 :: last.1,last.2)

structure StandsFor (serde : Serde) (p : Process) (k : Keeper) : Prop where
  opened : p.opened = k.opened
  tables : Represents serde p.database.committed k.journal ∨
    (p.opened = false ∧ p.database.committed = .blank ∧ k.journal = .empty)

section

variable {fault : Nat → CallFault} {serde : Serde} {p : Process} {k : Keeper}

theorem refinesLeaves {α : Type} {m : StoreTxn α} {t : Tables} {answer : Except StoreError α} {left : Journal}
    (refines : Refines fault serde m t answer left) (j : Journal) (d : Database Tables) (here : d.committed = t) :
    ∃ seen, (m d).1 = (faulted .backend j answer left seen).1 ∧ d.tick ≤ (m d).2.tick ∧
      (seen = .none ∨ Faulted fault d.tick (m d).2.tick) ∧
      (((m d).2.committed = t ∧ (faulted .backend j answer left seen).2 = j ∧ succeeded (m d).1 = false) ∨
        Represents serde (m d).2.committed (faulted .backend j answer left seen).2) := by
  obtain ⟨u,represents,concludes⟩ := refines
  obtain ⟨committed,working,tick⟩ := d
  obtain rfl : committed = t := here
  obtain ⟨seen,forward,same,met⟩ := concludes working tick
  obtain ⟨ran,published⟩ := Prod.mk.inj same
  refine ⟨seen,?_,forward,met,?_⟩
  · rw [ran]
    cases seen with
    | none => cases answer <;> rfl
    | refused text => rfl
    | lost text => rfl
    | diesBefore => rfl
    | diesAfter => rfl
  · rw [published,ran]
    cases seen with
    | none => cases answer <;> exact .inr represents
    | refused text => exact .inl ⟨rfl,rfl,rfl⟩
    | lost text => exact .inr represents
    | diesBefore => exact .inl ⟨rfl,rfl,rfl⟩
    | diesAfter => exact .inr represents

theorem refinesKeeps {α : Type} {m : StoreTxn α} {answer : Except StoreError α} {j left : Journal}
    {d : Database Tables} (h : Represents serde d.committed j) (refines : Refines fault serde m d.committed answer left) :
    ∃ seen, (m d).1 = (faulted .backend j answer left seen).1 ∧ d.tick ≤ (m d).2.tick ∧
      (seen = .none ∨ Faulted fault d.tick (m d).2.tick) ∧
      Represents serde (m d).2.committed (faulted .backend j answer left seen).2 := by
  obtain ⟨seen,said,forward,met,⟨same,kept,_⟩ | represents⟩ := refinesLeaves refines j d rfl
  · exact ⟨seen,said,forward,met,by rw [same,kept]; exact h⟩
  · exact ⟨seen,said,forward,met,represents⟩

theorem startKeeps (h : StandsFor serde p k) : ∃ seen, (keep k seen .start).1 = (serve fault serde p .start).1 ∧
    StandsFor serde (serve fault serde p .start).2 (keep k seen .start).2 ∧
    p.database.tick ≤ (serve fault serde p .start).2.database.tick ∧
    (seen = .none ∨ Faulted fault p.database.tick (serve fault serde p .start).2.database.tick) := by
  rcases h.tables with tables | ⟨_,blank,empty⟩
  · obtain ⟨seen,said,forward,met,represents⟩ := refinesKeeps (m := openStore fault) tables (openStoreRefines tables)
    refine ⟨seen,?_,⟨?_,.inl represents⟩,forward,met⟩ <;> simp only [keep,serve,said]
  · have creates : Refines fault serde (openStore fault) .blank (.ok ()) .empty := openStoreCreates
    obtain ⟨seen,said,forward,met,left⟩ := refinesLeaves creates .empty p.database blank
    rw [← empty] at said left
    refine ⟨seen,?_,⟨?_,?_⟩,forward,met⟩
    · simp only [keep,serve,said]
    · simp only [keep,serve,said]
    · rcases left with ⟨same,kept,failed⟩ | represents
      · exact .inr ⟨failed,same,kept.trans empty⟩
      · exact .inl represents

theorem askKeeps {α : Type} {m : StoreTxn α} {answer : Except StoreError α} {left : Journal}
    (h : StandsFor serde p k) (opened : p.opened = true)
    (refines : ∀ {t}, Represents serde t k.journal → Refines fault serde m t answer left) :
    ∃ seen, (m p.database).1 = (faulted .backend k.journal answer left seen).1 ∧
      StandsFor serde ⟨(m p.database).2,alive (m p.database).1⟩
        ⟨(faulted .backend k.journal answer left seen).2,alive (faulted .backend k.journal answer left seen).1⟩ ∧
      p.database.tick ≤ (m p.database).2.tick ∧
      (seen = .none ∨ Faulted fault p.database.tick (m p.database).2.tick) := by
  rcases h.tables with tables | ⟨shut,_⟩
  · obtain ⟨seen,said,forward,met,represents⟩ := refinesKeeps tables (refines tables)
    exact ⟨seen,said,⟨by rw [said],.inl represents⟩,forward,met⟩
  · rw [shut] at opened
    cases opened

theorem serveKeeps (fault : Nat → CallFault) (faithful : serde.Faithful) (h : StandsFor serde p k)
    (request : Request) :
    ∃ seen, (keep k seen request).1 = (serve fault serde p request).1 ∧
      StandsFor serde (serve fault serde p request).2 (keep k seen request).2 ∧
      p.database.tick ≤ (serve fault serde p request).2.database.tick ∧
      (seen = .none ∨ Faulted fault p.database.tick (serve fault serde p request).2.database.tick) := by
  cases request with
  | start => exact startKeeps h
  | recover =>
    by_cases opened : p.opened = true
    · obtain ⟨seen,said,stands,forward,met⟩ := askKeeps (m := recover fault) h opened recoverRefines
      simp only [keep,serve,← h.opened,if_pos opened,said]
      rw [said] at stands
      exact ⟨seen,rfl,stands,forward,met⟩
    · simp only [keep,serve,← h.opened,if_neg opened]
      exact ⟨.none,trivial,h,Nat.le_refl _,.inl rfl⟩
  | apply op =>
    by_cases opened : p.opened = true
    · obtain ⟨seen,said,stands,forward,met⟩ := askKeeps (m := apply fault serde op) h opened fun tables =>
        applyRefines faithful tables op
      simp only [keep,serve,← h.opened,if_pos opened,said]
      rw [said] at stands
      exact ⟨seen,rfl,stands,forward,met⟩
    · simp only [keep,serve,← h.opened,if_neg opened]
      exact ⟨.none,trivial,h,Nat.le_refl _,.inl rfl⟩

theorem servesKeeps (fault : Nat → CallFault) (faithful : serde.Faithful) (requests : List Request)
    (h : StandsFor serde p k) :
    ∃ seen : List CallFault, seen.length = requests.length ∧
      (keeps (seen.zip requests) k).1 = (serves fault serde requests p).1 ∧
      StandsFor serde (serves fault serde requests p).2 (keeps (seen.zip requests) k).2 ∧
      p.database.tick ≤ (serves fault serde requests p).2.database.tick ∧
      seen.countP (· ≠ .none) ≤
        faults fault p.database.tick (serves fault serde requests p).2.database.tick := by
  induction requests generalizing p k with
  | nil => exact ⟨[],rfl,rfl,h,Nat.le_refl _,Nat.zero_le _⟩
  | cons request rest ih =>
    obtain ⟨first,said,stands,forward,met⟩ := serveKeeps fault faithful h request
    obtain ⟨seen,long,answers,left,onward,few⟩ := ih stands
    refine ⟨first :: seen,congrArg (· + 1) long,?_,left,forward.trans onward,?_⟩
    · simp only [List.zip_cons_cons,keeps,serves,said,answers]
    · have split := Txn.faultsSplit fault forward onward
      simp only [serves]
      rw [split,List.countP_cons]
      rcases met with rfl | met
      · simpa using Nat.le_trans few (Nat.le_add_left _ _)
      · have one := met.counts
        split_ifs <;> omega

def Said.Decodes (said : Said) : Prop :=
  ∀ text, said ≠ .opened (.error (.decode text)) ∧ said ≠ .recovered (.error (.decode text)) ∧
    said ≠ .applied (.error (.decode text))

theorem applyDecodes (j : Journal) (op : StoreOp) (text : Bytes) : (Store.apply j op).1 ≠ .error (.decode text) := by
  cases op <;> simp only [Store.apply,Store.commitOutbound,Store.markOutboundWritten,Store.commitTransmission,
    Store.markTransmissionWritten,Store.commitInbound,Store.resyncInbound,Store.resetSequences,
    Store.loadOutboundRange] <;> grind

theorem keepDecodes (k : Keeper) (seen : CallFault) (request : Request) : (keep k seen request).1.Decodes := by
  intro text
  have clean := fun op => applyDecodes k.journal op text
  cases request with
  | start => cases seen <;> simp [keep,faulted,ended]
  | recover => cases opened : k.opened <;> cases seen <;> simp [keep,faulted,ended,opened]
  | apply op =>
    cases opened : k.opened with
    | false => simp [keep,opened]
    | true =>
      have here := clean op
      cases seen <;> simp only [keep,opened,faulted,ended] <;>
        cases answer : (Store.apply k.journal op).1 <;> simp_all

theorem keepsDecode (asked : List (CallFault × Request)) (k : Keeper) :
    ∀ said ∈ (keeps asked k).1, said.Decodes := by
  induction asked generalizing k with
  | nil => intro said mem; cases mem
  | cons first rest ih =>
    intro said mem
    rcases List.mem_cons.mp mem with rfl | mem
    · exact keepDecodes k first.1 first.2
    · exact ih _ said mem

end

theorem oneJournal (serde : Serde) (faithful : serde.Faithful) (fault : Nat → CallFault) (requests : List Request) :
    ∃ seen : List CallFault, seen.length = requests.length ∧
      (keeps (seen.zip requests) .fresh).1 = (serves fault serde requests .fresh).1 ∧
      StandsFor serde (serves fault serde requests .fresh).2 (keeps (seen.zip requests) .fresh).2 ∧
      seen.countP (· ≠ .none) ≤ faults fault 0 (serves fault serde requests .fresh).2.database.tick ∧
      ∀ said ∈ (serves fault serde requests .fresh).1, said.Decodes := by
  have fresh : StandsFor serde .fresh .fresh := ⟨rfl,.inr ⟨rfl,rfl,rfl⟩⟩
  obtain ⟨seen,long,answers,stands,_,few⟩ := servesKeeps fault faithful requests fresh
  exact ⟨seen,long,answers,stands,few,answers ▸ keepsDecode (seen.zip requests) .fresh⟩

def badDay : Nat → CallFault
  | 26 => .diesAfter
  | 43 => .refused (ascii "disk")
  | _ => .none

def dayRequests : List Request :=
  [.start,.apply (.commitTransmission ⟨7,ascii "heartbeat",ascii "8="⟩),.recover,.start,.apply (.loadTransmission 1),
    .apply (.loadTransmission 1)]

theorem oneJournalOnBadDay :
    (serves badDay jsonRecords dayRequests .fresh).1 =
      [.opened (.ok ()),.died,.unopened,.opened (.ok ()),.applied (.error (.backend (ascii "disk"))),
        .applied (.ok (.storedTransmission (some ⟨1,7,ascii "heartbeat",ascii "8=",.journaled⟩)))] ∧
      ∃ seen : List CallFault, seen.length = 6 ∧
        (keeps (seen.zip dayRequests) .fresh).1 = (serves badDay jsonRecords dayRequests .fresh).1 ∧
        StandsFor jsonRecords (serves badDay jsonRecords dayRequests .fresh).2
          (keeps (seen.zip dayRequests) .fresh).2 ∧
        seen.countP (· ≠ .none) ≤ faults badDay 0 (serves badDay jsonRecords dayRequests .fresh).2.database.tick ∧
        ∀ said ∈ (serves badDay jsonRecords dayRequests .fresh).1, said.Decodes :=
  ⟨by decide,oneJournal jsonRecords jsonFaithful badDay dayRequests⟩

end FixCli.Redb
