import FixCli.Endpoint

/-! Each client of the endpoint is answered its own requests, in its order, and what the
service does over all of them is one run of the service. -/
namespace FixCli.Control
open Lib Session

def jsonFrame (payload : Bytes) : Bytes := beBytes 4 payload.length ++ payload

def jsonFrames (payloads : List Bytes) : Bytes := (payloads.map jsonFrame).flatten

section

variable {payload stream rest part : Bytes} {payloads all : List Bytes}

theorem valueBelow (bytes : Bytes) (high : Nat) : ∃ low < 256 ^ bytes.length,
    bytes.foldl (fun value b => value * 256 + b.toNat) high = high * 256 ^ bytes.length + low := by
  induction bytes generalizing high with
  | nil => exact ⟨0,by simp,by simp⟩
  | cons b bytes ih =>
    obtain ⟨low,below,same⟩ := ih (high * 256 + b.toNat)
    have digit : b.toNat < 256 := b.toNat_lt
    refine ⟨b.toNat * 256 ^ bytes.length + low,?_,?_⟩
    · have room := Nat.mul_le_mul_right (256 ^ bytes.length) (Nat.succ_le_of_lt digit)
      rw [Nat.succ_mul] at room
      rw [List.length_cons,pow_succ,Nat.mul_comm (256 ^ bytes.length)]
      omega
    · rw [List.foldl_cons,same,List.length_cons,pow_succ]
      ring

theorem bytesOfValue (bytes : Bytes) (high : Nat) :
    beBytes bytes.length (bytes.foldl (fun value b => value * 256 + b.toNat) high) = bytes := by
  induction bytes generalizing high with
  | nil => rfl
  | cons b bytes ih =>
    obtain ⟨low,below,same⟩ := valueBelow bytes (high * 256 + b.toNat)
    have digit : UInt8.ofNat ((high * 256 + b.toNat) % 2 ^ 8) = b := by
      have small : (high * 256 + b.toNat) % 2 ^ 8 = b.toNat := by
        have := b.toNat_lt
        omega
      rw [small]
      exact UInt8.ofNat_toNat
    rw [List.length_cons,beCons,List.foldl_cons,ih]
    refine congrArg (· :: bytes) ?_
    rw [same,Nat.mul_comm _ (256 ^ bytes.length),Nat.mul_add_div (Nat.pow_pos (by decide)),Nat.div_eq_of_lt below,
      Nat.add_zero,← UInt8.ofNat_mod_size]
    exact digit

theorem framesRead (fits : payload.length ≤ ipcLimit) (rest : Bytes) :
    readJsonFrame ipcLimit (jsonFrame payload ++ rest) = .ok (payload,rest) := by
  refine readsFrame ?_ rest
  unfold writeJsonFrame ipcLimit at *
  rw [if_neg (by omega)]
  rfl

theorem readFrame (read : readJsonFrame ipcLimit stream = .ok (payload,rest)) :
    stream = jsonFrame payload ++ rest ∧ payload.length ≤ ipcLimit := by
  unfold readJsonFrame at read
  dsimp only at read
  split at read
  · cases read
  rename_i header
  split at read
  · cases read
  rename_i fits
  split at read
  · cases read
  rename_i whole
  cases read
  have size : ((stream.drop 4).take (valueBe (stream.take 4))).length = valueBe (stream.take 4) := by
    rw [List.length_take]
    omega
  have four : (stream.take 4).length = 4 := by
    rw [List.length_take]
    omega
  have front : beBytes 4 (valueBe (stream.take 4)) = stream.take 4 := by
    have back := bytesOfValue (stream.take 4) 0
    rwa [four] at back
  refine ⟨?_,by omega⟩
  rw [jsonFrame,size,front,List.append_assoc,List.take_append_drop,List.take_append_drop]

theorem partUnread (fits : payload.length ≤ ipcLimit) (begins : part <+: jsonFrame payload)
    (short : part.length < (jsonFrame payload).length) : ∃ error, readJsonFrame ipcLimit part = .error error := by
  cases read : readJsonFrame ipcLimit part with
  | error error => exact ⟨error,rfl⟩
  | ok item =>
    obtain ⟨other,rest⟩ := item
    obtain ⟨same,small⟩ := readFrame read
    obtain ⟨back,whole⟩ := begins
    have first := framesRead fits []
    rw [List.append_nil,← whole,same,List.append_assoc,framesRead small] at first
    have nothing : rest ++ back = [] := (Prod.mk.inj (Except.ok.inj first)).2
    rw [← whole,(List.append_eq_nil_iff.mp nothing).2,List.append_nil] at short
    exact absurd short (Nat.lt_irrefl _)

theorem framesFront (small : ∀ p ∈ payloads, p.length ≤ ipcLimit) (fits : ∀ p ∈ all, p.length ≤ ipcLimit)
    (front : jsonFrames payloads <+: jsonFrames all) : payloads <+: all := by
  induction payloads generalizing all with
  | nil => exact List.nil_prefix
  | cons payload payloads ih =>
    obtain ⟨back,whole⟩ := front
    have here : jsonFrames (payload :: payloads) ++ back = jsonFrame payload ++ (jsonFrames payloads ++ back) :=
      List.append_assoc _ _ _
    have read := framesRead (small payload List.mem_cons_self) (jsonFrames payloads ++ back)
    cases all with
    | nil =>
      rw [← here,whole] at read
      cases read
    | cons first all =>
      have there : jsonFrames (first :: all) = jsonFrame first ++ jsonFrames all := rfl
      rw [← here,whole,there,framesRead (fits first List.mem_cons_self)] at read
      obtain ⟨rfl,rest⟩ := Prod.mk.inj (Except.ok.inj read)
      have later : payloads <+: all := ih (fun p mem => small p (List.mem_cons_of_mem _ mem))
        (fun p mem => fits p (List.mem_cons_of_mem _ mem)) ⟨back,rest.symm⟩
      exact (List.prefix_cons_inj first).mpr later

def payloadsIn : Nat → Bytes → List Bytes
  | 0, _ => []
  | fuel + 1, stream => match readJsonFrame ipcLimit stream with
    | .ok (payload,rest) => payload :: payloadsIn fuel rest
    | .error _ => []

theorem payloadsRead (small : ∀ p ∈ payloads, p.length ≤ ipcLimit)
    (ends : ∃ error, readJsonFrame ipcLimit part = .error error) {fuel : Nat} (enough : payloads.length < fuel) :
    payloadsIn fuel (jsonFrames payloads ++ part) = payloads := by
  induction payloads generalizing fuel with
  | nil =>
    obtain ⟨fuel,rfl⟩ := Nat.exists_eq_add_one_of_ne_zero (Nat.ne_of_gt enough)
    obtain ⟨error,stops⟩ := ends
    have only : jsonFrames [] ++ part = part := rfl
    simp only [payloadsIn,only,stops]
  | cons payload payloads ih =>
    obtain ⟨fuel,rfl⟩ := Nat.exists_eq_add_one_of_ne_zero (Nat.ne_of_gt (Nat.zero_lt_of_lt enough))
    have here : jsonFrames (payload :: payloads) ++ part = jsonFrame payload ++ (jsonFrames payloads ++ part) :=
      List.append_assoc _ _ _
    have later := ih (fun p mem => small p (List.mem_cons_of_mem _ mem)) (Nat.lt_of_succ_lt_succ enough)
    simp only [payloadsIn,here,framesRead (small payload List.mem_cons_self),later]

end

def Task.pending : Task → List ControlRequest
  | .executing request => [request]
  | .reading | .writing _ | .returned => []

def answerJsons (dealt : List (ControlRequest × ControlResponse)) : List Bytes := dealt.map fun pair => pair.2.json

def Asked (decode : Bytes → Option ControlRequest) (client : Client)
    (dealt : List (ControlRequest × ControlResponse)) : Prop :=
  ∃ payloads, client.wrote = jsonFrames payloads ++ client.unread ∧ (∀ p ∈ payloads, p.length ≤ ipcLimit) ∧
    payloads.map decode = (dealt.map Prod.fst ++ client.task.pending).map some

def Stands (dealt : List (ControlRequest × ControlResponse)) (n : Nat) (part : Bytes) : Task → Prop
  | .reading | .executing _ => n = dealt.length ∧ part = []
  | .writing response => part = [] ∧ ∃ request, dealt = dealt.take n ++ [(request,response)]
  | .returned => part = [] ∨ ∃ payload, payload.length ≤ ipcLimit ∧ part <+: jsonFrame payload ∧
      part.length < (jsonFrame payload).length

structure Told (client : Client) (dealt : List (ControlRequest × ControlResponse)) (n : Nat) (part : Bytes) : Prop where
  outbound : client.outbound = jsonFrames (answerJsons (dealt.take n)) ++ part
  fits : ∀ p ∈ answerJsons (dealt.take n), p.length ≤ ipcLimit
  stands : Stands dealt n part client.task

structure Talk (decode : Bytes → Option ControlRequest) (client : Client)
    (dealt : List (ControlRequest × ControlResponse)) : Prop where
  asked : Asked decode client dealt
  told : ∃ n part, Told client dealt n part

section

variable {decode : Bytes → Option ControlRequest} {client : Client} {dealt : List (ControlRequest × ControlResponse)}

theorem talkAccepted (decode : Bytes → Option ControlRequest) : Talk decode .accepted [] :=
  ⟨⟨[],rfl,by simp,rfl⟩,0,[],rfl,by simp [answerJsons],rfl,rfl⟩

theorem Talk.writes (h : Talk decode client dealt) (bytes : Bytes) : Talk decode (client.writes bytes) dealt := by
  obtain ⟨payloads,wrote,small,decoded⟩ := h.asked
  obtain ⟨n,part,told⟩ := h.told
  refine ⟨⟨payloads,?_,small,decoded⟩,n,part,told.outbound,told.fits,told.stands⟩
  simp only [Client.writes,wrote,List.append_assoc]

theorem Talk.quits (h : Talk decode client dealt) (reading : client.task = .reading) :
    Talk decode {client with task := .returned} dealt := by
  obtain ⟨payloads,wrote,small,decoded⟩ := h.asked
  obtain ⟨n,part,outbound,fits,stands⟩ := h.told
  rw [reading] at stands decoded
  exact ⟨⟨payloads,wrote,small,decoded⟩,n,part,outbound,fits,.inl stands.2⟩

theorem Talk.reads (h : Talk decode client dealt) : Talk decode (client.reads decode) dealt := by
  unfold Client.reads
  cases task : client.task with
  | executing _ | writing _ | returned => exact h
  | reading =>
    dsimp only
    split
    · rename_i payload rest read
      split
      · rename_i request known
        obtain ⟨payloads,wrote,small,decoded⟩ := h.asked
        obtain ⟨n,part,outbound,fits,stands⟩ := h.told
        obtain ⟨split,room⟩ := readFrame read
        rw [task] at stands decoded
        refine ⟨⟨payloads ++ [payload],?_,?_,?_⟩,n,part,outbound,fits,stands⟩
        · simp only [wrote,split,jsonFrames,List.map_append,List.flatten_append,List.map_cons,List.map_nil,
            List.flatten_cons,List.flatten_nil,List.append_nil,List.append_assoc]
        · intro p mem
          rcases List.mem_append.mp mem with old | new
          · exact small p old
          · rw [List.mem_singleton.mp new]
            exact room
        · simp only [Task.pending,List.append_nil] at decoded
          simp only [List.map_append,decoded,List.map_cons,List.map_nil,known,Task.pending]
      · exact h.quits task
    · exact h.quits task
    · exact h

theorem Talk.answered (h : Talk decode client dealt) {response : ControlResponse} (writing : client.task = .writing response) :
    ∃ n earlier request, dealt = earlier ++ [(request,response)] ∧ earlier = dealt.take n ∧
      client.outbound = jsonFrames (answerJsons earlier) ∧ (∀ p ∈ answerJsons earlier, p.length ≤ ipcLimit) ∧
      n < dealt.length := by
  obtain ⟨n,part,outbound,fits,stands⟩ := h.told
  rw [writing] at stands
  obtain ⟨rfl,request,split⟩ := stands
  rw [List.append_nil] at outbound
  refine ⟨n,_,request,split,rfl,outbound,fits,?_⟩
  have size := congrArg List.length split
  rw [List.length_append,List.length_take,List.length_singleton] at size
  omega

theorem writtenFits {payload frame : Bytes} (written : writeJsonFrame ipcLimit payload = .ok frame) :
    frame = jsonFrame payload ∧ payload.length ≤ ipcLimit :=
  ⟨writtenFrame written,(writesFrame (by decide) payload).mp ⟨frame,written⟩⟩

theorem Talk.responds (h : Talk decode client dealt) : Talk decode client.responds dealt := by
  unfold Client.responds
  cases task : client.task with
  | reading | executing _ | returned => exact h
  | writing response =>
    obtain ⟨payloads,wrote,small,decoded⟩ := h.asked
    obtain ⟨n,earlier,request,split,taken,outbound,fits,before⟩ := h.answered task
    rw [task] at decoded
    dsimp only
    cases written : writeJsonFrame ipcLimit response.json with
    | ok frame =>
      obtain ⟨rfl,room⟩ := writtenFits written
      refine ⟨⟨payloads,wrote,small,decoded⟩,dealt.length,[],?_,?_,rfl,rfl⟩
      · rw [List.take_length,split]
        simp only [outbound,answerJsons,jsonFrames,List.map_append,List.flatten_append,List.map_cons,List.map_nil,
          List.flatten_cons,List.flatten_nil,List.append_nil]
      · rw [List.take_length,split]
        intro p mem
        simp only [answerJsons,List.map_append,List.mem_append,List.map_cons,List.map_nil,List.mem_singleton] at mem
        rcases mem with old | rfl
        · exact fits p old
        · exact room
    | error error =>
      refine ⟨⟨payloads,wrote,small,decoded⟩,n,[],?_,?_,.inl rfl⟩
      · rw [← taken,List.append_nil]
        exact outbound
      · rw [← taken]
        exact fits

theorem Talk.breaks (h : Talk decode client dealt) (sent : Nat) : Talk decode (client.breaks sent) dealt := by
  unfold Client.breaks
  cases task : client.task with
  | executing _ | returned => exact h
  | reading => exact h.quits task
  | writing response =>
    obtain ⟨payloads,wrote,small,decoded⟩ := h.asked
    obtain ⟨n,earlier,request,split,taken,outbound,fits,before⟩ := h.answered task
    rw [task] at decoded
    dsimp only
    have short (part : Bytes) (stands : Stands dealt n part .returned) :
        Talk decode {client with task := .returned, outbound := client.outbound ++ part} dealt := by
      refine ⟨⟨payloads,wrote,small,decoded⟩,n,part,?_,?_,stands⟩
      · rw [← taken,← outbound]
      · rw [← taken]
        exact fits
    cases written : writeJsonFrame ipcLimit response.json with
    | ok frame =>
      obtain ⟨rfl,room⟩ := writtenFits written
      by_cases part : sent < (jsonFrame response.json).length
      · exact short _ (.inr ⟨_,room,List.take_prefix _ _,by rw [List.length_take]; omega⟩)
      · have sends : Talk decode client.responds dealt := h.responds
        have ends : client.responds = {client with
            task := .reading, outbound := client.outbound ++ jsonFrame response.json} := by
          simp only [Client.responds,task,written]
        rw [ends] at sends
        dsimp only
        rw [List.take_of_length_le (Nat.le_of_not_lt part)]
        exact sends.quits rfl
    | error error =>
      have ends := short [] (.inl rfl)
      rwa [List.append_nil] at ends

theorem Talk.handed (h : Talk decode client dealt) {request : ControlRequest} (executing : client.task = .executing request)
    (response : ControlResponse) : Talk decode {client with task := .writing response} (dealt ++ [(request,response)]) := by
  obtain ⟨payloads,wrote,small,decoded⟩ := h.asked
  obtain ⟨n,part,outbound,fits,stands⟩ := h.told
  rw [executing] at stands decoded
  obtain ⟨rfl,rfl⟩ := stands
  have front : (dealt ++ [(request,response)]).take dealt.length = dealt := List.take_left
  rw [List.take_length] at outbound fits
  refine ⟨⟨payloads,wrote,small,?_⟩,dealt.length,[],?_,?_,rfl,request,by rw [front]⟩
  · rw [decoded]
    simp [Task.pending]
  · rw [front]
    exact outbound
  · rw [front]
    exact fits

end

structure Conversing {δ : Type} (service : ControlService δ) (decode : Bytes → Option ControlRequest) (first : Desk)
    (e : Endpoint) : Prop where
  run : ∃ moves, e.desk = served service first moves
  log : e.log.map Prod.snd = e.desk.answers
  known : ∀ entry ∈ e.log, entry.1 < e.clients.length
  talks : ∀ (i : Nat) (client : Client), e.clients[i]? = some client → Talk decode client (e.dealt i)
  slots : e.active ≤ clientSlots
  holds : ∀ i, e.holder = some i → ∃ (client : Client) (request : ControlRequest), e.clients[i]? = some client ∧
    client.task = .executing request ∧ (e.desk.gate = .gone ∨ e.desk.gate.request = some request)
  held : ∀ request, e.desk.gate.request = some request → ∃ i, e.holder = some i

section

variable {δ : Type} {service : ControlService δ} {decode : Bytes → Option ControlRequest} {first : Desk} {e : Endpoint}

theorem newestNone {d v : Desk} (same : v.answers = d.answers) : newest d v = none := by
  rw [newest,same,if_neg (Nat.lt_irrefl _)]

theorem newestSome {d v : Desk} {pair : ControlRequest × ControlResponse} (same : v.answers = pair :: d.answers) :
    newest d v = some pair := by
  rw [newest,same,List.length_cons,if_pos (Nat.lt_succ_self _),List.head?_cons]

theorem modifyCount {act : Client → Client} {clients : List Client} {i : Nat}
    (quiet : ∀ client, clients[i]? = some client → (act client).active = true → client.active = true) :
    (clients.modify i act).countP Client.active ≤ clients.countP Client.active := by
  induction clients generalizing i with
  | nil => simp
  | cons client clients ih =>
    cases i with
    | zero =>
      have here := quiet client rfl
      simp only [List.modify_zero_cons,List.countP_cons]
      split
      · rename_i active
        rw [if_pos (here active)]
      · omega
    | succ i =>
      have later := ih fun other found => quiet other (by rw [List.getElem?_cons_succ]; exact found)
      simp only [List.modify_succ_cons,List.countP_cons]
      omega

theorem stillActive {before after : Client} (ends : before.task = .returned → after.task = .returned) :
    after.active = true → before.active = true := by
  intro active
  cases task : before.task with
  | reading | executing _ | writing _ => simp only [Client.active,task]
  | returned => simp [Client.active,ends task] at active

theorem Conversing.acts (h : Conversing service decode first e) (i : Nat) {act : Client → Client}
    (talks : ∀ client dealt, Talk decode client dealt → Talk decode (act client) dealt)
    (ends : ∀ client, client.task = .returned → (act client).task = .returned)
    (waits : ∀ client request, client.task = .executing request → (act client).task = .executing request) :
    Conversing service decode first {e with clients := e.clients.modify i act} where
  run := h.run
  log := h.log
  known entry mem := by
    rw [List.length_modify]
    exact h.known entry mem
  talks j client found := by
    rw [List.getElem?_modify] at found
    obtain ⟨before,here,rfl⟩ := Option.map_eq_some_iff.mp found
    split
    · exact talks before _ (h.talks j before here)
    · exact h.talks j before here
  slots := (modifyCount fun client _ => stillActive (ends client)).trans h.slots
  holds j holder := by
    obtain ⟨client,request,found,executing,gate⟩ := h.holds j holder
    refine ⟨_,request,by rw [List.getElem?_modify,found]; rfl,?_,gate⟩
    split
    · exact waits client request executing
    · exact executing
  held := h.held

theorem Conversing.accepts (h : Conversing service decode first e) : Conversing service decode first e.accepts := by
  unfold Endpoint.accepts
  split
  swap
  · exact h
  rename_i room
  refine ⟨h.run,h.log,fun entry mem => ?_,fun i client found => ?_,?_,fun i holder => ?_,h.held⟩
  · rw [List.length_append]
    exact Nat.lt_add_right _ (h.known entry mem)
  · by_cases old : i < e.clients.length
    · rw [List.getElem?_append_left old] at found
      exact h.talks i client found
    · have last := (List.getElem?_eq_some_iff.mp found).1
      rw [List.length_append,List.length_singleton] at last
      have here : i = e.clients.length := by omega
      subst here
      rw [List.getElem?_append_right (Nat.le_refl _),Nat.sub_self,List.getElem?_cons_zero] at found
      have none : e.dealt e.clients.length = [] := by
        rw [Endpoint.dealt,List.reverse_eq_nil_iff,List.map_eq_nil_iff,List.filter_eq_nil_iff]
        intro entry mem
        simpa using Nat.ne_of_lt (h.known entry mem)
      change Talk decode client (e.dealt e.clients.length)
      rw [none,← Option.some.inj found]
      exact talkAccepted decode
  · change (e.clients ++ [Client.accepted]).countP Client.active ≤ clientSlots
    rw [List.countP_append]
    exact room
  · obtain ⟨client,request,found,rest⟩ := h.holds i holder
    have old := (List.getElem?_eq_some_iff.mp found).1
    exact ⟨client,request,by rw [List.getElem?_append_left old]; exact found,rest⟩

theorem Conversing.runs (h : Conversing service decode first e) {move : Move} {desk : Desk}
    (moved : desk = serve service e.desk move) : ∃ moves, desk = served service first moves := by
  obtain ⟨moves,same⟩ := h.run
  refine ⟨moves ++ [move],?_⟩
  rw [moved,same,served,served,List.foldl_append]
  rfl

theorem Conversing.moves (h : Conversing service decode first e) (move : Move) {desk : Desk}
    (moved : desk = serve service e.desk move) (answers : desk.answers = e.desk.answers)
    (gate : desk.gate = .gone ∨ desk.gate.request = e.desk.gate.request) (alive : e.desk.gate ≠ .gone) :
    Conversing service decode first {e with desk := desk} where
  run := h.runs moved
  log := h.log.trans answers.symm
  known := h.known
  talks := h.talks
  slots := h.slots
  holds i holder := by
    obtain ⟨client,request,found,executing,here⟩ := h.holds i holder
    refine ⟨client,request,found,executing,gate.imp_right fun same => ?_⟩
    exact same.trans (here.resolve_left alive)
  held request here := by
    rcases gate with gone | same
    · change desk.gate.request = some request at here
      rw [gone] at here
      cases here
    · exact h.held request (same.symm.trans here)

theorem Conversing.answers (h : Conversing service decode first e) (move : Move) {desk : Desk}
    (moved : desk = serve service e.desk move) {i : Nat} {client : Client} {request : ControlRequest}
    {response : ControlResponse} (found : e.clients[i]? = some client) (executing : client.task = .executing request)
    (answers : desk.answers = (request,response) :: e.desk.answers)
    (gate : if e.holder = some i then desk.gate.request = none else desk.gate.request = e.desk.gate.request)
    (alive : e.desk.gate ≠ .gone) : Conversing service decode first (e.handed desk i) := by
  have handed : e.handed desk i = {
      desk := desk
      clients := e.clients.modify i fun c => {c with task := .writing response}
      holder := if e.holder = some i then none else e.holder
      log := (i,request,response) :: e.log} := by
    simp only [Endpoint.handed,newestSome answers]
  rw [handed]
  refine ⟨h.runs moved,?_,?_,?_,?_,?_,?_⟩
  · change (request,response) :: e.log.map Prod.snd = desk.answers
    rw [h.log,answers]
  · intro entry mem
    rw [List.length_modify]
    rcases List.mem_cons.mp mem with rfl | old
    · exact (List.getElem?_eq_some_iff.mp found).1
    · exact h.known entry old
  · intro j other here
    rw [List.getElem?_modify] at here
    obtain ⟨before,there,rfl⟩ := Option.map_eq_some_iff.mp here
    by_cases same : i = j
    · subst same
      have own : before = client := Option.some.inj (there.symm.trans found)
      subst own
      rw [if_pos rfl,Endpoint.dealt]
      have talk := (h.talks i before there).handed executing response
      simpa [Endpoint.dealt] using talk
    · rw [if_neg same,Endpoint.dealt]
      have talk := h.talks j before there
      simpa [Endpoint.dealt,same] using talk
  · refine (modifyCount fun c here _ => ?_).trans h.slots
    have own : c = client := Option.some.inj (here.symm.trans found)
    simp only [own,Client.active,executing]
  · intro j holder
    split at holder
    · cases holder
    rename_i apart
    rw [if_neg apart] at gate
    obtain ⟨other,asked,there,busy,here⟩ := h.holds j holder
    have differ : i ≠ j := fun same => apart (same ▸ holder)
    refine ⟨other,asked,?_,busy,.inr (gate.trans (here.resolve_left alive))⟩
    rw [List.getElem?_modify,there]
    simp [differ]
  · intro asked here
    split at gate
    · rw [gate] at here
      cases here
    · rename_i apart
      rw [if_neg apart]
      exact h.held asked (gate.symm.trans here)

theorem Conversing.enters (h : Conversing service decode first e) (move : Move) {desk : Desk}
    (moved : desk = serve service e.desk move) {i : Nat} {client : Client} {request : ControlRequest}
    (found : e.clients[i]? = some client) (executing : client.task = .executing request)
    (answers : desk.answers = e.desk.answers) (gate : desk.gate.request = some request) :
    Conversing service decode first {e with desk := desk, holder := some i} where
  run := h.runs moved
  log := h.log.trans answers.symm
  known := h.known
  talks := h.talks
  slots := h.slots
  holds j holder := by
    cases holder
    exact ⟨client,request,found,executing,.inr gate⟩
  held _ _ := ⟨i,rfl⟩

theorem aliveGate {gate : Gate} (alive : ¬ gate.dead = true) : gate ≠ .gone := fun gone => alive (by rw [gone]; rfl)

theorem Conversing.executes (h : Conversing service decode first e) (alive : e.desk.gate ≠ .gone) (i : Nat)
    (session : Option Nat) : Conversing service decode first (e.executes service i session) := by
  unfold Endpoint.executes
  split
  swap
  · exact h
  rename_i request found
  obtain ⟨client,here,executing⟩ := Option.map_eq_some_iff.mp found
  split
  · exact h
  rename_i apart
  have moved : execute service e.desk request session = serve service e.desk (.execute request session) := rfl
  have quiet {desk : Desk} (answers : desk.answers = e.desk.answers) : e.handed desk i = {e with desk := desk} := by
    simp only [Endpoint.handed,newestNone answers]
  dsimp only
  rcases @executeDeals _ service e.desk request session with
    ⟨answers,gate⟩ | ⟨answers,free,gate⟩ | ⟨answers,gate⟩ | ⟨response,answers,gate⟩
  · rw [if_neg (by rw [gate]; cases e.desk.gate.request <;> simp),quiet answers]
    exact h.moves _ moved answers (.inr gate) alive
  · rw [if_pos (by rw [free,gate]; rfl),quiet answers]
    exact h.enters _ moved here executing answers gate
  · rw [if_neg (by rw [gate]; simp [Gate.request]),quiet answers]
    exact h.moves _ moved answers (.inl gate) alive
  · rw [if_neg (by rw [gate]; cases e.desk.gate.request <;> simp)]
    exact h.answers _ moved here executing answers (by rw [if_neg apart]; exact gate) alive

theorem Conversing.holderMoves (h : Conversing service decode first e) (alive : e.desk.gate ≠ .gone) (move : Move)
    {desk : Desk} (moved : desk = serve service e.desk move)
    (proceeds : ∀ request, e.desk.gate.request = some request → Proceeds request e.desk desk) :
    Conversing service decode first (e.holderMoves desk) := by
  unfold Endpoint.holderMoves
  split
  swap
  · exact h
  rename_i i holder
  obtain ⟨client,request,found,executing,gate⟩ := h.holds i holder
  have quiet (answers : desk.answers = e.desk.answers) : e.handed desk i = {e with desk := desk} := by
    simp only [Endpoint.handed,newestNone answers]
  rcases proceeds request (gate.resolve_left alive) with ⟨answers,same⟩ | ⟨answers,gone⟩ | ⟨response,answers,free⟩
  · rw [quiet answers]
    exact h.moves _ moved answers (.inr same) alive
  · rw [quiet answers]
    exact h.moves _ moved answers (.inl gone) alive
  · exact h.answers _ moved found executing answers (by rw [if_pos holder]; exact free) alive

theorem Conversing.happens (h : Conversing service decode first e) (happening : Happening) :
    Conversing service decode first (e.happens service decode happening) := by
  unfold Endpoint.happens
  split
  · exact h
  rename_i alive
  have alive := aliveGate alive
  have gate {desk : Desk} (same : desk.gate = e.desk.gate) : desk.gate = .gone ∨ desk.gate.request = e.desk.gate.request :=
    .inr (congrArg Gate.request same)
  cases happening with
  | accepts => exact h.accepts
  | writes client bytes =>
    exact h.acts client (fun _ _ talk => talk.writes bytes) (fun _ returned => returned) fun _ _ executing => executing
  | reads client =>
    exact h.acts client (fun _ _ talk => talk.reads) (fun c returned => by simp only [Client.reads,returned])
      fun c _ executing => by simp only [Client.reads,executing]
  | executes client session => exact h.executes alive client session
  | lookup elapsed => exact h.holderMoves alive (.lookup elapsed) rfl fun _ held => lookupDeals held elapsed
  | submit => exact h.holderMoves alive .submit rfl fun _ held => submitDeals held
  | responds client =>
    exact h.acts client (fun _ _ talk => talk.responds) (fun c returned => by simp only [Client.responds,returned])
      fun c _ executing => by simp only [Client.responds,executing]
  | breaks client sent =>
    exact h.acts client (fun _ _ talk => talk.breaks sent) (fun c returned => by simp only [Client.breaks,returned])
      fun c _ executing => by simp only [Client.breaks,executing]
  | input input outside => exact h.moves (.input input outside) rfl rfl (gate rfl) alive
  | spawn ctx =>
    have kept : (serve service e.desk (.spawn ctx)).answers = e.desk.answers ∧
        (serve service e.desk (.spawn ctx)).gate = e.desk.gate := by
      simp only [serve]
      split <;> exact ⟨rfl,rfl⟩
    exact h.moves (.spawn ctx) rfl kept.1 (gate kept.2) alive
  | replace => exact h.moves .replace rfl rfl (gate rfl) alive
  | clear => exact h.moves .clear rfl rfl (gate rfl) alive

theorem Conversing.start (service : ControlService δ) (decode : Bytes → Option ControlRequest) (c : Ctx) (s : Shared) :
    Conversing service decode (Desk.start c s) (.start c s) where
  run := ⟨[],rfl⟩
  log := rfl
  known _ mem := by cases mem
  talks _ _ found := by cases found
  slots := Nat.zero_le _
  holds _ holder := by cases holder
  held _ held := by cases held

theorem Talk.asks {client : Client} {dealt : List (ControlRequest × ControlResponse)} (talk : Talk decode client dealt)
    (reads : ∀ request : ControlRequest, decode request.json = some request) {requests : List ControlRequest}
    (fits : ∀ request ∈ requests, request.json.length ≤ ipcLimit)
    (writes : client.wrote <+: jsonFrames (requests.map ControlRequest.json)) :
    dealt.map Prod.fst ++ client.task.pending <+: requests := by
  obtain ⟨payloads,wrote,small,decoded⟩ := talk.asked
  have front : payloads <+: requests.map ControlRequest.json := by
    refine framesFront small ?_ ((List.prefix_append _ client.unread).trans (wrote ▸ writes))
    intro p mem
    obtain ⟨request,inside,rfl⟩ := List.mem_map.mp mem
    exact fits request inside
  have back : (requests.map ControlRequest.json).map decode = requests.map some := by
    rw [List.map_map]
    exact List.map_congr_left fun request _ => reads request
  have both := front.map decode
  rw [decoded,back] at both
  have same := both.filterMap id
  simpa [List.filterMap_map] using same

theorem framesRoom (payloads : List Bytes) : payloads.length ≤ (jsonFrames payloads).length := by
  induction payloads with
  | nil => exact Nat.le_refl _
  | cons payload payloads ih =>
    have size : (jsonFrames (payload :: payloads)).length = 4 + payload.length + (jsonFrames payloads).length := by
      simp only [jsonFrames,List.map_cons,List.flatten_cons,List.length_append,jsonFrame,beLength]
    rw [size,List.length_cons]
    omega

def Client.hears (client : Client) : List Bytes := payloadsIn (client.outbound.length + 1) client.outbound

theorem Told.hears {client : Client} {dealt : List (ControlRequest × ControlResponse)} {n : Nat} {part : Bytes}
    (told : Told client dealt n part) : client.hears = answerJsons (dealt.take n) := by
  have ends : ∃ error, readJsonFrame ipcLimit part = .error error := by
    have nothing : ∃ error, readJsonFrame ipcLimit [] = .error error := ⟨_,rfl⟩
    have stands := told.stands
    cases task : client.task with
    | reading | executing request =>
      rw [task] at stands
      rw [stands.2]
      exact nothing
    | writing response =>
      rw [task] at stands
      rw [stands.1]
      exact nothing
    | returned =>
      rw [task] at stands
      rcases stands with rfl | ⟨payload,room,begins,short⟩
      · exact nothing
      · exact partUnread room begins short
  rw [Client.hears,told.outbound]
  refine payloadsRead told.fits ends ?_
  have room := framesRoom (answerJsons (dealt.take n))
  rw [List.length_append]
  omega

end

end FixCli.Control
