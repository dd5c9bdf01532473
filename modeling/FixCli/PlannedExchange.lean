import FixCli.ExchangeRuns

/-! The two parties stay in step on planned orders, and what each of them has to be given
for it: names and texts that fit a frame, frames that fit the framers, a store that answers. -/
namespace FixCli.Exchange
open Lib Codec Store Session Mock

structure Placed {δ : Type} (k : Control.Crates δ) (planner : Control.CommandPlanner δ) (content : Bytes → Bytes)
    (request : ApplicationRequest) : Prop where
  planned : Control.Planned k planner request
  plain : ∀ f ∈ request.fields, sohFree f
  own : ¬ ascii "session:" <+: request.requestId
  -- a request_id that comes again comes with the same content
  once : request.fingerprint = content request.requestId

def Conforms {δ : Type} (k : Control.Crates δ) (planner : Control.CommandPlanner δ) (content : Bytes → Bytes) (c : Ctx)
    (p : Pair) : Choice → Prop
  | .command (.submit request) => Placed k planner content request
  | .command (.logout text) => ∀ value ∈ text, SOH ∉ value
  | .timer => ¬ Expires c p.conn.world
  | _ => True

structure Matched (c : Ctx) (env : MockEnv) : Prop where
  noFields : c.logonFields = []
  interval : c.config.heartbeatIntervalSecs < u64Limit
  clocks : ∀ tick, SOH ∉ c.env.sendingTime tick ∧ SOH ∉ env.sendingTime tick
  channels : ∀ tick, c.env.ioFault tick = .none ∧ env.ioFault tick = none

structure Fit (c : Ctx) : Prop where
  beginString : Sendable c
  sender : SOH ∉ c.config.senderCompId
  target : SOH ∉ c.config.targetCompId
  store : ∀ tick, c.env.storeFault tick = .none

section

variable {δ : Type} {k : Control.Crates δ} {planner : Control.CommandPlanner δ} {c : Ctx} {env : MockEnv} {p : Pair}
  {content : Bytes → Bytes}

theorem Matched.peers (matched : Matched c env) (fit : Fit c) : Peers c env where
  reliable := ⟨⟨fit.sender,fit.target,fun tick => (matched.clocks tick).1⟩,fit.beginString,fit.store,
    fun tick => (matched.channels tick).1⟩
  noFields := matched.noFields
  interval := matched.interval
  clock := fun tick => (matched.clocks tick).2
  faultless := fun tick => (matched.channels tick).2

theorem Conforms.proper {choice : Choice} (conforms : Conforms k planner content c p choice) :
    Proper c content p choice := by
  cases choice with
  | command command =>
    cases command with
    | submit request =>
      have placed : Placed k planner content request := conforms
      exact plannedOrdered placed.planned placed.plain placed.own placed.once
    | logout text => exact conforms
    | status | lookupCommand requestId => trivial
  | timer => exact conforms
  | reads more | handles | mockReads more | mockHandles | mockTimer => trivial

/-- Whatever is planned, whenever it is sent, and however the two streams are cut, neither
party fails and neither loses count of the other. -/
theorem plannedStaysInStep (matched : Matched c env) (fit : Fit c) (tick : Nat) (choices : List Choice)
    (conforms : Along (turn c env) (Conforms k planner content c) (start c env tick) choices)
    (small : Small c (exchange c env tick choices)) : InStep (exchange c env tick choices) := by
  have peers := matched.peers fit
  have proper : Along (turn c env) (Proper c content) (start c env tick) choices :=
    alongWith (fun _ _ => True) (fun _ _ _ => trivial) (fun _ _ conforms _ => conforms.proper) conforms
  exact (Together.run peers (.started content peers tick) proper small).inStep small

end

theorem venueMatched : Matched venueCtx venueMock where
  noFields := rfl
  interval := by decide
  clocks := fun _ => ⟨(by decide : SOH ∉ venueTime),(by decide : SOH ∉ venueTime)⟩
  channels := fun _ => ⟨rfl,rfl⟩

theorem venueFit : Fit venueCtx where
  beginString := by unfold Sendable; decide
  sender := by decide
  target := by decide
  store := fun _ => rfl

theorem dayConforms : Along (turn venueCtx venueMock)
    (Conforms Control.venueCrates Control.venuePlanner dayContent venueCtx) (start venueCtx venueMock 0) tradingDay := by
  have placed : Placed Control.venueCrates Control.venuePlanner dayContent
      (Control.applicationOf (Control.venueOrder "order-1")) :=
    ⟨⟨Control.venueOrder "order-1",by decide +kernel⟩,by decide +kernel,by decide +kernel,rfl⟩
  refine alongEach (fun choice mem p => ?_) _
  simp only [tradingDay,List.mem_cons,List.not_mem_nil,or_false] at mem
  rcases mem with rfl | rfl | rfl | rfl | rfl | rfl | rfl | rfl | rfl | rfl | rfl | rfl | rfl | rfl | rfl | rfl
  all_goals first | exact placed | trivial | exact fun _ none => by cases none

theorem plannedStaysInStepAllDay : (exchange venueCtx venueMock 0 tradingDay).mock.ended = some .returned ∧
    InStep (exchange venueCtx venueMock 0 tradingDay) :=
  ⟨by decide +kernel,plannedStaysInStep venueMatched venueFit 0 tradingDay dayConforms daySmall⟩

section

variable {c : Ctx} {env : MockEnv} {p : Pair} {content : Bytes → Bytes}

theorem ingestFails {header rest : Bytes} {error : FrameError} {maxBodyLength : Nat}
    (refused : frameEnd header maxBodyLength = .error (.error error)) :
    ingest ⟨[],maxBodyLength⟩ (header ++ rest) = .error (.error error) := by
  have fails : tryTakeFrame (header ++ rest) maxBodyLength = .error (.error error) :=
    (framer maxBodyLength).fails (tryTakeFails.mpr refused) rest
  simp only [ingest,List.nil_append,takeFrames,fails,bind,Except.bind]

theorem mockRefuses {header rest : Bytes} {error : FrameError} (going : p.mock.ended = none) (idle : p.mock.pending = [])
    (ready : p.mock.state.decoder = ⟨[],decoderLimit⟩) (transit : p.toMock = header ++ rest)
    (short : header.length ≤ readLimit) (some' : header ≠ [])
    (refused : frameEnd header decoderLimit = .error (.error error)) :
    (mockReads c env p 8191).mock.ended = some (.failed (.frame error.text)) := by
  have chunk : arrived 8191 p.toMock = header ++ rest.take (readLimit - header.length) := by
    have whole : min (8191 + 1) readLimit = readLimit := rfl
    rw [arrived,transit,whole,List.take_append,List.take_of_length_le short]
  have nonempty : header ++ rest.take (readLimit - header.length) ≠ [] := fun none =>
    some' (List.append_eq_nil_iff.mp none).1
  have reads : mockRead (arrived 8191 p.toMock) p.mock.state =
      (.error (.failed (.frame error.text)),p.mock.state) := by
    rw [chunk]
    simp only [mockRead,nonempty,if_false,Prog.bindRun,Prog.stateRun,ready,ingestFails refused,framesResult,
      Prog.ofExceptError,Prog.stopRun]
  rw [mockReads,if_neg]
  · simp only [mockStep,going,Option.isSome_none,Bool.false_eq_true,if_false,idle,reads,mockSettle]
  · rw [chunk,idle,going]
    simp [nonempty]

theorem logoutTurn (reliable : Reliable c) (talking : Talking c content p) (idle : p.pending = [])
    (may : mayLogout p.conn.world.phase = true) {text : Option Bytes} (plain : ∀ value ∈ text, SOH ∉ value) :
    ∃ wire conn, turn c env p (.command (.logout text)) = {p with conn := conn} ∧
      ({p with conn := conn} : Pair).sent = p.sent ++ [wire] ∧
      encodeOutbound c (headerFields (ascii "5") c.config.senderCompId c.config.targetCompId p.conn.world.nextOut
        (c.env.sendingTime p.conn.world.tick) ++ (text.map fun text => (⟨58,text⟩ : Field)).toList) = .ok wire := by
  obtain ⟨wire,v,run,speaks,encodes,-⟩ := logoutSpeaks reliable talking.solid may plain
  obtain ⟨new,trace,wires,-⟩ := speaks.trace
  have result : commandResult c (.logout text) p.conn.world = (.ok .ack,loggingOut v) := Prog.bindReturns run
  have acts : step c p.conn (.command (.logout text)) = ⟨replied (.ok .ack) (loggingOut v),true⟩ := by
    simp only [step,talking.live,if_true,react,handleCommandRun,result,settle]
  refine ⟨wire,⟨replied (.ok .ack) (loggingOut v),true⟩,?_,?_,encodes⟩
  · dsimp only [turn]
    rw [if_pos idle,acts]
  · simp only [Pair.sent,replied,loggingOut,List.filterMap_cons,handedWire,trace,List.filterMap_append,wires,
      List.reverse_append,List.reverse_singleton]

theorem exchangeThen (tick : Nat) (choices : List Choice) (command : ActorCommand) (more : Nat) :
    exchange c env tick (choices ++ [.command command,.mockReads more]) =
      mockReads c env (turn c env (exchange c env tick choices) (.command command)) more := by
  rw [exchange,List.foldl_append]
  rfl

end

def loggedOn : List Choice := [.mockReads 8191,.mockHandles,.reads 8191,.handles]

def afterLogon : Pair := exchange venueCtx venueMock 0 loggedOn

theorem loggedOnTalking : Talking venueCtx dayContent afterLogon := by
  have proper : Along (turn venueCtx venueMock) (Proper venueCtx dayContent) (start venueCtx venueMock 0) loggedOn := by
    refine alongEach (fun choice mem p => ?_) _
    simp only [loggedOn,List.mem_cons,List.not_mem_nil,or_false] at mem
    rcases mem with rfl | rfl | rfl | rfl <;> trivial
  have split : tradingDay = loggedOn ++ tradingDay.drop 4 := rfl
  have later : exchange venueCtx venueMock 0 tradingDay =
      (tradingDay.drop 4).foldl (turn venueCtx venueMock) afterLogon :=
    (congrArg (exchange venueCtx venueMock 0) split).trans List.foldl_append
  have small : Small venueCtx afterLogon :=
    Small.before (later ▸ daySmall) (exchangeGrows afterLogon (tradingDay.drop 4))
  have together : Together venueCtx dayContent afterLogon :=
    Together.run venuePeers (.started dayContent venuePeers 0) proper small
  rcases together.stages with finished | ⟨talking,-⟩
  · have live : afterLogon.conn.live = true := by decide +kernel
    rw [finished.live] at live
    cases live
  · exact talking

structure LoggedOn (p : Pair) : Prop where
  talking : Talking venueCtx dayContent p
  idle : p.pending = []
  may : mayLogout p.conn.world.phase = true
  number : p.conn.world.nextOut = 2
  going : p.mock.ended = none
  handled : p.mock.pending = []
  decoder : p.mock.state.decoder = ⟨[],decoderLimit⟩
  heard : p.heard = p.sent.flatten.length

theorem loggedOnAtVenue : LoggedOn afterLogon := by
  have ready : afterLogon.pending = [] ∧ mayLogout afterLogon.conn.world.phase = true ∧
      afterLogon.conn.world.nextOut = 2 ∧ afterLogon.mock.ended = none ∧ afterLogon.mock.pending = [] ∧
      afterLogon.mock.state.decoder = ⟨[],decoderLimit⟩ ∧ afterLogon.heard = afterLogon.sent.flatten.length := by
    decide +kernel
  obtain ⟨idle,may,number,going,handled,decoder,heard⟩ := ready
  exact ⟨loggedOnTalking,idle,may,number,going,handled,decoder,heard⟩

theorem longHeader : frameEnd (frameHeader (ascii "FIX.4.4") 1048634) decoderLimit = .error (.error .bodyTooLarge) ∧
    (frameHeader (ascii "FIX.4.4") 1048634).length ≤ readLimit ∧ frameHeader (ascii "FIX.4.4") 1048634 ≠ [] := by
  have digits : decimal 1048634 = ascii "1048634" := by decide +kernel
  rw [frameHeader,digits]
  decide +kernel

section

variable {text body : Bytes}

theorem longBody (long : text.length = decoderLimit) (encodes : encodeBody (headerFields (ascii "5") (ascii "CLIENT")
    (ascii "VENUE") 2 venueTime ++ [⟨58,text⟩]) = .ok body) : body.length = 1048634 := by
  have header : ((headerFields (ascii "5") (ascii "CLIENT") (ascii "VENUE") 2 venueTime).flatMap fieldBytes).length =
      54 := by decide +kernel
  have number : (decimal (58 : UInt32).toNat).length = 2 := by decide
  rw [((encodeBodyExact _ _).mp encodes).2,List.flatMap_append,List.length_append,header]
  simp only [List.flatMap_cons,List.flatMap_nil,List.append_nil,fieldBytes,List.length_append,List.length_singleton,
    number,long,decoderLimit]

theorem LoggedOn.longLogoutFails {p : Pair} (logged : LoggedOn p) (plain : SOH ∉ text)
    (long : text.length = decoderLimit) :
    (mockReads venueCtx venueMock (turn venueCtx venueMock p (.command (.logout (some text)))) 8191).mock.ended =
      some (.failed (.frame FrameError.bodyTooLarge.text)) := by
  obtain ⟨wire,conn,asks,sent,encodes⟩ := @logoutTurn _ venueMock _ _ venuePeers.reliable logged.talking logged.idle
    logged.may (some text) fun _ same => Option.some.inj same ▸ plain
  rw [logged.number] at encodes
  obtain ⟨body,enc,rfl⟩ : ∃ body, Encodes (ascii "FIX.4.4") (headerFields (ascii "5") (ascii "CLIENT") (ascii "VENUE")
      2 venueTime ++ [⟨58,text⟩]) body ∧ wire = frameOf (ascii "FIX.4.4") body := by
    unfold encodeOutbound at encodes
    split at encodes
    · rename_i wire' ok
      cases encodes
      exact encoded ok
    · cases encodes
  have size := longBody long enc.body
  have transit : ({p with conn := conn} : Pair).toMock = frameHeader (ascii "FIX.4.4") 1048634 ++
      (body ++ checksumField (byteSum (frameHeader (ascii "FIX.4.4") 1048634 ++ body))) := by
    have whole : frameOf (ascii "FIX.4.4") body = frameHeader (ascii "FIX.4.4") 1048634 ++
        (body ++ checksumField (byteSum (frameHeader (ascii "FIX.4.4") 1048634 ++ body))) := by
      rw [frameOf,size,List.append_assoc]
    rw [Pair.toMock,sent,List.flatten_append,List.flatten_singleton,whole,logged.heard,List.drop_left]
  -- the first read holds the header, and the header alone is refused
  obtain ⟨refused,short,some'⟩ := longHeader
  rw [asks]
  exact mockRefuses logged.going logged.handled logged.decoder transit short some' refused

structure Breaks (c : Ctx) (choices : List Choice) : Prop where
  matched : Matched c venueMock
  conforms : Along (turn c venueMock) (Conforms Control.venueCrates Control.venuePlanner dayContent c)
    (start c venueMock 0) choices
  fails : ¬ InStep (exchange c venueMock 0 choices)

theorem mockFails {p : Pair} {error : MockError} (failed : p.mock.ended = some (.failed error)) : ¬ InStep p := by
  intro inStep
  have ended := inStep.mock
  rw [failed] at ended
  rcases ended with going | returned
  · cases going
  · cases returned

theorem actorFails {p : Pair} (dead : p.conn.live = false) (going : p.mock.ended = none) : ¬ InStep p := by
  intro inStep
  have ended := inStep.actor
  rw [dead,going] at ended
  rcases ended with live | ⟨returned,-⟩
  · cases live
  · cases returned

theorem longTextBreaks (plain : SOH ∉ text) (long : text.length = decoderLimit) :
    Breaks venueCtx (loggedOn ++ [.command (.logout (some text)),.mockReads 8191]) where
  matched := venueMatched
  conforms := by
    refine alongEach (fun choice mem p => ?_) _
    simp only [loggedOn,List.cons_append,List.nil_append,List.mem_cons,List.not_mem_nil,or_false] at mem
    rcases mem with rfl | rfl | rfl | rfl | rfl | rfl
    · trivial
    · trivial
    · trivial
    · trivial
    · exact fun _ same => Option.some.inj same ▸ plain
    · trivial
  fails := by
    have logged : LoggedOn (exchange venueCtx venueMock 0 loggedOn) := loggedOnAtVenue
    rw [exchangeThen]
    exact mockFails (logged.longLogoutFails plain long)

end

def delimitedName : Ctx := {venueCtx with config := {venueCtx.config with senderCompId := [SOH]}}

def delimitedVersion : Ctx := {venueCtx with config := {venueCtx.config with beginString := ascii "FIX=4.4"}}

def refusedStore : Ctx := {venueCtx with env := {venueCtx.env with storeFault := fun _ => .refused (ascii "disk full")}}

/-- A Logout text of 1 MiB, an SOH in a CompID, an equals sign in the BeginString, a store
that refuses: each of them alone breaks the exchange. -/
theorem partiesFail :
    Breaks venueCtx (loggedOn ++ [.command (.logout (some (List.replicate decoderLimit 65))),.mockReads 8191]) ∧
      Breaks delimitedName [.mockReads 8191,.mockHandles] ∧ Breaks delimitedVersion [] ∧ Breaks refusedStore [] := by
  have clocks : SOH ∉ venueTime := by decide
  have matched {c : Ctx} (fields : c.logonFields = []) (interval : c.config.heartbeatIntervalSecs = 30)
      (clock : c.env.sendingTime = fun _ => venueTime) (socket : c.env.ioFault = fun _ => .none) :
      Matched c venueMock :=
    ⟨fields,by rw [interval]; decide,fun _ => ⟨by rw [clock]; exact clocks,clocks⟩,fun _ => ⟨by rw [socket],rfl⟩⟩
  refine ⟨longTextBreaks ?_ List.length_replicate,⟨matched rfl rfl rfl rfl,⟨trivial,trivial,trivial⟩,?_⟩,
    ⟨matched rfl rfl rfl rfl,trivial,?_⟩,matched rfl rfl rfl rfl,trivial,?_⟩
  · exact fun mem => absurd (List.eq_of_mem_replicate mem) (by decide)
  · exact @mockFails _ (.parse (ascii "malformed FIX frame: expected an unsigned decimal value")) (by decide +kernel)
  · exact actorFails (by decide +kernel) (by decide +kernel)
  · exact actorFails (by decide +kernel) (by decide +kernel)

end FixCli.Exchange
