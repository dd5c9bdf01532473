import FixCli.SectionMerge
import FixCli.Lib.Prog

/-! The numbers of a configuration on their way into the daemon: the rate is narrowed to a
`u32`, the reconnect interval turned into milliseconds, the heartbeat interval doubled. -/
namespace FixCli.Cfg
open Lib Codec

/-- A product of `u64`s; a debug build panics where a release build wraps. -/
def mulU64 (overflowChecks : Bool) (a b : Nat) : Except (Stop CfgError) Nat :=
  if a * b < u64Limit then .ok (a * b)
  else if overflowChecks then .error .panic
  else .ok (a * b % u64Limit)

def addDurations (a b : Nat) : Except (Stop CfgError) Nat := if a + b < u64Limit then .ok (a + b) else .error .panic

structure TransportConfig where
  host : Text
  port : Nat
  connectTimeoutMs : Nat
  reconnectInitialMs : Nat
  reconnectMaxMs : Nat

section

variable {δ : Type}

def transportOf (overflowChecks : Bool) (session : InitiatorSession δ) : Except (Stop CfgError) TransportConfig := do
  let reconnectInitialMs ← mulU64 overflowChecks session.reconnectIntervalSecs 1000
  let reconnectMaxMs ← mulU64 overflowChecks session.reconnectIntervalSecs 1000
  .ok ⟨session.host,session.port,session.connectTimeoutMs,reconnectInitialMs,reconnectMaxMs⟩

def heartbeatSecs (session : InitiatorSession δ) : Nat := max session.heartbeatIntervalSecs 1

def silenceSecs (session : InitiatorSession δ) : Except (Stop CfgError) Nat :=
  addDurations (heartbeatSecs session) (heartbeatSecs session)

def written (keys : SectionTable) (key : String) (default : Nat) : Nat :=
  match filled keys key with
  | some value => valueOf 0 (digitBytes (unsignedDigits value))
  | none => default

structure Unchanged (overflowChecks : Bool) (keys : SectionTable) (session : InitiatorSession δ) : Prop where
  positive : 0 < session.maxMessagesPerSecond.toNat
  rate : session.maxMessagesPerSecond.toNat = written keys "MaxMessagesPerSecond" 20
  delays : ∃ transport, transportOf overflowChecks session = .ok transport ∧
    transport.reconnectInitialMs = 1000 * written keys "ReconnectInterval" 10 ∧
    transport.reconnectMaxMs = 1000 * written keys "ReconnectInterval" 10
  interval : heartbeatSecs session < u64Limit
  silence : ∃ secs, silenceSecs session = .ok secs ∧ secs = 2 * heartbeatSecs session

structure Roomy (keys : SectionTable) : Prop where
  rate : written keys "MaxMessagesPerSecond" 20 < 2 ^ 32
  reconnect : 1000 * written keys "ReconnectInterval" 10 < u64Limit
  heartbeat : 2 * written keys "HeartBtInt" 30 < u64Limit

variable {keys : SectionTable} {key : String} {n m default : Nat}

theorem parsedUnsigned {limit : Nat} {value : Text} (some' : 0 < limit) (parsed : parseUnsigned limit value = some n) :
    n = valueOf 0 (digitBytes (unsignedDigits value)) ∧ n < limit := by
  unfold parseUnsigned at parsed
  split at parsed
  · cases parsed
  · rw [readDigitsExact _ _ _ some'] at parsed
    split at parsed
    · rename_i fits
      exact ⟨(Option.some.inj parsed).symm,Option.some.inj parsed ▸ fits⟩
    · cases parsed

theorem parsedWritten (small : default < u64Limit) (ok : parsedU64 keys key default = .ok n) :
    n = written keys key default ∧ n < u64Limit := by
  unfold parsedU64 at ok
  unfold written
  cases here : filled keys key with
  | none =>
    simp only [here,Except.ok.injEq] at ok ⊢
    exact ⟨ok.symm,ok ▸ small⟩
  | some value =>
    cases parsed : parseUnsigned u64Limit value with
    | none =>
      simp only [here,parsed] at ok
      cases ok
    | some number =>
      simp only [here,parsed,Except.ok.injEq] at ok ⊢
      exact ok ▸ parsedUnsigned (by decide) parsed

theorem positiveOk (ok : positive key n = .ok m) : m = n ∧ 0 < n := by
  unfold positive at ok
  split at ok
  · cases ok
  · rename_i some'
    cases ok
    exact ⟨rfl,Nat.pos_of_ne_zero some'⟩

theorem raised {ε α : Type} {r : Except ε α} {a : α} (ok : raise r = .ok a) : r = .ok a := by
  cases r with
  | ok b => cases ok; rfl
  | error e => cases ok

theorem initiatorNumbers {decimalOf : Text → Option δ} {session : InitiatorSession δ}
    (ok : initiatorOf decimalOf keys = .ok session) :
    (0 < written keys "MaxMessagesPerSecond" 20 ∧
      session.maxMessagesPerSecond = (written keys "MaxMessagesPerSecond" 20).toUInt32) ∧
    session.reconnectIntervalSecs = written keys "ReconnectInterval" 10 ∧
    0 < written keys "HeartBtInt" 30 ∧ session.heartbeatIntervalSecs = written keys "HeartBtInt" 30 ∧
    written keys "HeartBtInt" 30 < u64Limit := by
  unfold initiatorOf at ok
  split at ok
  · cases ok
  obtain ⟨custom,-,ok⟩ := boundOk ok
  obtain ⟨named,-,ok⟩ := boundOk ok
  obtain ⟨logonFields,-,ok⟩ := boundOk ok
  obtain ⟨heartbeat,beat,ok⟩ := boundOk ok
  obtain ⟨secs,beats,ok⟩ := boundOk ok
  obtain ⟨rate,messages,ok⟩ := boundOk ok
  obtain ⟨perSecond,positives,ok⟩ := boundOk ok
  obtain ⟨beginString,-,ok⟩ := boundOk ok
  obtain ⟨senderCompId,-,ok⟩ := boundOk ok
  obtain ⟨targetCompId,-,ok⟩ := boundOk ok
  obtain ⟨host,-,ok⟩ := boundOk ok
  obtain ⟨wide,-,ok⟩ := boundOk ok
  obtain ⟨port,-,ok⟩ := boundOk ok
  obtain ⟨reconnect,reconnects,ok⟩ := boundOk ok
  obtain ⟨timeout,-,ok⟩ := boundOk ok
  obtain ⟨maxQuantity,-,ok⟩ := boundOk ok
  obtain ⟨maxNotional,-,ok⟩ := boundOk ok
  obtain ⟨allow,-,ok⟩ := boundOk ok
  obtain ⟨reset,-,ok⟩ := boundOk ok
  cases ok
  obtain ⟨rfl,small⟩ := parsedWritten (by decide) (raised beat)
  obtain ⟨rfl,-⟩ := parsedWritten (by decide) (raised messages)
  obtain ⟨rfl,-⟩ := parsedWritten (by decide) (raised reconnects)
  obtain ⟨rfl,secsPositive⟩ := positiveOk (raised beats)
  obtain ⟨rfl,ratePositive⟩ := positiveOk (raised positives)
  exact ⟨⟨ratePositive,rfl⟩,rfl,secsPositive,rfl,small⟩

end

section

variable {δ : Type} {n : Nat}

theorem narrowed (some' : 0 < n) : (0 < n.toUInt32.toNat ∧ n.toUInt32.toNat = n) ↔ n < 2 ^ 32 := by
  have value : n.toUInt32.toNat = n % 2 ^ 32 := UInt32.toNat_ofNat'
  rw [value]
  constructor
  · rintro ⟨-,same⟩
    exact same ▸ Nat.mod_lt _ (by decide)
  · intro small
    rw [Nat.mod_eq_of_lt small]
    exact ⟨some',rfl⟩

theorem multiplied (overflowChecks : Bool) : mulU64 overflowChecks n 1000 = .ok (1000 * n) ↔ 1000 * n < u64Limit := by
  unfold mulU64
  rw [Nat.mul_comm n]
  split
  · rename_i fits
    simp [fits]
  · rename_i wide
    refine iff_of_false (fun same => ?_) wide
    split at same
    · cases same
    · exact wide (Except.ok.inj same ▸ Nat.mod_lt _ (by decide))

theorem doubled : (∃ secs, addDurations n n = .ok secs ∧ secs = 2 * n) ↔ 2 * n < u64Limit := by
  unfold addDurations
  rw [← Nat.two_mul]
  split
  · rename_i fits
    exact iff_of_true ⟨_,rfl,rfl⟩ fits
  · rename_i wide
    exact iff_of_false (fun ⟨_,same,_⟩ => nomatch same) wide

theorem transported (overflowChecks : Bool) (session : InitiatorSession δ) :
    (∃ transport, transportOf overflowChecks session = .ok transport ∧
      transport.reconnectInitialMs = 1000 * session.reconnectIntervalSecs ∧
      transport.reconnectMaxMs = 1000 * session.reconnectIntervalSecs) ↔
      1000 * session.reconnectIntervalSecs < u64Limit := by
  rw [← multiplied overflowChecks,transportOf]
  constructor
  · rintro ⟨transport,ok,first,-⟩
    obtain ⟨initial,goes,rest⟩ := boundOk ok
    obtain ⟨most,-,done⟩ := boundOk rest
    cases done
    rw [goes]
    exact congrArg _ first
  · intro goes
    refine ⟨⟨session.host,session.port,session.connectTimeoutMs,_,_⟩,?_,rfl,rfl⟩
    rw [goes]
    rfl

end

/-- The numbers of an accepted configuration reach the daemon unchanged exactly when they
leave room for what is done with them. -/
theorem numbersUnchanged {δ : Type} (decimalOf : Text → Option δ) (overflowChecks : Bool) {text : Text}
    {session : InitiatorSession δ} (ok : parseClientCfg decimalOf text = .ok session) :
    ∃ sections keys, mergedSections text = .ok sections ∧ selectSession sections "initiator".toList = .ok keys ∧
      (Unchanged overflowChecks keys session ↔ Roomy keys) := by
  obtain ⟨sections,merges,rest⟩ := boundOk ok
  obtain ⟨keys,selects,accepts⟩ := boundOk rest
  obtain ⟨⟨positive,rate⟩,reconnect,beats,heartbeat,fits⟩ := initiatorNumbers accepts
  have secs : heartbeatSecs session = written keys "HeartBtInt" 30 := by rw [heartbeatSecs,heartbeat]; omega
  have delays := transported overflowChecks session
  rw [reconnect] at delays
  have narrow := narrowed positive
  rw [← rate] at narrow
  have silent := doubled (n := heartbeatSecs session)
  refine ⟨sections,keys,merges,raised selects,fun h => ⟨narrow.mp ⟨h.positive,h.rate⟩,delays.mp h.delays,?_⟩,fun h => ?_⟩
  · exact secs ▸ silent.mp h.silence
  · exact ⟨(narrow.mpr h.rate).1,(narrow.mpr h.rate).2,delays.mpr h.reconnect,secs ▸ fits,
      silent.mpr (secs ▸ h.heartbeat)⟩

def wholeNumber (text : Text) : Option Nat := parseUnsigned u64Limit text

def clientCfg (more : List String) : Text :=
  textOf (["[t]", "ConnectionType=initiator", "BeginString=F", "SenderCompID=C", "TargetCompID=V",
    "SocketConnectHost=h"] ++ more)

theorem numbersUnchangedSample :
    (parseClientCfg wholeNumber (clientCfg [])).isOk = true ∧
      ∃ session sections keys, parseClientCfg wholeNumber (clientCfg []) = .ok session ∧
        mergedSections (clientCfg []) = .ok sections ∧ selectSession sections "initiator".toList = .ok keys ∧
        (Unchanged true keys session ↔ Roomy keys) := by
  have fine : (parseClientCfg wholeNumber (clientCfg [])).isOk = true := by decide +kernel
  obtain ⟨session,run⟩ := accepted fine
  obtain ⟨sections,keys,merges,selects,same⟩ := numbersUnchanged wholeNumber true run
  exact ⟨fine,session,sections,keys,run,merges,selects,same⟩

theorem rateNarrowed :
    (parseClientCfg wholeNumber (clientCfg ["MaxMessagesPerSecond=4294967296"])).map
      InitiatorSession.maxMessagesPerSecond = .ok 0 := by
  decide +kernel

end FixCli.Cfg
