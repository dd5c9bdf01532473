import FixCli.ControlService
import FixCli.Fingerprint
import FixCli.Lib.Json
import FixCli.ReplyTexts

/-! Control requests and responses on the local stream: compact JSON behind its length,
in frames of at most 256 KiB either way. Field values are copies of strings, so their
lossy conversion to UTF-8 changes nothing. -/
namespace FixCli.Control
open Lib Codec Store Session

def ipcLimit : Nat := 256 * 1024

inductive IpcError where
  | frameTooLarge (actual maximum : Nat)
  | io (text : Bytes)
  deriving DecidableEq, Repr

/-- `write_json_frame` behind its serializer: what it puts on the stream. -/
def writeJsonFrame (maximum : Nat) (payload : Bytes) : Except IpcError Bytes :=
  if maximum < payload.length ∨ 2 ^ 32 - 1 < payload.length then .error (.frameTooLarge payload.length maximum)
  else .ok (beBytes 4 payload.length ++ payload)

def valueBe (bytes : Bytes) : Nat := bytes.foldl (fun value b => value * 256 + b.toNat) 0

/-- `read_json_frame` up to its deserializer: the payload, and the stream behind it. -/
def readJsonFrame (maximum : Nat) (stream : Bytes) : Except IpcError (Bytes × Bytes) :=
  let length := valueBe (stream.take 4)
  if stream.length < 4 then .error (.io (ascii "early eof"))
  else if maximum < length then .error (.frameTooLarge length maximum)
  else if (stream.drop 4).length < length then .error (.io (ascii "early eof"))
  else .ok ((stream.drop 4).take length,(stream.drop 4).drop length)

def sideText : Side → Bytes
  | .buy => ascii "buy"
  | .sell => ascii "sell"

def orderTypeText : OrderType → Bytes
  | .market => ascii "market"
  | .limit => ascii "limit"

def timeInForceText : TimeInForce → Bytes
  | .day => ascii "day"
  | .gtc => ascii "gtc"
  | .ioc => ascii "ioc"
  | .fok => ascii "fok"

def extraTagJson (entry : UInt32 × Bytes) : Bytes := jsonArray [decimal entry.1.toNat,jsonString entry.2]

def Command.json : Command → Bytes
  | .sessionStatus => jsonObject [("type",jsonString (ascii "session_status"))]
  | .sessionLogout => jsonObject [("type",jsonString (ascii "session_logout"))]
  | .newOrderSingle order => jsonObject [
      ("type",jsonString (ascii "new_order_single")),
      ("symbol",jsonString order.symbol),
      ("account",jsonString order.account),
      ("security_exchange",jsonString order.securityExchange),
      ("security_group",jsonString order.securityGroup),
      ("side",jsonString (sideText order.side)),
      ("quantity",jsonString order.quantity),
      ("ord_type",jsonString (orderTypeText order.orderType)),
      ("price",jsonOption jsonString order.price),
      ("time_in_force",jsonString (timeInForceText order.timeInForce)),
      ("maturity_month_year",jsonOption jsonString order.maturityMonthYear),
      ("extra_tags",jsonArray (order.extraTags.map extraTagJson))]
  | .cancelOrder cancel => jsonObject [
      ("type",jsonString (ascii "cancel_order")),
      ("original_request_id",jsonOption jsonString cancel.originalRequestId),
      ("cl_ord_id",jsonOption jsonString cancel.clOrdId),
      ("account",jsonString cancel.account),
      ("security_group",jsonString cancel.securityGroup)]
  | .replaceOrder replace => jsonObject [
      ("type",jsonString (ascii "replace_order")),
      ("original_request_id",jsonString replace.originalRequestId),
      ("symbol",jsonString replace.symbol),
      ("account",jsonOption jsonString replace.account),
      ("security_exchange",jsonOption jsonString replace.securityExchange),
      ("security_group",jsonOption jsonString replace.securityGroup),
      ("side",jsonString (sideText replace.side)),
      ("quantity",jsonString replace.quantity),
      ("ord_type",jsonString (orderTypeText replace.orderType)),
      ("price",jsonOption jsonString replace.price),
      ("time_in_force",jsonString (timeInForceText replace.timeInForce))]

def ControlRequest.json (request : ControlRequest) : Bytes := jsonObject [
  ("version",decimal request.version),
  ("request_id",jsonString request.requestId),
  ("profile",jsonString request.profile),
  ("execution_mode",jsonString request.executionMode.text),
  ("command",request.command.json),
  ("auth",jsonNull)]

def phaseText : SessionPhase → Bytes
  | .disconnected => ascii "disconnected"
  | .connecting => ascii "connecting"
  | .logonSent => ascii "logon_sent"
  | .synchronizing => ascii "synchronizing"
  | .established => ascii "established"
  | .recovering => ascii "recovering"
  | .logoutSent => ascii "logout_sent"
  | .blocked => ascii "blocked"

def commandPhaseText : CommandPhase → Bytes
  | .journaled => ascii "journaled"
  | .written => ascii "written_to_socket"

def fieldJson (field : Field) : Bytes :=
  jsonObject [("tag",decimal field.tag.toNat),("value",jsonString field.value)]

def CommandResult.json : CommandResult → Bytes
  | .status current => jsonObject [
      ("next_in",decimal current.nextIn),
      ("next_out",decimal current.nextOut),
      ("phase",jsonString (phaseText current.phase)),
      ("test_request_outstanding",jsonOption jsonString current.testRequestOutstanding)]
  | .logoutSent => jsonObject [("phase",jsonString (ascii "logout_sent"))]
  | .validated msgType clOrdId fields => jsonObject [
      ("cl_ord_id",jsonString clOrdId),
      ("fields",jsonArray (fields.map fieldJson)),
      ("msg_type",jsonString msgType),
      ("phase",jsonString (ascii "validated")),
      ("would_send",jsonBool false)]
  | .command phase clOrdId msgSeqNum => jsonObject [
      ("cl_ord_id",jsonString clOrdId),
      ("msg_seq_num",decimal msgSeqNum),
      ("phase",jsonString (commandPhaseText phase)),
      ("venue_status",jsonString (ascii "pending"))]

def ControlErrorBody.json (error : ControlErrorBody) : Bytes := jsonObject [
  ("code",jsonString (ascii error.code)),
  ("retryable",jsonBool error.retryable),
  ("message",jsonString error.message)]

def present {α : Type} (key : String) (value : α → Bytes) (a : Option α) : List (String × Bytes) :=
  (a.map fun a => (key,value a)).toList

def ControlResponse.json (response : ControlResponse) : Bytes := jsonObject (
  [("version",decimal response.version),
    ("request_id",jsonString response.requestId),
    ("ok",jsonBool response.ok)] ++
  present "result" CommandResult.json response.result ++ present "error" ControlErrorBody.json response.error)

section

variable {requestId : Bytes}

theorem valueBeFrom (width n value : Nat) :
    (beBytes width n).foldl (fun value b => value * 256 + b.toNat) value = value * 256 ^ width + n % 256 ^ width := by
  induction width generalizing value with
  | zero => simp [beBytes,Nat.mod_one]
  | succ width ih =>
    have digit : (UInt8.ofNat (n / 256 ^ width)).toNat = n / 256 ^ width % 256 := UInt8.toNat_ofNat'
    rw [beCons,List.foldl_cons,ih,digit,Nat.mod_pow_succ,pow_succ]
    ring

theorem valueBeBytes {width n : Nat} (fits : n < 256 ^ width) : valueBe (beBytes width n) = n := by
  rw [valueBe,valueBeFrom,Nat.zero_mul,Nat.zero_add,Nat.mod_eq_of_lt fits]

theorem readsFrame {maximum : Nat} {payload frame : Bytes}
    (written : writeJsonFrame maximum payload = .ok frame) (rest : Bytes) :
    readJsonFrame maximum (frame ++ rest) = .ok (payload,rest) := by
  unfold writeJsonFrame at written
  split at written
  · cases written
  · rename_i fits
    cases written
    have length : (beBytes 4 payload.length).length = 4 := beLength 4 _
    have front : (beBytes 4 payload.length ++ payload ++ rest).take 4 = beBytes 4 payload.length := by
      rw [List.append_assoc]
      exact List.take_left' length
    have back : (beBytes 4 payload.length ++ payload ++ rest).drop 4 = payload ++ rest := by
      rw [List.append_assoc]
      exact List.drop_left' length
    have value : valueBe (beBytes 4 payload.length) = payload.length := valueBeBytes (by omega)
    unfold readJsonFrame
    dsimp only
    rw [front,back,value,if_neg (by simp [length]),if_neg (by omega),if_neg (by simp),List.take_left,List.drop_left]

theorem writesFrame {maximum : Nat} (small : maximum < 2 ^ 32) (payload : Bytes) :
    (∃ frame, writeJsonFrame maximum payload = .ok frame) ↔ payload.length ≤ maximum := by
  unfold writeJsonFrame
  constructor
  · rintro ⟨frame,written⟩
    split at written
    · cases written
    · omega
  · intro fits
    exact ⟨_,if_neg (by omega)⟩

theorem writtenFrame {maximum : Nat} {payload frame : Bytes}
    (written : writeJsonFrame maximum payload = .ok frame) : frame = beBytes 4 payload.length ++ payload := by
  unfold writeJsonFrame at written
  split at written
  · cases written
  · cases written
    rfl

theorem refusesFrame {maximum : Nat} {payload : Bytes} (large : maximum < payload.length) :
    writeJsonFrame maximum payload = .error (.frameTooLarge payload.length maximum) := if_pos (.inl large)

theorem fieldLength (field : Field) :
    (fieldJson field).length = (decimal field.tag.toNat).length + (escaped field.value).length + 19 := by
  have tag : (escaped (ascii "tag")).length = 3 := by decide
  have value : (escaped (ascii "value")).length = 5 := by decide
  simp only [fieldJson,jsonObjectLength,memberLength,jsonStringLength,List.map_cons,List.map_nil,List.sum_cons,
    List.sum_nil,List.length_cons,List.length_nil,tag,value]
  omega

theorem failedLength (requestId : Bytes) (error : ControlErrorBody) : (failed requestId error).json.length =
    (escaped requestId).length + (escaped (ascii error.code)).length + (escaped error.message).length +
      (jsonBool error.retryable).length + 86 := by
  have version : (escaped (ascii "version")).length = 7 := by decide
  have one : (decimal 1).length = 1 := by decide
  have id : (escaped (ascii "request_id")).length = 10 := by decide
  have ok : (escaped (ascii "ok")).length = 2 := by decide
  have no : (jsonBool false).length = 5 := by decide
  have error : (escaped (ascii "error")).length = 5 := by decide
  have code : (escaped (ascii "code")).length = 4 := by decide
  have retryable : (escaped (ascii "retryable")).length = 9 := by decide
  have message : (escaped (ascii "message")).length = 7 := by decide
  simp only [failed,ControlResponse.json,ControlErrorBody.json,present,jsonObjectLength,memberLength,jsonStringLength,
    Option.map_none,Option.map_some,Option.toList_none,Option.toList_some,List.append_nil,List.cons_append,
    List.nil_append,List.map_cons,List.map_nil,List.sum_cons,List.sum_nil,List.length_cons,List.length_nil,
    version,one,id,ok,no,error,code,retryable,message]
  omega

theorem answeredLength (requestId : Bytes) (result : CommandResult) :
    (responseOf requestId (.ok result)).json.length = (escaped requestId).length + result.json.length + 49 := by
  have version : (escaped (ascii "version")).length = 7 := by decide
  have one : (decimal 1).length = 1 := by decide
  have id : (escaped (ascii "request_id")).length = 10 := by decide
  have ok : (escaped (ascii "ok")).length = 2 := by decide
  have yes : (jsonBool true).length = 4 := by decide
  have key : (escaped (ascii "result")).length = 6 := by decide
  simp only [responseOf,ControlResponse.json,present,jsonObjectLength,memberLength,jsonStringLength,
    Option.map_none,Option.map_some,Option.toList_none,Option.toList_some,List.append_nil,List.cons_append,
    List.nil_append,List.map_cons,List.map_nil,List.sum_cons,List.sum_nil,List.length_cons,List.length_nil,
    version,one,id,ok,yes,key]
  omega

def fieldsRoom (fields : List Field) : Nat :=
  (fields.map fun field => (decimal field.tag.toNat).length + (escaped field.value).length + 19).sum +
    (fields.length - 1)

theorem validatedLength (msgType clOrdId : Bytes) (fields : List Field) :
    (CommandResult.validated msgType clOrdId fields).json.length =
      (escaped clOrdId).length + (escaped msgType).length + fieldsRoom fields + 81 := by
  have one : (escaped (ascii "cl_ord_id")).length = 9 := by decide
  have two : (escaped (ascii "fields")).length = 6 := by decide
  have three : (escaped (ascii "msg_type")).length = 8 := by decide
  have four : (escaped (ascii "phase")).length = 5 := by decide
  have five : (escaped (ascii "would_send")).length = 10 := by decide
  have phase : (escaped (ascii "validated")).length = 9 := by decide
  have no : (jsonBool false).length = 5 := by decide
  have listed : (List.map (List.length ∘ fieldJson) fields) =
      fields.map fun field => (decimal field.tag.toNat).length + (escaped field.value).length + 19 :=
    List.map_congr_left fun field _ => fieldLength field
  simp only [CommandResult.json,jsonObjectLength,memberLength,jsonStringLength,jsonArrayLength,List.map_map,
    List.length_map,List.map_cons,List.map_nil,List.sum_cons,List.sum_nil,List.length_cons,List.length_nil,
    listed,fieldsRoom,one,two,three,four,five,phase,no]
  omega

theorem statusLength {status : SessionStatus} (brief : briefReply (.status status)) :
    (CommandResult.status status).json.length ≤ 512 := by
  obtain ⟨out,inbound,outstanding⟩ := brief
  have first := digitsOf out
  have second := digitsOf inbound
  have one : (escaped (ascii "next_in")).length = 7 := by decide
  have two : (escaped (ascii "next_out")).length = 8 := by decide
  have three : (escaped (ascii "phase")).length = 5 := by decide
  have four : (escaped (ascii "test_request_outstanding")).length = 24 := by decide
  have phase : (escaped (phaseText status.phase)).length ≤ 16 := by cases status.phase <;> decide
  have test : (jsonOption jsonString status.testRequestOutstanding).length ≤ 152 := by
    cases found : status.testRequestOutstanding with
    | none => decide
    | some id =>
      have short := outstanding id found
      have bound := (escapedBounds id).2
      simp only [jsonOption,jsonStringLength]
      omega
  simp only [CommandResult.json,jsonObjectLength,memberLength,jsonStringLength,List.map_cons,List.map_nil,
    List.sum_cons,List.sum_nil,List.length_cons,List.length_nil,one,two,three,four]
  omega

theorem commandLength {command : CommandRecord} (short : Short command) :
    (commandResult command).json.length ≤ 512 := by
  have digits := digitsOf short.msgSeqNum
  have clOrdId := (escapedBounds command.clOrdId).2
  have length := short.clOrdId
  have one : (escaped (ascii "cl_ord_id")).length = 9 := by decide
  have two : (escaped (ascii "msg_seq_num")).length = 11 := by decide
  have three : (escaped (ascii "phase")).length = 5 := by decide
  have four : (escaped (ascii "venue_status")).length = 12 := by decide
  have pending : (escaped (ascii "pending")).length = 7 := by decide
  have phase : (escaped (commandPhaseText command.phase)).length ≤ 17 := by cases command.phase <;> decide
  simp only [commandResult,CommandResult.json,jsonObjectLength,memberLength,jsonStringLength,List.map_cons,
    List.map_nil,List.sum_cons,List.sum_nil,List.length_cons,List.length_nil,one,two,three,four,pending]
  omega

theorem logoutLength : CommandResult.logoutSent.json.length ≤ 512 := by decide

def briefOutcome : Except SessionError CommandResult → Prop
  | .ok result => result.json.length ≤ 512
  | .error error => briefError error

theorem errorCodeLength (error : SessionError) : (ascii (sessionErrorCode error).1).length ≤ 32 := by
  cases error with
  | store text =>
    simp only [sessionErrorCode]
    split <;> decide
  | actorStopped | codec _ | transport _ | protocol _ | notEstablished | invalidApplication _ =>
    simp only [sessionErrorCode]
    decide

theorem boolLength (b : Bool) : (jsonBool b).length ≤ 5 := by cases b <;> decide

theorem failedFits {error : ControlErrorBody} (id : requestId.length ≤ 128) (code : (ascii error.code).length ≤ 32)
    (message : error.message.length ≤ textLimit + 512) : (failed requestId error).json.length ≤ ipcLimit := by
  have one := (escapedBounds requestId).2
  have two := (escapedBounds (ascii error.code)).2
  have three := (escapedBounds error.message).2
  have four := boolLength error.retryable
  simp only [textLimit] at message
  simp only [failedLength,ipcLimit]
  omega

theorem outcomeFits (id : requestId.length ≤ 128) {outcome : Except SessionError CommandResult}
    (brief : briefOutcome outcome) : (responseOf requestId outcome).json.length ≤ ipcLimit := by
  cases outcome with
  | ok result =>
    have one := (escapedBounds requestId).2
    have short : result.json.length ≤ 512 := brief
    simp only [answeredLength,ipcLimit]
    omega
  | error error => exact failedFits id (errorCodeLength error) brief

end
end FixCli.Control
