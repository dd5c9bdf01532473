import FixCli.Lib.Overlay
import FixCli.Codec

/-! The configuration files of `quickfix_cfg`: their lines, the sections that the one pass
over them fills, and how DEFAULT is merged under the named ones. A text is a list of Unicode
scalar values. -/
namespace FixCli.Cfg
open Lib Codec

abbrev Text := List Char

def isWhitespace (c : Char) : Bool :=
  let n := c.toNat
  decide (9 ≤ n ∧ n ≤ 13 ∨ n = 0x20 ∨ n = 0x85 ∨ n = 0xA0 ∨ n = 0x1680 ∨ 0x2000 ≤ n ∧ n ≤ 0x200A ∨
    n = 0x2028 ∨ n = 0x2029 ∨ n = 0x202F ∨ n = 0x205F ∨ n = 0x3000)

def trimEnd : Text → Text
  | [] => []
  | c :: rest => match trimEnd rest with
    | [] => if isWhitespace c then [] else [c]
    | kept => c :: kept

def trim (text : Text) : Text := trimEnd (text.dropWhile isWhitespace)

def splitInclusive : Text → List Text
  | [] => []
  | c :: rest =>
    if c = '\n' then [c] :: splitInclusive rest
    else match splitInclusive rest with
      | [] => [[c]]
      | piece :: more => (c :: piece) :: more

def stripSuffix (text : Text) (c : Char) : Option Text := if text.getLast? = some c then some text.dropLast else none

def stripPrefix (text : Text) (c : Char) : Option Text := if text.head? = some c then some text.tail else none

/-- `str::lines`: a line ends with a line feed, or with the carriage return before it. -/
def lines (text : Text) : List Text := (splitInclusive text).map fun piece =>
  match stripSuffix piece '\n' with
  | none => piece
  | some line => (stripSuffix line '\r').getD line

def splitOnce (d : Char) : Text → Option (Text × Text)
  | [] => none
  | c :: rest => if c = d then some ([],rest) else (splitOnce d rest).map fun (key,value) => (c :: key,value)

inductive CfgError where
  | expectedKeyValue (line : Nat) (rawLine : Text)
  | noSection (connectionType : Text)
  | manySections (connectionType : Text) (found : Nat)
  | missingKey (key : Text)
  | notANumber (key value : Text)
  | notADecimal (key value : Text)
  | notYesOrNo (key value : Text)
  | useDataDictionary
  | invalidLogonTag (tag : Text)
  | invalidLogonValue (tag : Nat)
  | conflictingLogonField (key : Text) (tag : Nat)
  | mustBePositive (key : Text)
  | mustFitU16 (key : Text)
  deriving DecidableEq, Repr

def number (n : Nat) : Text := Nat.toDigits 10 n

/-- The messages; `debug` is how `{:?}` prints a text. -/
def CfgError.text (debug : Text → Text) : CfgError → Text
  | .expectedKeyValue line rawLine =>
    "line ".toList ++ number line ++ ": expected KEY=VALUE, got ".toList ++ debug rawLine
  | .noSection connectionType =>
    "no [section] with ConnectionType=".toList ++ connectionType ++ " found".toList
  | .manySections connectionType found =>
    "expected exactly one ConnectionType=".toList ++ connectionType ++ " session, found ".toList ++ number found
  | .missingKey key => "missing required key ".toList ++ key
  | .notANumber key value => "key ".toList ++ key ++ " is not a number: ".toList ++ value
  | .notADecimal key value => "key ".toList ++ key ++ " is not a decimal: ".toList ++ value
  | .notYesOrNo key value => "key ".toList ++ key ++ " must be Y or N, got ".toList ++ value
  | .useDataDictionary => "UseDataDictionary=Y is not supported yet; set it to N for tag-only parsing".toList
  | .invalidLogonTag tag => "invalid LogonField tag ".toList ++ debug tag
  | .invalidLogonValue tag => "LogonField.".toList ++ number tag ++ " has an invalid value".toList
  | .conflictingLogonField key tag => key ++ " conflicts with LogonField.".toList ++ number tag
  | .mustBePositive key => key ++ " must be positive".toList
  | .mustFitU16 key => key ++ " must fit in u16".toList

abbrev SectionTable := Table Text Text

def defaultName : Text := "DEFAULT".toList

structure Scan where
  defaultSection : SectionTable
  sections : Table Text SectionTable
  current : Option Text

def Scan.start : Scan := ⟨∅,∅,none⟩

def headerName (line : Text) : Option Text :=
  (stripPrefix line '[').bind fun rest => (stripSuffix rest ']').map trim

def insertKey (scan : Scan) (key value : Text) : Except (Stop CfgError) Scan :=
  match scan.current with
  | some name =>
    if name ≠ defaultName then
      match scan.sections[name]? with
      | some own => .ok {scan with sections := scan.sections.insert name (own.insert key value)}
      | none => .error .panic
    else .ok {scan with defaultSection := scan.defaultSection.insert key value}
  | none => .ok {scan with defaultSection := scan.defaultSection.insert key value}

def scanLine (scan : Scan) (index : Nat) (rawLine : Text) : Except (Stop CfgError) Scan :=
  let line := trim rawLine
  if line = [] ∨ line.head? = some '#' ∨ line.head? = some ';' then .ok scan
  else match headerName line with
  -- DEFAULT gets an entry as well, which `merge` leaves out
  | some name => .ok {scan with current := some name, sections := scan.sections.insertIfNew name ∅}
  | none => match splitOnce '=' line with
    | none => .error (.error (.expectedKeyValue (index + 1) rawLine))
    | some (key,value) => insertKey scan (trim key) (trim value)

def scanLines : Scan → Nat → List Text → Except (Stop CfgError) Scan
  | scan, _, [] => .ok scan
  | scan, index, rawLine :: rest => do
    let scan ← scanLine scan index rawLine
    scanLines scan (index + 1) rest

def merge (scan : Scan) : List (Text × SectionTable) :=
  (scan.sections.toList.filter fun (name,_) => name ≠ defaultName).map fun (name,own) =>
    (name,scan.defaultSection ∪ own)

def mergedSections (text : Text) : Except (Stop CfgError) (List (Text × SectionTable)) := do
  let scan ← scanLines .start 0 (lines text)
  .ok (merge scan)

def lowercase (text : Text) : Text := text.map Char.toLower

def connectionKey : Text := "ConnectionType".toList

def connects (connectionType : Text) (keys : SectionTable) : Bool :=
  match keys[connectionKey]? with
  | some value => lowercase value == lowercase connectionType
  | none => false

def selectSession (sections : List (Text × SectionTable)) (connectionType : Text) : Except CfgError SectionTable :=
  match sections.filter fun (_,keys) => connects connectionType keys with
  | [] => .error (.noSection connectionType)
  | [(_,keys)] => .ok keys
  | found => .error (.manySections connectionType found.length)

def isDigitChar (c : Char) : Bool := decide (48 ≤ c.toNat ∧ c.toNat ≤ 57)

def unsignedDigits (text : Text) : Text := if text.head? = some '+' then text.tail else text

def digitBytes (digits : Text) : Bytes := digits.map fun c => c.toNat.toUInt8

def parseUnsigned (limit : Nat) (text : Text) : Option Nat :=
  if unsignedDigits text = [] ∨ (unsignedDigits text).any (fun c => !isDigitChar c) then none
  else readDigits limit 0 (digitBytes (unsignedDigits text))

def filled (keys : SectionTable) (key : String) : Option Text := keys[key.toList]?.filter fun value => value ≠ []

def required (keys : SectionTable) (key : String) : Except CfgError Text :=
  match filled keys key with
  | some value => .ok value
  | none => .error (.missingKey key.toList)

def parsedU64 (keys : SectionTable) (key : String) (default : Nat) : Except CfgError Nat :=
  match filled keys key with
  | some value => match parseUnsigned u64Limit value with
    | some n => .ok n
    | none => .error (.notANumber key.toList value)
  | none => .ok default

def parsedDecimal {δ : Type} (decimalOf : Text → Option δ) (keys : SectionTable) (key default : String) :
    Except (Stop CfgError) δ :=
  match filled keys key with
  | some value => match decimalOf value with
    | some d => .ok d
    | none => .error (.error (.notADecimal key.toList value))
  | none => match decimalOf default.toList with
    | some d => .ok d
    -- the default is a literal of the source, and unwrapped
    | none => .error .panic

def parsedBool (keys : SectionTable) (key : String) (default : Bool) : Except CfgError Bool :=
  match filled keys key with
  | some value =>
    if lowercase value ∈ ["y", "yes", "true"].map String.toList then .ok true
    else if lowercase value ∈ ["n", "no", "false"].map String.toList then .ok false
    else .error (.notYesOrNo key.toList value)
  | none => .ok default

def logonFieldPrefix : Text := "LogonField.".toList

def dropPrefix (start text : Text) : Option Text := if start.isPrefixOf text then some (text.drop start.length) else none

def logonFieldKeys : List (Text × Text) → Except CfgError (List (Nat × Text))
  | [] => .ok []
  | (key,value) :: rest =>
    match dropPrefix logonFieldPrefix key with
    | none => logonFieldKeys rest
    | some tagText => match parseUnsigned (2 ^ 32) tagText with
      | none => .error (.invalidLogonTag tagText)
      | some tag =>
        if tag = 0 ∨ value = [] then .error (.invalidLogonValue tag)
        else do
          let more ← logonFieldKeys rest
          .ok ((tag,value) :: more)

def credential (keys : SectionTable) (tag : Nat) (key : String) (fields : List (Nat × Text)) :
    Except CfgError (List (Nat × Text)) :=
  match filled keys key with
  | some value =>
    if fields.any (fun field => field.1 == tag) then .error (.conflictingLogonField key.toList tag)
    else .ok (fields ++ [(tag,value)])
  | none => .ok fields

def positive (key : String) (n : Nat) : Except CfgError Nat :=
  if n = 0 then .error (.mustBePositive key.toList) else .ok n

def fitU16 (key : String) (n : Nat) : Except CfgError Nat :=
  if n < 2 ^ 16 then .ok n else .error (.mustFitU16 key.toList)

structure InitiatorSession (δ : Type) where
  beginString : Text
  senderCompId : Text
  targetCompId : Text
  host : Text
  port : Nat
  heartbeatIntervalSecs : Nat
  reconnectIntervalSecs : Nat
  connectTimeoutMs : Nat
  logonFields : List (Nat × Text)
  maxQuantity : δ
  maxNotional : δ
  allowMarketOrders : Bool
  maxMessagesPerSecond : UInt32
  resetSeqNumFlag : Bool
  fileLogPath : Option Text
  fileStorePath : Option Text

def refusesDictionary (keys : SectionTable) : Bool :=
  match keys["UseDataDictionary".toList]? with
  | some value => lowercase value == "y".toList
  | none => false

def initiatorOf {δ : Type} (decimalOf : Text → Option δ) (keys : SectionTable) :
    Except (Stop CfgError) (InitiatorSession δ) := do
  if refusesDictionary keys then .error (.error .useDataDictionary)
  else do
    let custom ← raise (logonFieldKeys keys.toList)
    let named ← raise (credential keys 553 "Account" custom)
    let logonFields ← raise (credential keys 554 "Password" named)
    let heartbeat ← raise (parsedU64 keys "HeartBtInt" 30)
    let heartbeatIntervalSecs ← raise (positive "HeartBtInt" heartbeat)
    let rate ← raise (parsedU64 keys "MaxMessagesPerSecond" 20)
    let maxMessagesPerSecond ← raise (positive "MaxMessagesPerSecond" rate)
    let beginString ← raise (required keys "BeginString")
    let senderCompId ← raise (required keys "SenderCompID")
    let targetCompId ← raise (required keys "TargetCompID")
    let host ← raise (required keys "SocketConnectHost")
    let wide ← raise (parsedU64 keys "SocketConnectPort" 0)
    let port ← raise (fitU16 "SocketConnectPort" wide)
    let reconnectIntervalSecs ← raise (parsedU64 keys "ReconnectInterval" 10)
    let connectTimeoutMs ← raise (parsedU64 keys "ConnectTimeoutMs" 5000)
    let maxQuantity ← parsedDecimal decimalOf keys "MaxQuantity" "10000"
    let maxNotional ← parsedDecimal decimalOf keys "MaxNotional" "100000000"
    let allowMarketOrders ← raise (parsedBool keys "AllowMarketOrders" false)
    let resetSeqNumFlag ← raise (parsedBool keys "ResetSeqNumFlag" false)
    .ok {
      beginString, senderCompId, targetCompId, host, port, heartbeatIntervalSecs, reconnectIntervalSecs,
      connectTimeoutMs, maxQuantity, maxNotional, allowMarketOrders, resetSeqNumFlag
      logonFields := logonFields.mergeSort fun a b => decide (a.1 ≤ b.1)
      -- `as u32`
      maxMessagesPerSecond := maxMessagesPerSecond.toUInt32
      fileLogPath := filled keys "FileLogPath"
      fileStorePath := filled keys "FileStorePath" }

def parseClientCfg {δ : Type} (decimalOf : Text → Option δ) (text : Text) :
    Except (Stop CfgError) (InitiatorSession δ) := do
  let sections ← mergedSections text
  let keys ← raise (selectSession sections "initiator".toList)
  initiatorOf decimalOf keys

end FixCli.Cfg
