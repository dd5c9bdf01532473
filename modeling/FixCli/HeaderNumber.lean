import FixCli.ApplicationWire

/-! The number that a frame of the session carries: the one its standard header was
given, whatever comes behind the header. -/
namespace FixCli.Session
open Lib Codec Store

def Headed (c : Ctx) (n : Nat) (fields : List Field) : Prop :=
  ∃ msgType time body, SOH ∉ msgType ∧
    fields = headerFields msgType c.config.senderCompId c.config.targetCompId n time ++ body

def Carried (c : Ctx) (n : Nat) (wire : Bytes) : Prop := ∃ fields, Headed c n fields ∧ encodeOutbound c fields = .ok wire

def Copied (c : Ctx) (path : SendPath) (n : Nat) (journalWire wire : Bytes) : Prop :=
  ∃ fields, Headed c n fields ∧ encodeOutbound c fields = .ok wire ∧
    if path = .logon then encodeOutbound c (fields.map (redacted c)) = .ok journalWire else journalWire = wire

section

variable {c : Ctx} {n m : Nat} {wire journalWire : Bytes} {path : SendPath}

theorem Copied.carried (h : Copied c path n journalWire wire) : Carried c n wire := by
  obtain ⟨fields,headed,encodes,-⟩ := h
  exact ⟨fields,headed,encodes⟩

theorem Carried.copied (h : Carried c n wire) (other : path ≠ .logon) : Copied c path n wire wire := by
  obtain ⟨fields,headed,encodes⟩ := h
  exact ⟨fields,headed,encodes,by rw [if_neg other]⟩

theorem outboundEncodes {fields : List Field} (ok : encodeOutbound c fields = .ok wire) :
    encodeMessage c.config.beginString fields = .ok wire := by
  unfold encodeOutbound at ok
  split at ok
  · rename_i same
    cases ok
    exact same
  · cases ok

theorem headedBytes {fields : List Field} (headed : Headed c n fields) : ∃ msgType rest, SOH ∉ msgType ∧
    fields.flatMap fieldBytes = decimal 35 ++ EQ :: (msgType ++ SOH ::
      (fieldBytes ⟨49,c.config.senderCompId⟩ ++ (fieldBytes ⟨56,c.config.targetCompId⟩ ++
        (decimal 34 ++ EQ :: (decimal n ++ SOH :: rest))))) := by
  obtain ⟨msgType,time,body,plain,rfl⟩ := headed
  refine ⟨msgType,(⟨52,time⟩ :: body).flatMap fieldBytes,plain,?_⟩
  simp only [headerFields,List.cons_append,List.nil_append,List.flatMap_cons]
  rw [fieldBytesSplit,fieldBytesSplit ⟨34,decimal n⟩]
  rfl

theorem carriedOnce (h : Carried c n wire) (g : Carried c m wire) : n = m := by
  obtain ⟨fields,headed,encodes⟩ := h
  obtain ⟨fields',headed',encodes'⟩ := g
  obtain ⟨body,enc,rfl⟩ := encoded (outboundEncodes encodes)
  obtain ⟨body',enc',same⟩ := encoded (outboundEncodes encodes')
  have bodies := frameOfInjective same
  obtain ⟨msgType,rest,plain,bytes⟩ := headedBytes headed
  obtain ⟨msgType',rest',plain',bytes'⟩ := headedBytes headed'
  rw [((encodeBodyExact _ _).mp enc.body).2,((encodeBodyExact _ _).mp enc'.body).2,bytes,bytes'] at bodies
  obtain ⟨-,behind⟩ := splitFirst plain plain' (List.cons.inj (List.append_cancel_left bodies)).2
  have numbers := List.append_cancel_left (List.append_cancel_left (List.append_cancel_left behind))
  exact decimalInjective (splitFirst (sohNotIn n) (sohNotIn m) (List.cons.inj numbers).2).1

theorem headedHeader {msgType time : Bytes} (body : List Field) (plain : SOH ∉ msgType) :
    Headed c n (headerFields msgType c.config.senderCompId c.config.targetCompId n time ++ body) :=
  ⟨msgType,time,body,plain,rfl⟩

theorem submitHeaded {request : ApplicationRequest} {w v : World} {fields : List Field}
    (valid : validateSubmit request = .ok ()) (prepared : submitFields c request w = (.ok fields,v)) :
    Headed c w.nextOut fields := by
  obtain ⟨⟨rest,rfl,-,-⟩,-⟩ := submitShape prepared
  exact headedHeader rest (validSubmit valid).1.2.2

end
end FixCli.Session
