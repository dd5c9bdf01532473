import FixCli.SessionSends

/-! The request IDs and fingerprints under which administrative sends are
journaled: both counters can be read back from the ID. -/
namespace FixCli.Session
open Lib Store

theorem adminKeyInjective {kind other : Bytes} {o p e d : Nat} (same : adminKey kind o e = adminKey other p d) :
    kind = other ∧ o = p ∧ e = d := by
  have colon : isDigit 0x3A = false := by decide
  have shape (kind : Bytes) (o e : Nat) : adminKey kind o e =
      (ascii "session:" ++ kind ++ 0x3A :: decimal o) ++ 0x3A :: decimal e := by
    have literal : ascii ":" = [0x3A] := by decide
    simp only [adminKey,literal,List.append_assoc,List.singleton_append]
  rw [shape,shape] at same
  obtain ⟨front,event⟩ := splitLast (decimalWithout colon) (decimalWithout colon) same
  obtain ⟨front,out⟩ := splitLast (decimalWithout colon) (decimalWithout colon) front
  exact ⟨List.append_cancel_left front,decimalInjective out,decimalInjective event⟩

inductive AdminPair : Bytes → Bytes → Nat → Nat → Prop
  | logon (o e : Nat) : AdminPair (adminKey (ascii "logon") o e) (ascii "admin:A:" ++ decimal o) o e
  | resendRequest (o e beginSeqNum : Nat) : AdminPair (adminKey (ascii "resend-request") o e)
      (ascii "admin:2:" ++ decimal o ++ ascii ":" ++ decimal beginSeqNum) o e
  | heartbeat (o e : Nat) : AdminPair (adminKey (ascii "heartbeat") o e) (ascii "admin:0:" ++ decimal o) o e
  | testRequest (o e : Nat) : AdminPair (adminKey (ascii "test-request") o e)
      (ascii "admin:1:" ++ decimal o ++ ascii ":" ++ (ascii "TEST-" ++ decimal o)) o e
  | logout (o e : Nat) : AdminPair (adminKey (ascii "logout") o e) (ascii "admin:5:" ++ decimal o) o e

theorem adminPairKey {requestId fingerprint : Bytes} {o e : Nat} (pair : AdminPair requestId fingerprint o e) :
    ∃ kind, requestId = adminKey kind o e := by
  cases pair <;> exact ⟨_,rfl⟩

theorem adminPairCounters {requestId fingerprint other : Bytes} {o p e d : Nat}
    (pair : AdminPair requestId fingerprint o e) (same : AdminPair requestId other p d) : o = p ∧ e = d := by
  obtain ⟨kind,rfl⟩ := adminPairKey pair
  obtain ⟨again,key⟩ := adminPairKey same
  exact (adminKeyInjective key).2

end FixCli.Session
