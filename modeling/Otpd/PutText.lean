import Otpd.GsmSession
import Otpd.WorkThread

/-!
# Requests that read alike

`state_put_global` writes `P username` or `P username state`, with the username once
more inside the state.  Neither the space nor the colon is among the characters that
`work_thread` refuses in a username.
-/

set_option autoImplicit false

namespace Otpd

open CMem

/-- The text `state_put_global` hands to `gsmd`. -/
def putText (username : Username) (record : Option StateRecord) : List Byte :=
  gsmdText 80 username (record.map (stateUnparse username))

theorem GsmReq.datagram_put (keys : Nat → GsmdKey) (streamid : UInt32 × UInt32) (thread gsmd : Nat)
    (username : Username) (record : Option StateRecord) (seq : UInt32) :
    GsmReq.datagram keys streamid ⟨thread, gsmd, username, .put record, seq⟩ =
      gsmdRequest (keys gsmd) streamid (putText username record) seq := by
  cases record with
  | none => rfl
  | some record => rfl

theorem unparseFields_colons (record : StateRecord) : (unparseFields record).count 58 = 6 := by
  have clean : ∀ {text : List Byte}, (58 : Byte) ∉ text → text.count 58 = 0 :=
    List.count_eq_zero_of_not_mem
  simp only [unparseFields, List.count_append, List.count_cons_self, clean (x2a_clean _).1,
    clean record.csd.noColon, clean record.rd.noColon, clean (printHex_clean _).1, List.count_nil]

/-- Two updates never read alike. -/
theorem putText_updates {u1 u2 : Username} {r1 r2 : StateRecord}
    (same : putText u1 (some r1) = putText u2 (some r2)) : u1 = u2 ∧ r1 = r2 := by
  have line : ∀ (u : Username) r, putText u (some r) =
      (80 :: 32 :: (u.bytes ++ 32 :: 53 :: 58 :: u.bytes)) ++ 58 :: unparseFields r := by
    intro u r
    simp [putText, gsmdText, stateUnparse]
  rw [line, line] at same
  obtain ⟨front, -⟩ := cut_unique same (by rw [unparseFields_colons, unparseFields_colons])
  have twice : u1.bytes ++ 32 :: 53 :: 58 :: u1.bytes = u2.bytes ++ 32 :: 53 :: 58 :: u2.bytes :=
    (List.cons.inj (List.cons.inj front).2).2
  have sizes : u1.bytes.length = u2.bytes.length := by
    have total := congrArg List.length twice
    simp only [List.length_append, List.length_cons] at total
    omega
  have user : u1 = u2 := CString.ext (List.append_inj twice sizes).1
  subst user
  refine ⟨rfl, ?_⟩
  rw [← line, ← line] at same
  have text : stateUnparse u1 r1 = stateUnparse u1 r2 := by
    simpa [putText, gsmdText] using same
  have parsed := parseLine_unparse u1 r1 []
  rw [text, parseLine_unparse] at parsed
  exact (Option.some.inj parsed).symm

theorem putText_release {u1 u2 : Username} {record : StateRecord} :
    putText u1 none = putText u2 (some record) ↔
      u1.bytes = u2.bytes ++ 32 :: stateUnparse u2 record := by
  simp [putText, gsmdText]

/-- Which username and state a text stands for is not in doubt. -/
def ReadsApart (u1 u2 : Username) : Prop :=
  ∀ s1 s2, putText u1 s1 = putText u2 s2 → u1 = u2 ∧ s1 = s2

/-- `longer` is `shorter` with a space and a complete state of it behind. -/
def NamesUpdate (longer shorter : Username) : Prop :=
  ∃ record, longer.bytes = shorter.bytes ++ 32 :: stateUnparse shorter record

theorem put_text_reads_apart_iff (u1 u2 : Username) :
    ReadsApart u1 u2 ↔ ¬ NamesUpdate u1 u2 ∧ ¬ NamesUpdate u2 u1 := by
  constructor
  · intro apart
    constructor
    · rintro ⟨record, longer⟩
      cases (apart none (some record) (putText_release.mpr longer)).2
    · rintro ⟨record, longer⟩
      cases (apart (some record) none (putText_release.mpr longer).symm).2
  · rintro ⟨first, second⟩ s1 s2 same
    cases s1 with
    | none =>
        cases s2 with
        | none =>
            have user : u1.bytes = u2.bytes := by simpa [putText, gsmdText] using same
            exact ⟨CString.ext user, rfl⟩
        | some record => exact (first ⟨record, putText_release.mp same⟩).elim
    | some r1 =>
        cases s2 with
        | none => exact (second ⟨r1, putText_release.mp same.symm⟩).elim
        | some r2 =>
            obtain ⟨user, records⟩ := putText_updates same
            exact ⟨user, congrArg some records⟩

def erin : Username := ⟨ascii "erin", by decide, by decide⟩

def erinsUpdate : Username := ⟨ascii "erin 5:erin::::0:0:0:", by decide, by decide⟩

def emptyRecord : StateRecord :=
  ⟨[], by decide, StateField.empty 63, StateField.empty 31, 0, 0, 0⟩

/-- A release of the lock of one reads as an update of the state of the other. -/
theorem put_text_read_alike :
    badUsername erinsUpdate = false ∧ badUsername erin = false ∧
      putText erinsUpdate none = putText erin (some emptyRecord) ∧ ¬ ReadsApart erinsUpdate erin := by
  have same : putText erinsUpdate none = putText erin (some emptyRecord) := by decide +kernel
  refine ⟨by decide, by decide, same, ?_⟩
  intro apart
  cases (apart none (some emptyRecord) same).2

end Otpd
