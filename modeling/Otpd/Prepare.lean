import Otpd.Session

/-!
# What `prepare` computes

`prepareCall_iff` lists everything that a call which gets as far as `state_get` has
found on the way.
-/

set_option autoImplicit false

namespace Otpd

open CMem

/-- The user record with feature mask, key and PIN as decoded from its strings. -/
def decodedUser (undef : Undef) (user : User) (featuremask : UInt32) (key : List Byte) : User :=
  { user with featuremask := featuremask, key := key, pin := (a2x user.pinstring).getD undef.pin }

section Prepare

variable {crypto : Crypto} {config : Config} {request : Request} {undef : Undef}

theorem decodeUser_iff {m : CardModule} {user : User} {p : Prepared} :
    decodeUser crypto config request undef (m.ops crypto undef) user = .ok p ↔
      ∃ featuremask key, lookupCard m.table user.card = some featuremask ∧
        m.keyOf user.keystring = some (key, p.scratch1) ∧ p.ops = m.ops crypto undef ∧
        decryptUser crypto config request undef (decodedUser undef user featuremask key)
          (otpLenOf featuremask) (pinLenOf user.pinstring) = .ok p.user := by
  simp only [decodeUser, m.name2fm_eq, m.keystring2key_eq]
  cases mask : lookupCard m.table user.card with
  | none => simp
  | some featuremask =>
      cases keyed : m.keyOf user.keystring with
      | none => simp
      | some pair =>
          obtain ⟨key, scratch1⟩ := pair
          dsimp only
          cases opened : decryptUser crypto config request undef
              (decodedUser undef user featuremask key) (otpLenOf featuremask)
              (pinLenOf user.pinstring) with
          | error exit =>
              simp only [decodedUser] at opened
              rw [opened]
              constructor
              · intro wrong
                cases wrong
              · rintro ⟨fm', key', sameMask, sameKey, -, opened'⟩
                cases sameMask
                cases sameKey
                simp only [decodedUser, opened] at opened'
                cases opened'
          | ok user' =>
              simp only [decodedUser] at opened
              rw [opened]
              constructor
              · intro same
                cases same
                exact ⟨featuremask, key, rfl, rfl, rfl, opened⟩
              · rintro ⟨fm', key', sameMask, sameKey, sameOps, opened'⟩
                cases sameMask
                cases sameKey
                simp only [decodedUser, opened] at opened'
                cases opened'
                rw [← sameOps]
                rfl

end Prepare

theorem prepareCall_iff {crypto : Crypto} {call : Call} {p : Prepared} :
    prepareCall crypto call = .ok p ↔
      ∃ user m featuremask key, call.env.get = .found user ∧ user.password = none ∧
        cardOf user.card = some m ∧ lookupCard m.table user.card = some featuremask ∧
        m.keyOf user.keystring = some (key, p.scratch1) ∧ p.ops = m.ops crypto call.env.undef ∧
        decryptUser crypto call.config call.request call.env.undef
          (decodedUser call.env.undef user featuremask key) (otpLenOf featuremask)
          (pinLenOf user.pinstring) = .ok p.user ∧
        ¬ call.config.timeout - call.env.hrGet < 500000000 := by
  constructor
  · intro success
    obtain ⟨user, got, noPassword, -⟩ := prepare_ok success
    simp only [prepareCall, prepare, got, noPassword, findCardops_cardOf] at success
    cases card : cardOf user.card with
    | none =>
        rw [card] at success
        cases success
    | some m =>
        rw [card] at success
        simp only [Option.map_some] at success
        cases decoded : decodeUser crypto call.config call.request call.env.undef
            (m.ops crypto call.env.undef) user with
        | error exit =>
            rw [decoded] at success
            cases success
        | ok p' =>
            rw [decoded] at success
            dsimp only [bind, Except.bind] at success
            split at success
            · cases success
            · rename_i inTime
              cases success
              obtain ⟨featuremask, key, mask, keyed, ops, opened⟩ := decodeUser_iff.mp decoded
              exact ⟨user, m, featuremask, key, got, noPassword, card, mask, keyed, ops, opened,
                inTime⟩
  · rintro ⟨user, m, featuremask, key, got, noPassword, card, mask, keyed, ops, opened, inTime⟩
    have decoded := decodeUser_iff.mpr ⟨featuremask, key, mask, keyed, ops, opened⟩
    simp only [prepareCall, prepare, got, noPassword, findCardops_cardOf, card, Option.map_some,
      decoded]
    dsimp only [bind, Except.bind]
    rw [if_neg inTime]

end Otpd
