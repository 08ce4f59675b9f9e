import Otpd.Records
import Otpd.Window

/-!
# The normal event window

Three sizes decide how far `verify` looks ahead: the user's temporary window, the
resync window and the event window.  Only the second is compared with the third.
-/

set_option autoImplicit false

namespace Otpd

open CMem

/-! ## Where a user record comes from -/

inductive UserSource where
  | file (options : FileConfig) (passwd : PasswdFile) (username : Username)
  | ldap (search : LdapSearch) (memory : LdapMemory) (now : Time)

/-- `config->userops->get`. -/
def UserSource.get (config : Config) : UserSource → Option UserGet
  | .file options passwd username => some (fileGet options passwd username)
  | .ldap search memory now => ldapGet config search memory now

/-- The temporary window in force, 0 for none. -/
def UserSource.rwindow : UserSource → UInt32
  | .ldap (.entry entry) _ now =>
      (ldapRWindow entry.otpTmpRWindow entry.otpTmpRWindowExpiry now).getD 0
  | _ => 0

theorem fileParse_rwindow {options : FileConfig} {line : List Byte} {user : User}
    (found : fileParse options line = .found user) : user.rwindowSize = 0 := by
  simp only [fileParse] at found
  split at found
  · cases found
  · split at found
    · cases found
    · split_ifs at found
      cases found
      rfl

theorem fileGet_rwindow {options : FileConfig} {passwd : PasswdFile} {username : Username}
    {user : User} (found : fileGet options passwd username = .found user) :
    user.rwindowSize = 0 := by
  simp only [fileGet] at found
  split at found
  · cases found
  · split at found
    · split at found
      · cases found
      · cases found
    · exact fileParse_rwindow found

theorem ldapGet_rwindow {config : Config} {search : LdapSearch} {memory : LdapMemory} {now : Time}
    {user : User} (found : ldapGet config search memory now = some (.found user)) :
    user.rwindowSize = (UserSource.ldap search memory now).rwindow := by
  cases search with
  | failed => cases found
  | notFound => cases found
  | entry entry =>
      obtain ⟨parts, valid, rfl⟩ := ldapGet_found_iff.mp found
      simp [UserSource.rwindow, valid.rwindow, LdapParts.user]

theorem UserSource.get_rwindow {config : Config} {source : UserSource} {user : User}
    (returned : source.get config = some (.found user)) : user.rwindowSize = source.rwindow := by
  cases source with
  | file options passwd username => exact fileGet_rwindow (Option.some.inj returned)
  | ldap search memory now => exact ldapGet_rwindow returned

/-! ## The window searched -/

/-- `eend` before it is converted to `int`. -/
def searchedWindow (config : Config) (rwindow : UInt32) : UInt32 :=
  if rwindow ≠ 0 then rwindow
  else if config.rwindowSize ≠ 0 then config.rwindowSize
  else config.ewindowSize

theorem eendOf_searched {config : Config} {user : User}
    (event : hasFeature user.featuremask otpCfEs = true)
    (noFrw : hasFeature user.featuremask otpCfFrw = false) :
    eendOf config user = (searchedWindow config user.rwindowSize).toInt32.toInt := by
  simp only [eendOf, event, noFrw, Bool.false_eq_true, if_false, if_true, searchedWindow]
  split
  · rfl
  · split
    · rfl
    · rfl

/-- `config_init` keeps a resync window only if it covers the event window. -/
theorem configInit_covers (config : Config) (settings : WindowSettings) :
    (configInit config settings).ewindowSize ≤
      searchedWindow (configInit config settings) 0 := by
  have covers : ∀ e r : UInt32, e ≤ if (if r ≠ 0 ∧ r < e then 0 else r) ≠ 0 then
      (if r ≠ 0 ∧ r < e then 0 else r) else e := by
    intro e r
    by_cases small : r ≠ 0 ∧ r < e
    · simp [if_pos small]
    · rw [if_neg small]
      split
      · rename_i positive
        exact UInt32.not_lt.mp fun less => small ⟨positive, less⟩
      · exact UInt32.le_refl _
  simp only [searchedWindow, ne_eq, not_true_eq_false, if_false]
  exact covers _ _

def TriesNormalWindow (config : Config) (user : User) (featuremask : UInt32) : Prop :=
  ∀ e ≤ config.ewindowSize.toNat,
    (0, e) ∈ windowPositions 0 (eendOf config { user with featuremask := featuremask })

/-- Outside any fail condition, the passcode of a position in the normal window is
accepted. -/
def AcceptsNormalWindow (config : Config) (user : User) : Prop :=
  ∀ (crypto : Crypto) (store : Store) (call : Call) (p : Prepared) (resolved : State) (e : Nat)
    (passcode : List Byte), call.config = config → call.env.get = .found user →
    ReachesWindow crypto store call p resolved →
    failCondition config call.env.undef resolved call.env.now = .none →
    resolved.authtime < call.env.now.toU32 → e ≤ config.ewindowSize.toNat →
    (∀ k < e, windowPasscode call p resolved k ≠ none) →
    windowPasscode call p resolved e = some passcode →
    compare crypto call.request passcode = true → (serve crypto store call).1.rc = .ok

theorem mem_windowPositions {e : Nat} {eend : Int} :
    (0, e) ∈ windowPositions 0 eend ↔ (e : Int) ≤ eend := by
  rw [windowPositions_zero, List.mem_map]
  constructor
  · rintro ⟨k, member, same⟩
    cases same
    rw [List.mem_range'_1] at member
    omega
  · intro inside
    exact ⟨e, List.mem_range'_1.mpr (by omega), rfl⟩

section Normal

variable {config : Config} {user : User} {featuremask : UInt32}

theorem triesNormalWindow_iff (event : hasFeature featuremask otpCfEs = true)
    (noFrw : hasFeature featuremask otpCfFrw = false) :
    TriesNormalWindow config user featuremask ↔
      config.ewindowSize ≤ searchedWindow config user.rwindowSize ∧
        (searchedWindow config user.rwindowSize).toNat < 2 ^ 31 := by
  have eend : eendOf config { user with featuremask := featuremask } =
      (searchedWindow config user.rwindowSize).toInt32.toInt := eendOf_searched event noFrw
  have value := toInt32_toInt (searchedWindow config user.rwindowSize)
  simp only [TriesNormalWindow, mem_windowPositions, eend, UInt32.le_iff_toNat_le]
  constructor
  · intro tried
    have last := tried config.ewindowSize.toNat (Nat.le_refl _)
    have := (searchedWindow config user.rwindowSize).toNat_lt
    rw [value] at last
    split at last
    · omega
    · omega
  · rintro ⟨covers, small⟩ e inside
    rw [value, if_pos small]
    omega

theorem acceptsNormalWindow {m : CardModule} (card : cardOf user.card = some m)
    (mask : lookupCard m.table user.card = some featuremask)
    (event : hasFeature featuremask otpCfEs = true)
    (covers : config.ewindowSize ≤ searchedWindow config user.rwindowSize)
    (small : (searchedWindow config user.rwindowSize).toNat < 2 ^ 31) :
    AcceptsNormalWindow config user := by
  intro crypto store call p resolved e passcode same got reaches healthy later inside computed
    expected equal
  subst same
  obtain ⟨user', got', -, ops, name, window⟩ := prepare_ok reaches.prepared
  cases got.symm.trans got'
  rw [findCardops_cardOf, card, Option.map_some] at ops
  rw [← Option.some.inj ops, m.name2fm_eq, mask] at name
  have sameMask := Option.some.inj name
  have noFrw := m.masks_noFrw featuremask (lookupCard_mem mask)
  have eend : eendOf call.config p.user =
      ((searchedWindow call.config user.rwindowSize).toNat : Int) := by
    rw [eendOf_searched (by rw [← sameMask]; exact event) (by rw [← sameMask]; exact noFrw), window,
      toInt32_toInt, if_pos small]
  rw [UInt32.le_iff_toNat_le] at covers
  refine reaches.accepts healthy later (e := e) ?_ ?_ computed expected equal
  · rw [toInt32_toInt, if_pos (by omega)]
    omega
  · rw [eend]
    omega

end Normal

/-- The normal window is searched, and its passcodes accepted, exactly when the
temporary window in force is at least as large and the window searched fits an `int`. -/
theorem normal_window_iff (base : Config) (settings : WindowSettings) (source : UserSource)
    (user : User) (m : CardModule) (featuremask : UInt32)
    (returned : source.get (configInit base settings) = some (.found user))
    (card : cardOf user.card = some m) (mask : lookupCard m.table user.card = some featuremask)
    (event : hasFeature featuremask otpCfEs = true) :
    (TriesNormalWindow (configInit base settings) user featuremask ∧
      AcceptsNormalWindow (configInit base settings) user) ↔
    (source.rwindow = 0 ∨ (configInit base settings).ewindowSize ≤ source.rwindow) ∧
      (searchedWindow (configInit base settings) source.rwindow).toNat < 2 ^ 31 := by
  have window := UserSource.get_rwindow returned
  have noFrw := m.masks_noFrw featuremask (lookupCard_mem mask)
  have covers : (configInit base settings).ewindowSize ≤
      searchedWindow (configInit base settings) source.rwindow ↔
      (source.rwindow = 0 ∨ (configInit base settings).ewindowSize ≤ source.rwindow) := by
    by_cases none : source.rwindow = 0
    · rw [none]
      simp only [true_or, iff_true]
      exact configInit_covers base settings
    · simp [searchedWindow, none]
  rw [triesNormalWindow_iff event noFrw, window, covers]
  constructor
  · exact fun both => both.1
  · rintro ⟨covered, small⟩
    refine ⟨⟨covered, small⟩, acceptsNormalWindow card mask event ?_ ?_⟩
    · rw [window]
      exact covers.mpr covered
    · rw [window]
      exact small

deriving instance DecidableEq for UserGet

/-- `bob` in the directory, with a temporary window until 2000000000. -/
def windowEntry (rwindow : String) : LdapEntry where
  otpVendor := some (ascii "hotp")
  otpModel := some (ascii "d6")
  otpKey1 := some (ascii "3132333435363738393031323334353637383930")
  otpIPIN := none
  otpPIN := none
  otpTimeIssued := none
  otpStateLocationHint := none
  otpKeyEncryption := none
  otpTmpStaticPassword := none
  otpTmpStaticPasswordExpiry := none
  otpTmpRWindow := some (ascii rwindow)
  otpTmpRWindowExpiry := some (ascii "2000000000")

def windowSource (rwindow : String) : UserSource :=
  .ldap (.entry (windowEntry rwindow)) ⟨Buffer.zero 20, []⟩ 1000

def shippedConfig : Config := configInit defaultConfig ⟨[], []⟩

theorem normal_window_ten :
    TriesNormalWindow shippedConfig { hmacUser "hotp-d6" with rwindowSize := 10 }
        (otpCfEs ||| hotpCfLen6) ∧
      AcceptsNormalWindow shippedConfig { hmacUser "hotp-d6" with rwindowSize := 10 } :=
  (normal_window_iff defaultConfig ⟨[], []⟩ (windowSource "10")
    { hmacUser "hotp-d6" with rwindowSize := 10 } .hotp (otpCfEs ||| hotpCfLen6)
    (by decide +kernel) (by decide +kernel) (by decide +kernel) (by decide +kernel)).mpr
    ⟨by decide +kernel, by decide +kernel⟩

/-- A temporary window of 3: the passcode of position 4 is refused. -/
theorem normal_window_cut :
    (windowSource "3").get shippedConfig =
        some (.found { hmacUser "hotp-d6" with rwindowSize := 3 }) ∧
      ¬ TriesNormalWindow shippedConfig { hmacUser "hotp-d6" with rwindowSize := 3 }
        (otpCfEs ||| hotpCfLen6) ∧
      (serve sampleCrypto (stateLine "5:bob:0000000000000000:::0:0:0:")
        { papCall { hmacUser "hotp-d6" with rwindowSize := 10 } "254676" 1000 with
          config := shippedConfig }).1.rc = .ok ∧
      (serve sampleCrypto (stateLine "5:bob:0000000000000000:::0:0:0:")
        { papCall { hmacUser "hotp-d6" with rwindowSize := 3 } "254676" 1000 with
          config := shippedConfig }).1.rc = .authErr := by
  refine ⟨by decide +kernel, ?_, by decide +kernel, by decide +kernel⟩
  intro tried
  have missing := tried 4 (by decide +kernel)
  revert missing
  decide +kernel

end Otpd
