import Otpd.Prepare
import Otpd.Replay
import Otpd.Window

/-!
# Two runs with different challenges

The local `challenge` of `verify` holds what the stack held, then the request's
challenge over it, and then the first `clen` bytes of the stored one.  `Agrees` is
what two runs that differ in the first two have in common at every window position.
-/

set_option autoImplicit false

namespace Otpd

open CMem

def Request.withChallenge (request : Request) (challenge : CString 16) : Request :=
  { request with challenge := challenge }

/-- Another initial content of the local `challenge`. -/
def Env.withLocal (env : Env) (initial : Buffer 16) : Env :=
  { env with undef := { env.undef with challenge := initial } }

def Call.withChallenge (call : Call) (challenge : CString 16) (initial : Buffer 16) : Call :=
  ⟨call.config, call.request.withChallenge challenge, call.env.withLocal initial⟩

section Same

variable (crypto : Crypto) (config : Config) (request : Request) (env : Env)
  (challenge : CString 16) (initial : Buffer 16)

@[simp]
theorem withLocal_now : (env.withLocal initial).now = env.now := rfl

@[simp]
theorem withLocal_clock : (env.withLocal initial).clock = env.clock := rfl

theorem cardops_withLocal :
    cardops crypto (env.withLocal initial).undef = cardops crypto env.undef := rfl

theorem compare_withChallenge (passcode : List Byte) :
    compare crypto (request.withChallenge challenge) passcode = compare crypto request passcode :=
  rfl

theorem prepare_withChallenge (mods : List CardOps) :
    prepare crypto mods config (request.withChallenge challenge) (env.withLocal initial) =
      prepare crypto mods config request env := rfl

theorem failCondition_withLocal (state : State) (now : Time) :
    failCondition config (env.withLocal initial).undef state now =
      failCondition config env.undef state now := rfl

end Same

/-! ## What a card module reads -/

theorem nextCounter_congr {a b : Buffer 16} (same : b.bytes.take 8 = a.bytes.take 8) :
    nextCounter b = nextCounter a := by
  have entry : ∀ i < 8, b.get i = a.get i := by
    intro i inside
    have byte := congrArg (fun bytes => bytes.getD i 0) same
    simpa [Buffer.get, List.getD, List.getElem?_take, inside] using byte
  simp only [nextCounter, entry 0 (by decide), entry 1 (by decide), entry 2 (by decide),
    entry 3 (by decide), entry 4 (by decide), entry 5 (by decide), entry 6 (by decide),
    entry 7 (by decide)]

namespace CardModule

variable (crypto : Crypto) (undef : Undef) (m : CardModule)

/-- How much of the local `challenge` a response depends on.  A five-digit HOTP card
gets none. -/
def reads (m : CardModule) (user : User) (data : CardData) : Nat :=
  match m with
  | .hotp => if otpLenOf user.featuremask < 6 then 0 else 8
  | _ => data.clen

theorem copy_eight (a b : Buffer 16) {stored : List Byte} (size : stored.length = 8) :
    (b.copy stored).bytes.take 8 = (a.copy stored).bytes.take 8 := by
  rw [Buffer.copy_take_of_eq b (by decide) size, Buffer.copy_take_of_eq a (by decide) size]

theorem challenge_agrees (user : User) (data : CardData) {a b : Buffer 16} (now : Time) (t e : Nat)
    (same : b.bytes.take (m.reads user data) = a.bytes.take (m.reads user data)) :
    ((m.ops crypto undef).challenge user data b now t e).1 =
        ((m.ops crypto undef).challenge user data a now t e).1 ∧
      ((m.ops crypto undef).challenge user data b now t e).2.1 =
        ((m.ops crypto undef).challenge user data a now t e).2.1 ∧
      ((m.ops crypto undef).challenge user data b now t e).2.2.bytes.take
          (m.reads user ((m.ops crypto undef).challenge user data a now t e).2.1) =
        ((m.ops crypto undef).challenge user data a now t e).2.2.bytes.take
          (m.reads user ((m.ops crypto undef).challenge user data a now t e).2.1) := by
  cases m with
  | c200 => exact ⟨rfl, rfl, same⟩
  | totp => exact ⟨rfl, rfl, same⟩
  | x99 => exact ⟨rfl, rfl, same⟩
  | hotp =>
      simp only [ops, hotpCardops, hotpChallenge_eq, reads] at same ⊢
      refine ⟨trivial, trivial, ?_⟩
      by_cases short : otpLenOf user.featuremask < 6
      · rw [if_pos short, List.take_zero, List.take_zero]
      · rw [if_neg short] at same ⊢
        rw [nextCounter_congr same]
        exact copy_eight a b rfl
  | cryptocard =>
      simp only [reads] at same ⊢
      simp only [ops, cryptocardCardops, cryptocardChallenge, same]
      cases mac : x99Mac crypto undef (a.bytes.take data.clen) (user.key.take 8) with
      | none => exact ⟨rfl, rfl, same⟩
      | some output =>
          have size : (output.bytes.map macDigit).length = 8 := by
            rw [List.length_map, output.size]
          exact ⟨rfl, rfl, copy_eight a b size⟩

theorem response_agrees (user : User) (data : CardData) {a b : Buffer 16} (clock : Time)
    (same : b.bytes.take (m.reads user data) = a.bytes.take (m.reads user data)) :
    (m.ops crypto undef).response user data b data.clen clock =
      (m.ops crypto undef).response user data a data.clen clock := by
  cases m with
  | c200 => rfl
  | totp => rfl
  | hotp =>
      simp only [reads] at same
      by_cases short : otpLenOf user.featuremask < 6
      · simp only [ops, hotpCardops, hotpResponse, hotpMac, short, true_or, if_true]
      · rw [if_neg short] at same
        simp only [ops, hotpCardops, hotpResponse, same]
  | x99 =>
      simp only [reads] at same
      simp only [ops, x99Cardops, x99Response, same]
  | cryptocard =>
      simp only [reads] at same
      simp only [ops, cryptocardCardops, cryptocardResponse, same]

/-- Where there is a response, it depends on the bytes that are to be stored. -/
theorem answered_reads {user : User} {data : CardData} {challenge : Buffer 16} {len : Nat}
    {clock : Time} {response : List Byte}
    (answered : (m.ops crypto undef).response user (m.stepped data) challenge len clock =
      some response) : ((m.stepped data).clen : Nat) ≤ m.reads user (m.stepped data) := by
  cases m with
  | c200 => exact Nat.le_refl _
  | totp => exact Nat.le_refl _
  | x99 => exact Nat.le_refl _
  | cryptocard => exact Nat.le_refl _
  | hotp =>
      have long : ¬ otpLenOf user.featuremask < 6 := by
        intro short
        simp [ops, hotpCardops, hotpResponse, hotpMac, short] at answered
      simp only [reads, if_neg long]
      exact Nat.le_refl _

end CardModule

/-! ## The sync window of both runs -/

structure Agrees (m : CardModule) (user : User) (l l' : Locals) : Prop where
  state : l'.state = l.state
  resync : l'.resync = l.resync
  bytes : l'.challenge.bytes.take (m.reads user l.state.toCardData) =
    l.challenge.bytes.take (m.reads user l.state.toCardData)

/-- Nothing that `verify` does from here on tells the two runs apart. -/
structure SameEnd (now : Time) (ending ending' : Label × Locals) : Prop where
  label : ending'.1 = ending.1
  rc : ending'.2.rc = ending.2.rc
  state : ending'.2.state = ending.2.state
  written : authDone now ending'.2 = authDone now ending.2

section Window

variable {crypto : Crypto} {config : Config} {request : Request} {env : Env} {p : Prepared}
  {m : CardModule} {fc : Fc} {l l' : Locals}

theorem SameEnd.failed {now : Time} {label : Label} (rc : Rc) (state : l'.state = l.state)
    (first : l.rc = rc) (second : l'.rc = rc) (failed : rc ≠ .ok) :
    SameEnd now (label, l) (label, l') := by
  refine ⟨rfl, second.trans first.symm, state, ?_⟩
  simp only [authDone, first, second, state, if_neg failed]

theorem syncMatch_agrees (runs : p.ops = m.ops crypto env.undef) (initial : Buffer 16) (t e : Nat)
    (agrees : Agrees m p.user l l') (covered : (l.state.clen : Nat) ≤ m.reads p.user l.state.toCardData) :
    SameEnd env.now (syncMatch config env p fc t e l)
      (syncMatch config (env.withLocal initial) p fc t e l') := by
  have stored : l'.challenge.bytes.take l.state.clen = l.challenge.bytes.take l.state.clen := by
    have shorter := congrArg (List.take l.state.clen) agrees.bytes
    simpa [List.take_take, Nat.min_eq_left covered] using shorter
  simp only [syncMatch, Env.withLocal, agrees.state]
  cases updated : p.ops.updatecsd l.state.toCardData env.now t e
      (syncRc config p fc l.state env.now e) with
  | none => exact .failed .serviceErr rfl rfl rfl (by decide)
  | some after =>
      rw [runs] at updated
      have kept : after.clen = l.state.clen := by
        rw [m.updatecsd_data crypto env.undef updated]
        exact (m.recorded_fields l.state.toCardData _ e).1
      refine ⟨rfl, rfl, rfl, ?_⟩
      simp only [authDone, kept, stored]

theorem syncLoop_agrees (runs : p.ops = m.ops crypto env.undef) (challenge : CString 16)
    (initial : Buffer 16) : ∀ (positions : List (Nat × Nat)) (l l' : Locals), Agrees m p.user l l' →
      SameEnd env.now (syncLoop crypto config request env p fc positions l)
        (syncLoop crypto config (request.withChallenge challenge) (env.withLocal initial) p fc
          positions l') := by
  intro positions
  induction positions with
  | nil =>
      intro l l' agrees
      exact .failed .authErr agrees.state rfl rfl (by decide)
  | cons position rest ih =>
      intro l l' agrees
      obtain ⟨t, e⟩ := position
      obtain ⟨sameRc, sameData, sameBytes⟩ := m.challenge_agrees crypto env.undef p.user
        l.state.toCardData env.now t e agrees.bytes
      have known : (p.ops.challenge p.user l.state.toCardData l.challenge env.now t e).1 ≠ .error →
          (p.ops.challenge p.user l.state.toCardData l.challenge env.now t e).2.1 =
            m.stepped l.state.toCardData := by
        rw [runs]
        exact m.challenge_data crypto env.undef
      rw [← runs] at sameRc sameData sameBytes
      simp only [syncLoop, agrees.state, withLocal_now, withLocal_clock, compare_withChallenge]
      generalize p.ops.challenge p.user l.state.toCardData l.challenge env.now t e = step at *
      generalize p.ops.challenge p.user l.state.toCardData l'.challenge env.now t e = step' at *
      obtain ⟨rc, data, after⟩ := step
      obtain ⟨rc', data', after'⟩ := step'
      dsimp only at sameRc sameData sameBytes known ⊢
      subst sameRc sameData
      cases rc' with
      | error => exact .failed .serviceErr rfl rfl rfl (by decide)
      | early => exact ih _ _ ⟨rfl, agrees.resync, sameBytes⟩
      | ok =>
          have answered := m.response_agrees crypto env.undef p.user data' (env.clock t e) sameBytes
          rw [← runs] at answered
          dsimp only
          rw [answered]
          cases given : p.ops.response p.user data' after data'.clen (env.clock t e) with
          | none => exact .failed .serviceErr rfl rfl rfl (by decide)
          | some response =>
              dsimp only
              by_cases equal : compare crypto request (expectedPasscode config p.user response) = true
              · rw [if_pos equal, if_pos equal]
                refine syncMatch_agrees runs initial t e ⟨rfl, agrees.resync, sameBytes⟩ ?_
                rw [runs, known (by decide)] at given
                rw [known (by decide)]
                exact m.answered_reads crypto env.undef given
              · rw [if_neg equal, if_neg equal]
                exact ih _ _ ⟨rfl, agrees.resync, sameBytes⟩

theorem copy_take_le (a b : Buffer 16) {stored : List Byte} {k : Nat} (fits : stored.length ≤ 16)
    (short : k ≤ stored.length) :
    (b.copy stored).bytes.take k = (a.copy stored).bytes.take k := by
  rw [Buffer.copy_bytes b stored fits, Buffer.copy_bytes a stored fits,
    List.take_append_of_le_length short, List.take_append_of_le_length short]

theorem syncAuth_agrees (runs : p.ops = m.ops crypto env.undef) (state : l'.state = l.state)
    (resync : l'.resync = l.resync) (covered : m.reads p.user l.state.toCardData ≤ l.state.clen)
    (challenge : CString 16) (initial : Buffer 16) :
    SameEnd env.now (syncAuth crypto config request env p fc l)
      (syncAuth crypto config (request.withChallenge challenge) (env.withLocal initial) p fc l') := by
  by_cases on : hasFeature p.user.featuremask otpCfSm = true ∧ request.allowSync = true
  · have on' : hasFeature p.user.featuremask otpCfSm = true ∧
        (request.withChallenge challenge).allowSync = true := on
    have twins : p.ops.maxtwin p.user l.state.toCardData env.now = 0 := by
      rw [runs]
      exact m.maxtwin_eq crypto env.undef p.user l.state.toCardData env.now
    have size : (l.state.challenge.bytes.take l.state.clen).length = l.state.clen := by
      have := l.state.clen.isLt
      rw [List.length_take, l.state.challenge.size]
      omega
    simp only [syncAuth, if_pos on, if_pos on', state, withLocal_now, twins, Int.lt_irrefl, if_false]
    refine syncLoop_agrees runs challenge initial _ _ _ ⟨rfl, resync, ?_⟩
    exact copy_take_le _ _ (by rw [size]; omega) (by rw [size]; exact covered)
  · have off : ¬ (hasFeature p.user.featuremask otpCfSm = true ∧
        (request.withChallenge challenge).allowSync = true) := on
    simp only [syncAuth, if_neg on, if_neg off]
    exact .failed .authErr state rfl rfl (by decide)

theorem authenticate_agrees {state : State} (runs : p.ops = m.ops crypto env.undef)
    (noAsync : hasFeature p.user.featuremask otpCfAm = false)
    (covered : ∀ resolved, resolveNullstate p state env.now = some resolved →
      m.reads p.user resolved.toCardData ≤ resolved.clen) (challenge : CString 16) (initial : Buffer 16) :
    SameEnd env.now (authenticate crypto config request env p state)
      (authenticate crypto config (request.withChallenge challenge) (env.withLocal initial) p
        state) := by
  have neither : ∀ other : Request, ¬ asyncPossible other p.user = true := by
    intro other
    simp [asyncPossible, noAsync]
  simp only [authenticate, withLocal_now]
  cases found : resolveNullstate p state env.now with
  | none => exact .failed .serviceErr rfl rfl rfl (by decide)
  | some resolved =>
      dsimp only
      by_cases late : config.timeout - env.hrGet - env.hrState < 250000000
      · have late' : config.timeout - (env.withLocal initial).hrGet -
            (env.withLocal initial).hrState < 250000000 := late
        rw [if_pos late, if_pos late']
        exact .failed .serviceErr rfl rfl rfl (by decide)
      · have late' : ¬ config.timeout - (env.withLocal initial).hrGet -
            (env.withLocal initial).hrState < 250000000 := late
        rw [if_neg late, if_neg late', failCondition_withLocal]
        simp only [responses, if_neg (neither _)]
        refine syncAuth_agrees runs ?_ ?_ ?_ challenge initial
        · rfl
        · rfl
        · exact covered resolved found

/-- An exit before any state was loaded. -/
theorem SameEnd.unloaded (label : Label) (rc : Rc) (challenge : CString 16) (initial : Buffer 16) :
    SameEnd env.now (label, Locals.start request env rc State.init)
      (label, Locals.start (request.withChallenge challenge) (env.withLocal initial) rc State.init) :=
  ⟨rfl, rfl, rfl, rfl⟩

theorem SameEnd.finish {store : Store} {events : List Event} {ending ending' : Label × Locals}
    (same : SameEnd env.now ending ending') (challenge : CString 16) (initial : Buffer 16) :
    (finish config (request.withChallenge challenge) (env.withLocal initial) store events
        ending'.1 ending'.2).rc =
        (finish config request env store events ending.1 ending.2).rc ∧
      (finish config (request.withChallenge challenge) (env.withLocal initial) store events
        ending'.1 ending'.2).store =
        (finish config request env store events ending.1 ending.2).store := by
  have username : (request.withChallenge challenge).username = request.username := rfl
  have io : (env.withLocal initial).io = env.io := rfl
  simp only [Otpd.finish, withLocal_now, same.label, same.rc, same.state, same.written, username, io,
    apply_ite Outcome.rc, apply_ite Outcome.store, and_self]

end Window

/-! ## Both calls -/

section Calls

variable {crypto : Crypto} {store : Store} {call : Call}

/-- The reply code and the persisted state are those of a run with another challenge in
the request and other contents of the local `challenge` at the start. -/
def SameReply (crypto : Crypto) (store : Store) (call : Call) (challenge : CString 16)
    (initial : Buffer 16) : Prop :=
  (serve crypto store (call.withChallenge challenge initial)).1.rc =
      (serve crypto store call).1.rc ∧
    (serve crypto store (call.withChallenge challenge initial)).1.store =
      (serve crypto store call).1.store

theorem serve_agrees (covered : ∀ p state, prepareCall crypto call = .ok p →
      (stateGet call.config call.request.username call.env.io store p.state).1 = some state →
      hasFeature p.user.featuremask otpCfAm = false ∧
        ∃ m : CardModule, p.ops = m.ops crypto call.env.undef ∧
          ∀ resolved, resolveNullstate p state call.env.now = some resolved →
            m.reads p.user resolved.toCardData ≤ resolved.clen)
    (challenge : CString 16) (initial : Buffer 16) :
    SameReply crypto store call challenge initial := by
  have username : (call.request.withChallenge challenge).username = call.request.username := rfl
  have io : (call.env.withLocal initial).io = call.env.io := rfl
  simp only [SameReply, serve, verify, Call.withChallenge, cardops_withLocal, prepare_withChallenge,
    username, io]
  cases prepared : prepare crypto (cardops crypto call.env.undef) call.config call.request
      call.env with
  | error exit =>
      exact (SameEnd.unloaded exit.label exit.rc challenge initial).finish challenge initial
  | ok p =>
      simp only
      cases got : (stateGet call.config call.request.username call.env.io store p.state).1 with
      | none =>
          rw [Prepared.state] at got
          simp only [got]
          exact (SameEnd.unloaded .serviceErr .serviceErr challenge initial).finish challenge initial
      | some state =>
          obtain ⟨noAsync, m, runs, enough⟩ := covered p state prepared got
          rw [Prepared.state] at got
          simp only [got]
          exact (authenticate_agrees runs noAsync enough challenge initial).finish challenge initial

end Calls

/-! ## Which stored challenges are long enough -/

/-- For all users with this card, whatever else a call observes. -/
def IgnoresChallenge (mode : StateMode) (username : Username) (store : Store) (card : List Byte) :
    Prop :=
  ∀ (crypto : Crypto) (call : Call) (user : User) (challenge : CString 16) (initial : Buffer 16),
    call.config.stateMode = mode → call.request.username = username →
    call.env.get = .found user → user.card = card → SameReply crypto store call challenge initial

section Sufficient

variable {mode : StateMode} {username : Username} {store : Store} {card : List Byte}
  {m : CardModule} {featuremask : UInt32}

theorem ignoresChallenge_of_long (isCard : cardOf card = some m)
    (mask : lookupCard m.table card = some featuremask)
    (noAsync : hasFeature featuremask otpCfAm = false)
    (long : m = .hotp → 6 ≤ otpLenOf featuremask → ∀ record,
      recordIn mode username store = some record → 8 ≤ record.challenge.length) :
    IgnoresChallenge mode username store card := by
  intro crypto call user challenge initial sameMode sameUser got sameCard
  subst sameMode sameUser sameCard
  refine serve_agrees ?_ challenge initial
  intro p state prepared loaded
  obtain ⟨user', m', featuremask', key, got', -, isCard', mask', -, runs, opened, -⟩ :=
    prepareCall_iff.mp prepared
  cases got.symm.trans got'
  cases isCard.symm.trans isCard'
  cases mask.symm.trans mask'
  have sameMask : p.user.featuremask = featuremask := (decryptUser_fields opened).1
  refine ⟨by rw [sameMask]; exact noAsync, m, runs, ?_⟩
  intro resolved found
  obtain ⟨r, -, loads⟩ := stateGet_kept loaded
  have data := (loads.resolves runs found).data
  rw [data]
  cases m with
  | c200 => exact Nat.le_refl _
  | totp => exact Nat.le_refl _
  | x99 => exact Nat.le_refl _
  | cryptocard => exact Nat.le_refl _
  | hotp =>
      rcases (stateGet_loaded loaded).2 with ⟨record, stored, rfl⟩ | ⟨-, rfl⟩
      · simp only [CardModule.reads, sameMask]
        split
        · exact Nat.zero_le _
        · exact long rfl (by omega) record stored
      · simp [resolveNullstate, nullState, runs, CardModule.ops, hotpCardops, noNullstate] at found

end Sufficient

/-! ## A call that tells two short ones apart -/

theorem intToU64_parity (b0 b1 b2 b3 : Byte) :
    (intToU64 b0 b1 b2 b3).toNat % 2 = b3.toNat % 2 := by
  have packed := packWord_toNat b0 b1 b2 b3
  unfold intToU64
  generalize ((b0.toUInt32 <<< 24) ||| (b1.toUInt32 <<< 16) ||| (b2.toUInt32 <<< 8) |||
    b3.toUInt32) = word at packed ⊢
  have extended : word.toInt32.toInt64.toUInt64.toNat = (word.toBitVec.signExtend 64).toNat := rfl
  have narrow : word.toBitVec.toNat = word.toNat := rfl
  have small := word.toNat_lt
  rw [extended, BitVec.toNat_signExtend]
  simp only [BitVec.toNat_setWidth, narrow]
  rw [packed]
  simp only [beNat, List.foldl]
  split
  · omega
  · omega

theorem nextCounter_parity (challenge : Buffer 16) :
    (nextCounter challenge).toNat % 2 = ((challenge.get 7).toNat + 1) % 2 := by
  have low := intToU64_parity (challenge.get 4) (challenge.get 5) (challenge.get 6) (challenge.get 7)
  have even : ∀ x : UInt64, (x <<< 32).toNat % 2 = 0 := by
    intro x
    have shift : UInt64.toNat 32 % 64 = 32 := rfl
    rw [UInt64.toNat_shiftLeft, shift, Nat.shiftLeft_eq]
    omega
  have joined : ∀ x y : UInt64, ((x <<< 32) ||| y).toNat % 2 = y.toNat % 2 := by
    intro x y
    have parts := Nat.or_mod_two_pow (a := (x <<< 32).toNat) (b := y.toNat) (n := 1)
    rw [Nat.pow_one, even, Nat.zero_or] at parts
    rw [UInt64.toNat_or]
    exact parts
  have whole := joined (intToU64 (challenge.get 0) (challenge.get 1) (challenge.get 2)
    (challenge.get 3)) (intToU64 (challenge.get 4) (challenge.get 5) (challenge.get 6)
    (challenge.get 7))
  have one : (1 : UInt64).toNat = 1 := rfl
  rw [nextCounter, UInt64.toNat_add, one]
  omega

/-- A MAC by which only the given counter has the passcode 0. -/
def probeCrypto (counter : List Byte) : Crypto :=
  { sampleCrypto with
    hmac := fun _ given =>
      some (if given = counter then List.replicate 20 0 else 0 :: 0 :: 0 :: 1 :: List.replicate 16 0) }

theorem hotpMac_probe (counter given key : List Byte) {d : Nat} (least : 6 ≤ d) (most : d ≤ 9) :
    hotpMac (probeCrypto counter) given key d =
      some (printDec d (if given = counter then 0 else 1)) := by
  have digits : ¬ (d < 6 ∨ d > 9) := by omega
  by_cases same : given = counter
  · simp only [hotpMac, if_neg digits, probeCrypto, if_pos same]
    interval_cases d <;> decide +kernel
  · simp only [hotpMac, if_neg digits, probeCrypto, if_neg same]
    interval_cases d <;> decide +kernel

def probePasscode (d : Nat) : CString 47 where
  bytes := (List.replicate d 48).take 47
  bound := List.length_take_le 47 _
  noNul member := by
    have := List.eq_of_mem_replicate (List.mem_of_mem_take member)
    cases this

theorem probePasscode_bytes {d : Nat} (least : 6 ≤ d) (most : d ≤ 9) :
    (probePasscode d).bytes.length = d ∧ (probePasscode d).bytes = printDec d 0 ∧
      (probePasscode d).bytes ≠ printDec d 1 := by
  interval_cases d <;> decide +kernel

/-- An HOTP card with a stored challenge that is too short for a counter. -/
structure ShortCounter where
  mode : StateMode
  username : Username
  store : Store
  card : List Byte
  featuremask : UInt32
  record : StateRecord
  isCard : cardOf card = some .hotp
  mask : lookupCard hotpCard card = some featuremask
  digits : 6 ≤ otpLenOf featuremask
  stored : recordIn mode username store = some record
  short : record.challenge.length < 8

namespace ShortCounter

variable (s : ShortCounter) (crypto : Crypto) (counter : List Byte) (initial : Buffer 16)

def user : User := { hmacUser "" with card := s.card, rwindowSize := 0 }

/-- A user with this card, without PIN, and a window of one position. -/
def call : Call where
  config := { defaultConfig with
    softfail := 0, ewindowSize := 0, rwindowSize := 0, stateMode := s.mode }
  request := ⟨s.username, textOf 16 "", .pap (probePasscode (otpLenOf s.featuremask)), false, true, 0,
    true⟩
  env := (sampleEnv s.user 1000).withLocal initial

def prepared : Prepared where
  user := { s.user with featuremask := s.featuremask, key := rfcKey }
  ops := hotpCardops crypto
  scratch1 := 20

/-- What the only position of the window starts from. -/
def base : Buffer 16 := initial.copy s.record.challenge

theorem most : otpLenOf s.featuremask ≤ 9 := by
  have all : (CardModule.hotp.masks.all fun fm => decide (otpLenOf fm ≤ 9)) = true := by
    decide +kernel
  simpa using List.all_eq_true.mp all _ (lookupCard_mem s.mask)

theorem prepareCall_call : prepareCall crypto (s.call initial) = .ok (s.prepared crypto) := by
  have keyed : hmacKeystring2key (hmacUser "").keystring = some (rfcKey, 20) := by decide +kernel
  have inTime : ¬ defaultConfig.timeout - 0 < 500000000 := by decide
  refine prepareCall_iff.mpr ⟨s.user, .hotp, s.featuremask, rfcKey, rfl, rfl, s.isCard, s.mask, keyed, rfl,
    ?_, inTime⟩
  have fits : wrongLength (s.call initial).request (otpLenOf s.featuremask) 0 = false := by
    simp [wrongLength, call, (probePasscode_bytes s.digits s.most).1]
  have pinLen : pinLenOf s.user.pinstring = 0 := by
    simp [pinLenOf, a2x, a2nx, user, hmacUser]
  have decoded : decodedUser (s.call initial).env.undef s.user s.featuremask rfcKey =
      (s.prepared crypto).user := by
    simp [decodedUser, prepared, user, hmacUser, a2x, a2nx]
  have clear : (s.prepared crypto).user.encryptmode = .clear := rfl
  simp only [decryptUser, pinLen, decoded, clear, fits, Bool.false_eq_true, if_false]

theorem reaches : ∃ resolved, ReachesWindow crypto s.store (s.call initial) (s.prepared crypto) resolved ∧
    resolved.toCardData = (loadedState (s.prepared crypto).state s.record).toCardData := by
  have inTime : ¬ defaultConfig.timeout - 0 - 0 < 250000000 := by decide
  obtain ⟨resolved, found, data⟩ := resolveNullstate_loaded (s.prepared crypto)
    (loadedState (s.prepared crypto).state s.record) 1000 rfl
  refine ⟨resolved, ⟨s.prepareCall_call crypto initial, ⟨_, stateGet_stored s.stored rfl rfl, found⟩,
    inTime, ?_, ?_, rfl⟩, data⟩
  · simp only [syncPossible, Bool.and_eq_true]
    exact ⟨hotp_masks_sync (lookupCard_mem s.mask), rfl⟩
  · simp [asyncMatches, asyncPossible, call]

theorem base_seven : (s.base initial).get 7 = initial.get 7 := by
  have short := s.short
  simp only [Buffer.get, base, List.getD, Buffer.copy_bytes _ _ s.record.challengeBound]
  rw [List.getElem?_append_right (by omega), List.getElem?_drop]
  congr 2
  omega

theorem windowBase_call {resolved : State}
    (data : resolved.toCardData = (loadedState (s.prepared crypto).state s.record).toCardData) :
    windowBase (s.call initial).config (s.call initial).request (s.call initial).env
      (s.prepared crypto) resolved.toCardData = s.base initial := by
  have record := State.record_fill (s.prepared crypto).state s.record
  have stored : (loadedState (s.prepared crypto).state s.record).challenge.bytes.take
      (loadedState (s.prepared crypto).state s.record).clen = s.record.challenge :=
    congrArg StateRecord.challenge record
  have blank : initial.copy [] = initial := by
    ext1
    rw [Buffer.copy_bytes _ _ (Nat.zero_le _)]
    rfl
  have start : syncBase (s.call initial).config (s.call initial).request (s.call initial).env
      (s.prepared crypto) = initial.copy [] := by
    simp only [syncBase, asyncPossible, call]
    rfl
  rw [windowBase, data, stored, start, blank, base]

theorem passcode {resolved : State} (data : resolved.toCardData =
      (loadedState (s.prepared (probeCrypto counter)).state s.record).toCardData) :
    windowPasscode (s.call initial) (s.prepared (probeCrypto counter)) resolved 0 =
      some (printDec (otpLenOf s.featuremask)
        (if c2c (nextCounter (s.base initial)) = counter then 0 else 1)) := by
  have mask : (s.prepared (probeCrypto counter)).user.featuremask = s.featuremask := rfl
  have noPin : ∀ response, expectedPasscode (s.call initial).config
      (s.prepared (probeCrypto counter)).user response = response := fun _ => rfl
  have runs : (s.prepared (probeCrypto counter)).ops =
      CardModule.hotp.ops (probeCrypto counter) (s.call initial).env.undef := rfl
  rw [windowPasscode, passcodeAt_hotp runs, mask, hotpMac_probe counter _ _ s.digits s.most,
    Option.map_some, noPin, positionBefore, s.windowBase_call _ initial data]

theorem refused : (serve (probeCrypto counter) s.store (s.call initial)).1.rc = .authErr ↔
    c2c (nextCounter (s.base initial)) ≠ counter := by
  obtain ⟨resolved, reaches, data⟩ := s.reaches (probeCrypto counter) initial
  have only : eendOf (s.call initial).config (s.prepared (probeCrypto counter)).user = 0 := by
    obtain ⟨-, event⟩ := CardModule.hotp.masks_event (Or.inl rfl) _ (lookupCard_mem s.mask)
    have noFrw := CardModule.hotp.masks_noFrw _ (lookupCard_mem s.mask)
    simp [eendOf, prepared, call, user, event, noFrw]
  rw [reaches.single only (s.passcode counter initial data)]
  obtain ⟨-, zero, one⟩ := probePasscode_bytes s.digits s.most
  have given : (s.call initial).request.pwe = .pap (probePasscode (otpLenOf s.featuremask)) := rfl
  simp only [compare, given, beq_eq_false_iff_ne]
  by_cases same : c2c (nextCounter (s.base initial)) = counter
  · simp [same, zero]
  · simp [same, one]

end ShortCounter

/-- Reply and persisted state are independent of the request's challenge and of the
uninitialised buffer exactly for the other cards, and where the stored challenge fills an
HOTP counter. -/
theorem challenge_ignored_iff (mode : StateMode) (username : Username) (store : Store)
    (card : List Byte) (m : CardModule) (featuremask : UInt32) (isCard : cardOf card = some m)
    (mask : lookupCard m.table card = some featuremask)
    (noAsync : hasFeature featuremask otpCfAm = false) :
    IgnoresChallenge mode username store card ↔
      (m = .hotp → 6 ≤ otpLenOf featuremask → ∀ record,
        recordIn mode username store = some record → 8 ≤ record.challenge.length) := by
  constructor
  · rintro ignores rfl digits record stored
    by_contra tooShort
    let s : ShortCounter :=
      ⟨mode, username, store, card, featuremask, record, isCard, mask, digits, stored, by omega⟩
    let one : Buffer 16 := Buffer.ofList 16 [0, 0, 0, 0, 0, 0, 0, 1]
    -- the counter of the run that starts from zero bytes is the only one with this passcode
    let counter := c2c (nextCounter (s.base (Buffer.zero 16)))
    have same := ignores (probeCrypto counter) (s.call (Buffer.zero 16)) s.user (textOf 16 "") one
      rfl rfl rfl rfl
    have accepted := s.refused counter (Buffer.zero 16)
    have refused := s.refused counter one
    have differ : c2c (nextCounter (s.base one)) ≠ counter := by
      intro equal
      have numbers := congrArg beNat equal
      rw [(c2c_counter _).2, (c2c_counter _).2] at numbers
      have even := nextCounter_parity (s.base one)
      have odd := nextCounter_parity (s.base (Buffer.zero 16))
      rw [s.base_seven] at even odd
      rw [numbers, odd] at even
      revert even
      decide
    have rc : (serve (probeCrypto counter) store (s.call one)).1.rc =
        (serve (probeCrypto counter) store (s.call (Buffer.zero 16))).1.rc := same.1
    exact accepted.mp (rc ▸ refused.mpr differ) rfl
  · exact ignoresChallenge_of_long isCard mask noAsync

/-- Eight stored bytes. -/
theorem challenge_ignored_rfc :
    IgnoresChallenge .localMode bob (stateLine "5:bob:0000000000000000:::0:0:0:")
      (ascii "hotp-d6") :=
  (challenge_ignored_iff .localMode bob (stateLine "5:bob:0000000000000000:::0:0:0:")
    (ascii "hotp-d6") .hotp (otpCfEs ||| hotpCfLen6) (by decide +kernel) (by decide +kernel)
    (by decide +kernel)).mpr (by
      intro _ _ record stored
      have known : recordIn .localMode bob (stateLine "5:bob:0000000000000000:::0:0:0:") =
          some ⟨List.replicate 8 0, by decide, StateField.empty 63, StateField.empty 31, 0, 0, 0⟩ := by
        decide +kernel
      cases known.symm.trans stored
      decide)

/-- The blank challenge of the README: a correct passcode is accepted or not by what
the stack holds. -/
theorem challenge_matters_blank :
    (recordIn .localMode bob (stateLine "5:bob::::0:0:0:")).isSome = true ∧
      (serve sampleCrypto (stateLine "5:bob::::0:0:0:")
        (papCall (hmacUser "hotp-d6") "287082" 1000)).1.rc = .ok ∧
      (serve sampleCrypto (stateLine "5:bob::::0:0:0:")
        ((papCall (hmacUser "hotp-d6") "287082" 1000).withChallenge (textOf 16 "")
          (Buffer.ofList 16 [0, 0, 0, 0, 0, 0, 0, 1]))).1.rc = .authErr ∧
      ¬ IgnoresChallenge .localMode bob (stateLine "5:bob::::0:0:0:") (ascii "hotp-d6") := by
  have accepted : (serve sampleCrypto (stateLine "5:bob::::0:0:0:")
      (papCall (hmacUser "hotp-d6") "287082" 1000)).1.rc = .ok := by
    decide +kernel
  have refused : (serve sampleCrypto (stateLine "5:bob::::0:0:0:")
      ((papCall (hmacUser "hotp-d6") "287082" 1000).withChallenge (textOf 16 "")
        (Buffer.ofList 16 [0, 0, 0, 0, 0, 0, 0, 1]))).1.rc = .authErr := by
    decide +kernel
  refine ⟨by decide +kernel, accepted, refused, ?_⟩
  intro ignores
  have same := (ignores sampleCrypto (papCall (hmacUser "hotp-d6") "287082" 1000)
    (hmacUser "hotp-d6") (textOf 16 "") (Buffer.ofList 16 [0, 0, 0, 0, 0, 0, 0, 1]) rfl rfl rfl
    rfl).1
  rw [accepted, refused] at same
  cases same

end Otpd
