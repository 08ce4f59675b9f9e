import Otpd.Lib.Bytes

/-!
# Little-endian words

32-bit words as they lie in a byte string, low byte first.  `leWord` reads up to
four bytes and zero-extends, `leBytes` writes four; the two are inverse to each
other, and an exclusive or may be taken on either side.
-/

set_option autoImplicit false

namespace CMem

/-! ## Arrays of words -/

/-- `uint32_t[n]`. -/
@[ext]
structure Words (n : Nat) where
  words : List UInt32
  size : words.length = n

namespace Words
variable {n : Nat}

def get (array : Words n) (i : Nat) : UInt32 := array.words.getD i 0

def set (array : Words n) (i : Nat) (w : UInt32) : Words n :=
  ⟨array.words.set i w, List.length_set.trans array.size⟩

def ofFn (f : Fin n → UInt32) : Words n := ⟨List.ofFn f, List.length_ofFn⟩

def zero (n : Nat) : Words n := ofFn fun _ => 0

end Words

/-! ## Bytes of a word -/

def leBytes (w : UInt32) : List Byte :=
  [w.toUInt8, (w >>> 8).toUInt8, (w >>> 16).toUInt8, (w >>> 24).toUInt8]

def leWord (bytes : List Byte) : UInt32 :=
  (bytes.getD 0 0).toUInt32 ||| ((bytes.getD 1 0).toUInt32 <<< 8) |||
    ((bytes.getD 2 0).toUInt32 <<< 16) ||| ((bytes.getD 3 0).toUInt32 <<< 24)

def xorBytes (a b : List Byte) : List Byte := List.zipWith (· ^^^ ·) a b

@[simp]
theorem leBytes_length (w : UInt32) : (leBytes w).length = 4 := rfl

theorem leBytes_packed (b0 b1 b2 b3 : Byte) :
    leBytes (b0.toUInt32 ||| (b1.toUInt32 <<< 8) ||| (b2.toUInt32 <<< 16) |||
      (b3.toUInt32 <<< 24)) = [b0, b1, b2, b3] := by
  simp only [leBytes, List.cons.injEq, and_true]
  refine ⟨?_, ?_, ?_, ?_⟩ <;>
    · apply UInt8.toBitVec_inj.mp
      apply BitVec.eq_of_getLsbD_eq
      intro i inside
      interval_cases i <;> simp

theorem leWord_leBytes (w : UInt32) : leWord (leBytes w) = w := by
  simp only [leWord, leBytes, List.getD_cons_zero, List.getD_cons_succ]
  apply UInt32.toBitVec_inj.mp
  apply BitVec.eq_of_getLsbD_eq
  intro i inside
  interval_cases i <;> simp [-UInt32.toUInt32_toUInt8]

/-- A short string is zero-extended, and the written word starts with it. -/
theorem leBytes_leWord (bytes : List Byte) (short : bytes.length ≤ 4) :
    (leBytes (leWord bytes)).take bytes.length = bytes := by
  rw [leWord, leBytes_packed]
  match bytes, short with
  | [], _ => rfl
  | [_], _ => rfl
  | [_, _], _ => rfl
  | [_, _, _], _ => rfl
  | [_, _, _, _], _ => rfl

theorem leBytes_xor (a b : UInt32) : leBytes (a ^^^ b) = xorBytes (leBytes a) (leBytes b) := by
  simp only [leBytes, xorBytes, List.zipWith_cons_cons, List.zipWith_nil_left,
    UInt32.toUInt8_xor, UInt32.shiftRight_xor]

/-! ## Exclusive or of strings -/

@[simp]
theorem xorBytes_length (a b : List Byte) : (xorBytes a b).length = min a.length b.length :=
  List.length_zipWith

theorem xorBytes_cancel (data key : List Byte) (covered : data.length ≤ key.length) :
    xorBytes (xorBytes data key) key = data := by
  induction data generalizing key with
  | nil => rfl
  | cons d data ih =>
      cases key with
      | nil => simp at covered
      | cons k key =>
          have rest := ih key (by simpa using covered)
          simp only [xorBytes, List.zipWith_cons_cons, UInt8.xor_assoc, UInt8.xor_self,
            UInt8.xor_zero] at rest ⊢
          rw [rest]

theorem take_xorBytes (n : Nat) (a b : List Byte) :
    (xorBytes a b).take n = xorBytes (a.take n) (b.take n) := List.take_zipWith

theorem xorBytes_take (a b : List Byte) : xorBytes a (b.take a.length) = xorBytes a b := by
  induction a generalizing b with
  | nil => rfl
  | cons x a ih =>
      cases b with
      | nil => rfl
      | cons y b => exact congrArg (_ :: ·) (ih b)

end CMem
