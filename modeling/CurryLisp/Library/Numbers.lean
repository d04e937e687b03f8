/-
# Numbers

Arithmetic, comparison, powers and bits.  Results are exact or there is an error: a result outside
the range of numbers is an overflow, and folds check the range after every step.  Division rounds
toward zero and the remainder has the sign of the dividend.
-/
import CurryLisp.Library.Arguments

namespace CurryLisp.Numbers

/-! ## 1. Folds -/

/-- A result, if it is in range. -/
def checked (func : String) (n : Int) : Except Failure Int :=
  if fits n then .ok n else .error (.overflow func)

/-- One step of a fold: a step that succeeds must stay in range. -/
def checkedStep (func : String) (step : Int → Int → Except Failure Int) (a b : Int) :
    Except Failure Int := do
  checked func (← step a b)

/-- Folds the numbers after the first into it, from left to right. -/
def foldFrom (func : String) (step : Int → Int → Except Failure Int) (n : Int) :
    List Int → Except Failure Int
  | [] => .ok n
  | m :: rest => do foldFrom func step (← checkedStep func step n m) rest

/-- Folds at least one number.  A single number is its own result. -/
def fold (func : String) (step : Int → Int → Except Failure Int) (args : List Value) :
    Except Failure Value :=
  match args with
  | [] => .error (noArguments func)
  | args => do
    match ← Variant.number.takeAll func args with
    | [] => .error (noArguments func)
    | n :: rest => return .number (← foldFrom func step n rest)

/-- Folds with a step that always succeeds. -/
def foldTotal (func : String) (step : Int → Int → Int) (args : List Value) :
    Except Failure Value :=
  fold func (fun a b => .ok (step a b)) args

/-- Subtraction; a single number is negated. -/
def sub (func : String) (args : List Value) : Except Failure Value :=
  match args with
  | [.number n] => if -n ≤ maxNumber then .ok (.number (-n)) else .error (.overflow func)
  | args => foldTotal func (· - ·) args

/-- The quotient of two numbers, rounded toward zero: the magnitudes are divided and rounded down, and
what comes out is negated if just one of the numbers is negative. -/
def quotient (a b : Int) : Int :=
  let q : Int := (a.natAbs / b.natAbs : Nat)
  if a < 0 ↔ b < 0 then q else -q

/-- This is truncating division. -/
theorem quotient_eq_tdiv (a b : Int) : quotient a b = a.tdiv b := by
  have hpos (x : Nat) : ¬ Int.ofNat x < 0 := Int.not_lt.mpr (Int.natCast_nonneg x)
  have hneg (x : Nat) : Int.negSucc x < 0 := Int.negSucc_lt_zero x
  -- The signs decide the comparisons with zero, and then both sides are the same quotient.
  cases a with
  | ofNat x =>
    cases b with
    | ofNat y =>
      simp only [quotient, hpos]
      rfl
    | negSucc y =>
      simp only [quotient, hpos, hneg]
      rfl
  | negSucc x =>
    cases b with
    | ofNat y =>
      simp only [quotient, hpos, hneg]
      rfl
    | negSucc y =>
      simp only [quotient, hneg]
      rfl

/-- One division. -/
def divStep (a b : Int) : Except Failure Int :=
  if b = 0 then .error (.divisionByZero a) else .ok (quotient a b)

/-- Division. -/
def div (func : String) (args : List Value) : Except Failure Value := fold func divStep args

/-! ## 2. Two numbers -/

/-- What two arguments hold, both of which must be numbers. -/
def two (func : String) (args : List Value) : Except Failure (Int × Int) :=
  match args with
  | [a, b] => do
    let n ← Variant.number.take func 0 a
    let m ← Variant.number.take func 1 b
    return (n, m)
  | args => .error (arityFailure func 2 args)

/-- Compares two numbers. -/
def compare (func : String) (test : Int → Int → Bool) (args : List Value) :
    Except Failure Value := do
  let (n, m) ← two func args
  return .truth (test n m)

/-- What is left of a number when it is divided. -/
def remainder (n d : Int) : Int := n - d * quotient n d

/-- This is the remainder of truncating division. -/
theorem remainder_eq_tmod (n d : Int) : remainder n d = n.tmod d := by
  rw [remainder, quotient_eq_tdiv, Int.tmod_def]

/-- The remainder of a division. -/
def rem (func : String) (args : List Value) : Except Failure Value := do
  let (n, d) ← two func args
  if d = 0 then throw (.divisionByZero n)
  return .number (remainder n d)

/-! ## 3. Powers -/

/-- A power.  The powers of zero and of the units need no multiplication. -/
def power (b : Int) (e : Nat) : Int :=
  if b = 0 then (if e = 0 then 1 else 0)
  else if b = 1 then 1
  else if b = -1 then (if e % 2 = 0 then 1 else -1)
  else Int.pow b e

/-- One more factor. -/
theorem intPow_succ (b : Int) (e : Nat) : Int.pow b (e + 1) = Int.pow b e * b := Int.pow_succ b e

/-- Doing without multiplication changes no power. -/
theorem power_eq_pow (b : Int) (e : Nat) : power b e = Int.pow b e := by
  unfold power
  split
  · subst b
    cases e with
    | zero => rfl
    | succ k => rw [intPow_succ, Int.mul_zero, if_neg (Nat.succ_ne_zero k)]
  · split
    · subst b
      induction e with
      | zero => rfl
      | succ k ih => rw [intPow_succ, ← ih, Int.mul_one]
    · split
      · subst b
        induction e with
        | zero => rfl
        | succ k ih =>
          rw [intPow_succ, ← ih]
          by_cases hk : k % 2 = 0
          · have h1 : ¬ (k + 1) % 2 = 0 := by omega
            simp [hk, h1]
          · have h1 : (k + 1) % 2 = 0 := by omega
            simp [hk, h1]
      · rfl

/-- Raises a number to a power that is not negative.  A base of magnitude two or more leaves the
range before the exponent passes the number of bits. -/
def pow (func : String) (args : List Value) : Except Failure Value := do
  let (b, e) ← two func args
  if e < 0 then throw (.outOfRange func (.negativeExponent e))
  if 1 < b.natAbs ∧ 63 < e then throw (.overflow func)
  return .number (← checked func (power b e.toNat))

/-! ## 4. Bits

An integer is read as a row of bits that never ends, in two's complement: from some place on all bits
are equal, zeros if the integer is not negative and ones if it is. -/

/-- The bits of an integer that differ from those that its row ends in. -/
def bits : Int → Nat
  | .ofNat m => m
  | .negSucc m => m

/-- The integer with given bits that differ from those that its row ends in. -/
def ofBits (negative : Bool) (m : Nat) : Int := if negative then .negSucc m else .ofNat m

/-- Combines two integers bit by bit. -/
def combine (f : Bool → Bool → Bool) (a b : Int) : Int :=
  let negative := f (decide (a < 0)) (decide (b < 0))
  -- Relative to what the three rows end in, only finitely many bits are left to combine.
  ofBits negative
    (Nat.bitwise (fun x y => (f (x ^^ decide (a < 0)) (y ^^ decide (b < 0))) ^^ negative)
      (bits a) (bits b))

/-- Folds numbers by combining them bit by bit. -/
def bitwise (func : String) (f : Bool → Bool → Bool) (args : List Value) : Except Failure Value :=
  foldTotal func (combine f) args

/-- Shifts a number by at most sixty-three bits. -/
def shift (func : String) (op : Int → Nat → Int) (args : List Value) : Except Failure Value := do
  let (n, k) ← two func args
  if k < 0 ∨ 63 < k then throw (.outOfRange func (.shiftAmount k))
  return .number (← checked func (op n k.toNat))

/-- Shifts to the left: multiplies by a power of two. -/
def shiftLeft (n : Int) (k : Nat) : Int := n * Int.pow 2 k

/-- Shifts to the right: divides by a power of two and rounds down. -/
def shiftRight (n : Int) (k : Nat) : Int := n / Int.pow 2 k

/-! ## 5. Choices and truth -/

/-- The absolute value. -/
def abs (func : String) (args : List Value) : Except Failure Value :=
  match args with
  | [v] => do
    let n ← Variant.number.take func 0 v
    if (n.natAbs : Int) ≤ maxNumber then return .number n.natAbs else throw (.overflow func)
  | args => .error (arityFailure func 1 args)

/-- Chooses among at least one number, from left to right. -/
def select (func : String) (pick : Int → Int → Int) (args : List Value) : Except Failure Value :=
  match args with
  | [] => .error (noArguments func)
  | args => do
    match ← Variant.number.takeAll func args with
    | [] => .error (noArguments func)
    | n :: rest => return .number (rest.foldl pick n)

/-- Whether all numbers are true. -/
def all (func : String) (args : List Value) : Except Failure Value := do
  return .truth ((← Variant.number.takeAll func args).all (· != 0))

/-- Whether some number is true. -/
def any (func : String) (args : List Value) : Except Failure Value := do
  return .truth ((← Variant.number.takeAll func args).any (· != 0))

/-- Whether a number is false. -/
def negate (func : String) (args : List Value) : Except Failure Value :=
  match args with
  | [v] => do return .truth ((← Variant.number.take func 0 v) == 0)
  | args => .error (arityFailure func 1 args)

end CurryLisp.Numbers
