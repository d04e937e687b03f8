/-
# UTF-8 as files hold it

Source files are bytes.  `decode` turns them into characters, or says where the first sequence of
bytes that is not UTF-8 starts, how many bytes of it had been accepted, and what was wrong.
Over-long forms, surrogates and numbers past the last code point are refused at their first or
second byte, because `Lead` bounds the byte after the lead.

Files also end their lines in three ways; `unifyNewlines` makes them one.
-/

namespace CurryLisp.Text

/-! ## 1. Faults -/

/-- What is wrong with a sequence of bytes. -/
inductive Utf8Reason
  /-- no sequence starts with this byte -/
  | start
  /-- a byte that should continue the sequence does not -/
  | continuation
  /-- the bytes end inside the sequence -/
  | truncated
  deriving DecidableEq

/-- The reason in words. -/
def Utf8Reason.text : Utf8Reason → String
  | .start => "invalid start byte"
  | .continuation => "invalid continuation byte"
  | .truncated => "unexpected end of data"

/-- The first sequence of bytes that is not UTF-8. -/
structure Utf8Fault where
  /-- the offset of the sequence's first byte -/
  offset : Nat
  /-- how many bytes of the sequence are reported: at least one -/
  span : Nat
  /-- the sequence's first byte -/
  lead : UInt8
  reason : Utf8Reason
  deriving DecidableEq

/-- A byte as two hexadecimal digits. -/
def byteText (b : UInt8) : String :=
  let ds := Nat.toDigits 16 b.toNat
  String.ofList (if ds.length < 2 then '0' :: ds else ds)

/-- The fault as a full sentence. -/
def Utf8Fault.message (f : Utf8Fault) : String :=
  if f.span = 1 then
    "'utf-8' codec can't decode byte 0x" ++ byteText f.lead ++
      s!" in position {f.offset}: {f.reason.text}"
  else
    s!"'utf-8' codec can't decode bytes in position {f.offset}-{f.offset + f.span - 1}: {f.reason.text}"

/-! ## 2. Sequences -/

/-- What a lead byte announces: how many bytes follow, the bits it contributes, and the bounds of
the byte after it. -/
structure Lead where
  more : Nat
  bits : Nat
  low : Nat
  high : Nat

/-- The lead of a sequence of two bytes or more. -/
def Lead.ofByte? (b : UInt8) : Option Lead :=
  let n := b.toNat
  if n < 0xC2 then none
  else if n < 0xE0 then some ⟨1, n - 0xC0, 0x80, 0xBF⟩
  else if n = 0xE0 then some ⟨2, 0, 0xA0, 0xBF⟩
  else if n = 0xED then some ⟨2, 0xD, 0x80, 0x9F⟩
  else if n < 0xF0 then some ⟨2, n - 0xE0, 0x80, 0xBF⟩
  else if n = 0xF0 then some ⟨3, 0, 0x90, 0xBF⟩
  else if n < 0xF4 then some ⟨3, n - 0xF0, 0x80, 0xBF⟩
  else if n = 0xF4 then some ⟨3, 4, 0x80, 0x8F⟩
  else none

/-- A sequence whose last bytes are still to come. -/
structure Unfinished where
  lead : UInt8
  /-- the offset of the lead byte -/
  offset : Nat
  /-- how many bytes have been accepted, the lead among them -/
  seen : Nat
  /-- how many bytes are still to come -/
  more : Nat
  /-- the bits read so far -/
  bits : Nat
  low : Nat
  high : Nat

/-- The fault of a sequence that breaks off. -/
def Unfinished.fault (u : Unfinished) (reason : Utf8Reason) : Utf8Fault :=
  ⟨u.offset, u.seen, u.lead, reason⟩

/-- Reads bytes from an offset on, with the sequence that is under way and the characters read so
far, last first. -/
def decodeFrom (offset : Nat) (under : Option Unfinished) (done : List Char) :
    List UInt8 → Except Utf8Fault (List Char)
  | [] =>
    match under with
    | none => .ok done.reverse
    | some u => .error (u.fault .truncated)
  | b :: rest =>
    match under with
    | none =>
      if b.toNat < 0x80 then
        decodeFrom (offset + 1) none (Char.ofNat b.toNat :: done) rest
      else match Lead.ofByte? b with
        | none => .error ⟨offset, 1, b, .start⟩
        | some l =>
          decodeFrom (offset + 1) (some ⟨b, offset, 1, l.more, l.bits, l.low, l.high⟩) done rest
    | some u =>
      if u.low ≤ b.toNat && b.toNat ≤ u.high then
        let bits := u.bits * 64 + (b.toNat - 0x80)
        if u.more ≤ 1 then decodeFrom (offset + 1) none (Char.ofNat bits :: done) rest
        else
          decodeFrom (offset + 1)
            (some { u with seen := u.seen + 1, more := u.more - 1, bits := bits,
                           low := 0x80, high := 0xBF }) done rest
      else .error (u.fault .continuation)

/-- The characters that a list of bytes encodes. -/
def decode (bytes : List UInt8) : Except Utf8Fault (List Char) := decodeFrom 0 none [] bytes

/-! ## 3. Line ends -/

/-- Makes every line end a line feed: a carriage return, with the line feed after it if there is
one, becomes a single line feed. -/
def unifyNewlines : List Char → List Char
  | [] => []
  | c :: rest =>
    if c = '\r' then
      match rest with
      | d :: rest' => if d = '\n' then '\n' :: unifyNewlines rest' else '\n' :: unifyNewlines (d :: rest')
      | [] => ['\n']
    else c :: unifyNewlines rest

/-- A text without carriage returns is left alone. -/
theorem unifyNewlines_eq_self {cs : List Char} (h : '\r' ∉ cs) : unifyNewlines cs = cs := by
  induction cs with
  | nil => rfl
  | cons c r ih =>
    simp only [List.mem_cons, not_or] at h
    have hc : c ≠ '\r' := fun e => h.1 e.symm
    rw [unifyNewlines.eq_def]
    simp [hc, ih h.2]

/-- The text of a file: its bytes decoded, and its line ends unified. -/
def textOfBytes (bytes : List UInt8) : Except Utf8Fault String :=
  (decode bytes).map (fun cs => String.ofList (unifyNewlines cs))

end CurryLisp.Text
