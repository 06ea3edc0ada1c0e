import TrafficGate.Text.Numeral
/-!
  # Base64

  Three bytes as four symbols of six bits; a rest of one or two bytes is filled up with equals
  signs, which must be there, and the bits that it leaves over are zero.

  1. the symbols;
  2. `encode`;
  3. `Fault` -- where a text is none, and `decode`.

  Main facts: **`symbol?_symbolByte`** (a symbol gives its six bits back) and
  **`decode_nil`** (no symbols are no bytes).
-/

namespace TrafficGate.Base64

/-! ## 1. Symbols -/

/-- The byte of the symbol for six bits. -/
def symbolByte (n : Nat) : UInt8 :=
  UInt8.ofNat
    (if n < 26 then 65 + n
    else if n < 52 then 71 + n
    else if n < 62 then n - 4
    else if n = 62 then 43
    else 47)

/-- The six bits of a symbol. -/
def symbol? (b : UInt8) : Option Nat :=
  let n := b.toNat
  if 65 ≤ n ∧ n ≤ 90 then some (n - 65)
  else if 97 ≤ n ∧ n ≤ 122 then some (n - 71)
  else if 48 ≤ n ∧ n ≤ 57 then some (n + 4)
  else if n = 43 then some 62
  else if n = 47 then some 63
  else none

/-- **A symbol gives its six bits back.** -/
theorem symbol?_symbolByte : ∀ n, n < 64 → symbol? (symbolByte n) = some n := by decide

/-- The byte that fills up. -/
def padByte : UInt8 := 61

/-! ## 2. Writing -/

/-- The symbols of bytes. -/
def encodeBytes : Bytes → Bytes
  | [] => []
  | [a] =>
    [symbolByte (a.toNat / 4), symbolByte (a.toNat % 4 * 16), padByte, padByte]
  | [a, b] =>
    [symbolByte (a.toNat / 4), symbolByte (a.toNat % 4 * 16 + b.toNat / 16),
      symbolByte (b.toNat % 16 * 4), padByte]
  | a :: b :: c :: rest =>
    symbolByte (a.toNat / 4) :: symbolByte (a.toNat % 4 * 16 + b.toNat / 16) ::
      symbolByte (b.toNat % 16 * 4 + c.toNat / 64) :: symbolByte (c.toNat % 64) ::
      encodeBytes rest

/-- The text of bytes. -/
def encode (bs : Bytes) : Text := (encodeBytes bs).map fun b => Char.ofNat b.toNat

/-! ## 3. Reading -/

/-- Why bytes are no such text. -/
inductive Fault where
  | symbol (byte : UInt8) (offset : Nat)
  | length (n : Nat)
  | padding
  | lastSymbol (byte : UInt8) (offset : Nat)
  deriving DecidableEq, Repr

/-- The text of a fault. -/
def Fault.message : Fault → Text
  | symbol byte offset =>
    "Invalid symbol ".toList ++ Numeral.decimal byte.toNat ++ ", offset ".toList ++
      Numeral.decimal offset ++ ".".toList
  | length n => "Invalid input length: ".toList ++ Numeral.decimal n
  | padding => "Invalid padding".toList
  | lastSymbol byte offset =>
    "Invalid last symbol ".toList ++ Numeral.decimal byte.toNat ++ ", offset ".toList ++
      Numeral.decimal offset ++ ".".toList

/-- The bits of symbols that all must be ones. -/
def symbols (offset : Nat) : Bytes → Except Fault (List Nat)
  | [] => .ok []
  | b :: rest =>
    match symbol? b with
    | none => .error (.symbol b offset)
    | some n =>
      match symbols (offset + 1) rest with
      | .ok ns => .ok (n :: ns)
      | .error fault => .error fault

/-- The bytes of four symbols. -/
def quad (p q r s : Nat) : Bytes :=
  [UInt8.ofNat (p * 4 + q / 16), UInt8.ofNat (q % 16 * 16 + r / 4), UInt8.ofNat (r % 4 * 64 + s)]

/-- The bytes of the symbols of a group. -/
def groupBytes : List Nat → Bytes
  | [p, q] => [UInt8.ofNat (p * 4 + q / 16)]
  | [p, q, r] => [UInt8.ofNat (p * 4 + q / 16), UInt8.ofNat (q % 16 * 16 + r / 4)]
  | [p, q, r, s] => quad p q r s
  | _ => []

/-- The bits that the last symbol of a group has and no byte takes. -/
def leftOver : List Nat → Nat
  | [_, q] => q % 16
  | [_, _, r] => r % 4
  | _ => 0

/-- Checks what stands behind the symbols of the last group: only bytes that fill up, from the third
    place on. The place of the first of them is reported when a symbol follows. -/
def checkFill (offset place : Nat) (first : Option Nat) : Bytes → Except Fault Unit
  | [] => .ok ()
  | b :: rest =>
    if b = padByte then
      if place < 2 then .error (.symbol b (offset + place))
      else checkFill offset (place + 1) (some (first.getD place)) rest
    else
      match first with
      | some f => .error (.symbol padByte (offset + f))
      | none =>
        match symbol? b with
        | none => .error (.symbol b (offset + place))
        | some _ => checkFill offset (place + 1) none rest

/-- The bytes of the last group. -/
def lastGroup (offset : Nat) (group : Bytes) : Except Fault Bytes :=
  match checkFill offset 0 none group with
  | .error fault => .error fault
  | .ok _ =>
    let written := group.takeWhile (· ≠ padByte)
    let ns := written.filterMap symbol?
    if group.isEmpty then .ok []
    else if ns.length < 2 then .error (.length (offset + ns.length))
    else if group.length ≠ 4 then .error .padding
    else if leftOver ns ≠ 0 then
      .error (.lastSymbol (written.getLast?.getD 0) (offset + ns.length - 1))
    else .ok (groupBytes ns)

/-- The bytes of groups of four, the last of which may be filled up. -/
def groups (offset : Nat) : Bytes → Except Fault Bytes
  | p :: q :: r :: s :: t :: rest =>
    match symbols offset [p, q, r, s] with
    | .error fault => .error fault
    | .ok ns =>
      match groups (offset + 4) (t :: rest) with
      | .error fault => .error fault
      | .ok bytes => .ok (groupBytes ns ++ bytes)
  | group => lastGroup offset group

/-- Whether a byte beyond the last full group is one that no text has. -/
def strayLast? (bs : Bytes) : Option Fault :=
  if bs.length % 4 = 1 then
    match bs.getLast? with
    | some b => if b = padByte ∨ (symbol? b).isSome then none else some (.symbol b (bs.length - 1))
    | none => none
  else none

/-- Reads bytes from their symbols. A byte that no text has is looked for at a stray end first. -/
def decode (bs : Bytes) : Except Fault Bytes :=
  match strayLast? bs with
  | some fault => .error fault
  | none => groups 0 bs

/-- **No symbols are no bytes.** -/
theorem decode_nil : decode [] = .ok [] := rfl

end TrafficGate.Base64
