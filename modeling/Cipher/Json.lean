import Cipher.Geth

/-!
# JSON texts

What `encoding/json` reads. The text is checked byte by byte, by an automaton
with a stack of the arrays and objects that are open, of which there can be
10,000; numbers and strings are kept as they are written. What a string
stands for is left to those who expect one.
-/

namespace Json

open Bytes Go List Option

inductive Value where
  | null
  | bool (b : Bool)
  | number (text : Str)
  | string (text : Str)
  | array (items : List Value)
  | object (fields : List (Str × Value))

/-- An array or an object that is open. `key` is the name read last. -/
inductive Frame where
  | array (items : List Value)
  | object (fields : List (Str × Value)) (key : Str)

inductive Part where
  | sign | zero | int | point | frac | exp | expSign | expDigits
deriving DecidableEq

def Part.accepts (part : Part) : Bool :=
  part = .zero ∨ part = .int ∨ part = .frac ∨ part = .expDigits

/-- How a number goes on. -/
def Part.next (part : Part) (c : UInt8) : Option Part :=
  let digit := 0x30 ≤ c ∧ c ≤ 0x39
  let fraction := if c = 0x2e then some point else if c = 0x65 ∨ c = 0x45 then some .exp else none
  match part with
  | .sign => if c = 0x30 then some .zero else if digit then some .int else none
  | .zero => fraction
  | .int => if digit then some .int else fraction
  | .point => if digit then some .frac else none
  | .frac => if digit then some .frac else if c = 0x65 ∨ c = 0x45 then some .exp else none
  | .exp => if digit then some .expDigits else if c = 0x2b ∨ c = 0x2d then some .expSign else none
  | .expSign | .expDigits => if digit then some .expDigits else none

/-- What is being read. A value or a key may be missing right after the
bracket (`empty`). In a string, `escape` is the number of hexadecimal digits
to come, and 0 right after a backslash. -/
inductive Mode where
  | value (empty : Bool)
  | key (empty : Bool)
  | colon
  | after
  | done (v : Value)
  | string (isKey : Bool) (text : Str) (escape : Option Nat)
  | number (text : Str) (part : Part)
  | literal (rest : Str) (v : Value)

structure State where
  mode : Mode
  stack : List Frame

/-- A value is complete. -/
def give (v : Value) : List Frame → State
  | [] => ⟨.done v, []⟩
  | .array items :: stack => ⟨.after, .array (items ++ [v]) :: stack⟩
  | .object fields key :: stack => ⟨.after, .object (fields ++ [(key, v)]) key :: stack⟩

def openFrame (mode : Mode) (frame : Frame) (stack : List Frame) : Option State :=
  if stack.length < 10000 then some ⟨mode, frame :: stack⟩ else none

def isSpace (c : UInt8) : Bool := c = 0x20 ∨ c = 0x09 ∨ c = 0x0d ∨ c = 0x0a

def beginValue (c : UInt8) (stack : List Frame) : Option State :=
  if c = 0x7b then openFrame (.key true) (.object [] []) stack
  else if c = 0x5b then openFrame (.value true) (.array []) stack
  else if c = 0x22 then some ⟨.string false [] none, stack⟩
  else if c = 0x2d then some ⟨.number [c] .sign, stack⟩
  else if c = 0x74 then some ⟨.literal (ascii "rue") (.bool true), stack⟩
  else if c = 0x66 then some ⟨.literal (ascii "alse") (.bool false), stack⟩
  else if c = 0x6e then some ⟨.literal (ascii "ull") .null, stack⟩
  else (Part.sign.next c).map fun part => ⟨.number [c] part, stack⟩

/-- What follows a value. -/
def endValue (s : State) (c : UInt8) : Option State :=
  if isSpace c then some s
  else match s with
    | ⟨.after, .array items :: stack⟩ =>
      if c = 0x2c then some ⟨.value false, .array items :: stack⟩
      else if c = 0x5d then some (give (.array items) stack) else none
    | ⟨.after, .object fields key :: stack⟩ =>
      if c = 0x2c then some ⟨.key false, .object fields key :: stack⟩
      else if c = 0x7d then some (give (.object fields) stack) else none
    | _ => none

def endString (isKey : Bool) (text : Str) (stack : List Frame) : Option State :=
  match isKey, stack with
  | false, stack => some (give (.string text) stack)
  | true, .object fields _ :: stack => some ⟨.colon, .object fields text :: stack⟩
  | true, _ => none

def stepString (isKey : Bool) (text : Str) (escape : Option Nat) (stack : List Frame) (c : UInt8) :
    Option State :=
  match escape with
  | none =>
    if c = 0x22 then endString isKey text stack
    else if c = 0x5c then some ⟨.string isKey (text ++ [c]) (some 0), stack⟩
    else if c < 0x20 then none
    else some ⟨.string isKey (text ++ [c]) none, stack⟩
  | some 0 =>
    if c = 0x75 then some ⟨.string isKey (text ++ [c]) (some 4), stack⟩
    else if c ∈ ascii "\"\\/bfnrt" then some ⟨.string isKey (text ++ [c]) none, stack⟩
    else none
  | some (left + 1) =>
    if (Geth.hexVal c).isSome then
      some ⟨.string isKey (text ++ [c]) (if left = 0 then none else some left), stack⟩
    else none

def step (s : State) (c : UInt8) : Option State :=
  match s.mode with
  | .string isKey text escape => stepString isKey text escape s.stack c
  | .number text part =>
    match part.next c with
    | some part => some ⟨.number (text ++ [c]) part, s.stack⟩
    | none => if part.accepts then endValue (give (.number text) s.stack) c else none
  | .literal (d :: rest) v =>
    if c ≠ d then none
    else if rest = [] then some (give v s.stack) else some ⟨.literal rest v, s.stack⟩
  | .literal [] _ => none
  | .after | .done _ => endValue s c
  | .value empty =>
    if isSpace c then some s
    else match empty, c, s.stack with
      | true, 0x5d, .array items :: stack => some (give (.array items) stack)
      | _, _, stack => beginValue c stack
  | .key empty =>
    if isSpace c then some s
    else if c = 0x22 then some ⟨.string true [] none, s.stack⟩
    else match empty, c, s.stack with
      | true, 0x7d, .object fields _ :: stack => some (give (.object fields) stack)
      | _, _, _ => none
  | .colon =>
    if isSpace c then some s else if c = 0x3a then some ⟨.value false, s.stack⟩ else none

/-- A number ends with the text. -/
def finish (s : State) : Option Value :=
  match s with
  | ⟨.done v, _⟩ => some v
  | ⟨.number text part, []⟩ => if part.accepts then some (.number text) else none
  | _ => none

def parse (text : Str) : Option Value := (text.foldlM step ⟨.value false, []⟩).bind finish

/-! ## What is written -/

/-- The code points of a string, as far as they are ASCII or have the folding
of a letter of ASCII; other bytes are no part of such a code point. -/
def runes : Str → List Nat
  | 0x5c :: 0x75 :: a :: b :: c :: d :: rest =>
    ([a, b, c, d].foldl (fun n x => 16 * n + (Geth.hexVal x).getD 0) 0) :: runes rest
  | 0x5c :: c :: rest =>
    (if c = 0x62 then 0x08 else if c = 0x66 then 0x0c else if c = 0x6e then 0x0a
      else if c = 0x72 then 0x0d else if c = 0x74 then 0x09 else c.toNat) :: runes rest
  | 0xe2 :: 0x84 :: 0xaa :: rest => 0x212a :: runes rest
  | 0xc5 :: 0xbf :: rest => 0x17f :: runes rest
  | c :: rest => (if c < 0x80 then c.toNat else 0xfffd) :: runes rest
  | [] => []

/-- The Kelvin sign is a `k` and the long `s` an `s`. -/
def foldRune (r : Nat) : Nat :=
  if 0x41 ≤ r ∧ r ≤ 0x5a then r + 0x20 else if r = 0x212a then 0x6b
  else if r = 0x17f then 0x73 else r

/-- A key names a field of a struct in any case. -/
def names (key : Str) (field : String) : Bool :=
  (runes key).map foldRune = field.toList.map fun c => foldRune c.toNat

/-- `big.Int` is an integer, without fraction and exponent. -/
def integer (text : Str) : Option Int :=
  let digits := if text.head? = some 0x2d then text.tail else text
  if digits.all fun c => 0x30 ≤ c ∧ c ≤ 0x39 then
    let n : Nat := digits.foldl (fun n c => 10 * n + (c.toNat - 0x30)) 0
    some (if text.head? = some 0x2d then -(n : Int) else n)
  else none

def sextet (r : Nat) : Option Nat :=
  if 0x41 ≤ r ∧ r ≤ 0x5a then some (r - 0x41) else if 0x61 ≤ r ∧ r ≤ 0x7a then some (r - 0x61 + 26)
  else if 0x30 ≤ r ∧ r ≤ 0x39 then some (r - 0x30 + 52) else if r = 0x2b then some 62
  else if r = 0x2f then some 63 else none

/-- Four characters at a time, the last ones with padding. -/
def decodeQuads : List Nat → Option (List UInt8)
  | [] => some []
  | [a, b, 0x3d, 0x3d] => do
    let n := 64 * (← sextet a) + (← sextet b)
    return [UInt8.ofNat (n / 16)]
  | [a, b, c, 0x3d] => do
    let n := 4096 * (← sextet a) + 64 * (← sextet b) + (← sextet c)
    return (beBytes 2 (n / 4))
  | a :: b :: c :: d :: rest => do
    let n := 262144 * (← sextet a) + 4096 * (← sextet b) + 64 * (← sextet c) + (← sextet d)
    return beBytes 3 n ++ (← decodeQuads rest)
  | _ => none

/-- `base64.StdEncoding`, which skips line breaks. -/
def decodeBase64 (text : List Nat) : Option (List UInt8) :=
  decodeQuads (text.filter fun r => r ≠ 0x0a ∧ r ≠ 0x0d)

end Json
