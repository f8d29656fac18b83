import SnippetKernel.Number.Reading

/-! Addresses of hosts, and of endpoints: a host and a port on it. -/
namespace SnippetKernel

inductive Address where
  | v4 (a b c d : UInt8)
  | v6 (groups : Vector UInt16 8)
  deriving DecidableEq

namespace Address

/-! ### Text -/

def dotted (a b c d : UInt8) : String :=
  ".".intercalate ([a, b, c, d].map fun x => toString x.toNat)

def groupText (g : UInt16) : String := String.ofList (Nat.toDigits 16 g.toNat)

def colons (groups : List UInt16) : String := ":".intercalate (groups.map groupText)

/-- How many zeros there are in front. -/
def zeros (groups : List UInt16) : Nat := (groups.takeWhile (· = 0)).length

/-- The longest run of zeros, the first of those that are equally long: where it begins and its length. -/
def longestZeros (groups : List UInt16) : Nat × Nat :=
  (List.range groups.length).foldl
    (fun best i => if best.2 < zeros (groups.drop i) then (i, zeros (groups.drop i)) else best) (0, 0)

/-- The canonical text: two colons stand for the longest run of at least two zeros, and an address that
only maps one of version 4 ends with dots. -/
def text : Address → String
  | v4 a b c d => dotted a b c d
  | v6 groups =>
    match groups.toList with
    | [0, 0, 0, 0, 0, 0xffff, g, h] =>
      "::ffff:" ++ dotted (g >>> 8).toUInt8 g.toUInt8 (h >>> 8).toUInt8 h.toUInt8
    | groups =>
      let (first, count) := longestZeros groups
      if count < 2 then colons groups
      else colons (groups.take first) ++ "::" ++ colons (groups.drop (first + count))

/-! ### Reading

Each reader answers with what it read and the rest of the text. -/

/-- The longest run of digits in front, if it is a number below the bound and not too long. -/
def number (radix places bound : Nat) (leadingZeros : Bool) (cs : List Char) : Option (Nat × List Char) :=
  let isDigit (c : Char) : Bool := (digitValue? c).any (· < radix)
  let run := cs.takeWhile isDigit
  match natOfDigits? radix run with
  | none => none
  | some n =>
    if places < run.length ∨ bound ≤ n then none
    else if !leadingZeros ∧ run.head? = some '0' ∧ 1 < run.length then none
    else some (n, cs.dropWhile isDigit)

def octet (cs : List Char) : Option (UInt8 × List Char) :=
  (number 10 3 256 false cs).map fun (n, rest) => (UInt8.ofNat n, rest)

def group (cs : List Char) : Option (UInt16 × List Char) :=
  (number 16 4 65536 true cs).map fun (n, rest) => (UInt16.ofNat n, rest)

/-- The rest behind this character. -/
def behind (c : Char) : List Char → Option (List Char)
  | d :: rest => if c = d then some rest else none
  | [] => none

def readV4 (cs : List Char) : Option ((UInt8 × UInt8 × UInt8 × UInt8) × List Char) := do
  let (a, cs) ← octet cs
  let (b, cs) ← octet (← behind '.' cs)
  let (c, cs) ← octet (← behind '.' cs)
  let (d, cs) ← octet (← behind '.' cs)
  return ((a, b, c, d), cs)

def pair (high low : UInt8) : UInt16 := high.toUInt16 <<< 8 ||| low.toUInt16

/-- At most `room` groups with colons between them, of which an address with dots at the end stands for
two. Also answers whether there was one. -/
def readGroups : (room : Nat) → (first : Bool) → List Char → List UInt16 × Bool × List Char
  | 0, _, cs => ([], false, cs)
  | room + 1, first, cs =>
    match if first then some cs else behind ':' cs with
    | none => ([], false, cs)
    | some here =>
      match if 0 < room then readV4 here else none with
      | some ((a, b, c, d), rest) => ([pair a b, pair c d], true, rest)
      | none =>
        match group here with
        | none => ([], false, cs)
        | some (g, rest) =>
          let (others, hasDots, rest) := readGroups room false rest
          (g :: others, hasDots, rest)

def ofGroups (groups : List UInt16) : Vector UInt16 8 := Vector.ofFn fun i => groups.getD i 0

/-- Two colons stand for one zero group or more, and for all that are missing. -/
def readV6 (cs : List Char) : Option (Vector UInt16 8 × List Char) :=
  match readGroups 8 true cs with
  | (head, hasDots, rest) =>
    if head.length = 8 then some (ofGroups head, rest)
    else if hasDots then none
    else
      match rest with
      | ':' :: ':' :: rest =>
        let (tail, _, rest) := readGroups (7 - head.length) true rest
        let missing := List.replicate (8 - head.length - tail.length) 0
        some (ofGroups (head ++ missing ++ tail), rest)
      | _ => none

def read (cs : List Char) : Option (Address × List Char) :=
  match readV4 cs with
  | some ((a, b, c, d), rest) => some (v4 a b c d, rest)
  | none => (readV6 cs).map fun (groups, rest) => (v6 groups, rest)

/-- What is left when nothing is. -/
def whole {α : Type} : Option (α × List Char) → Option α
  | some (a, []) => some a
  | _ => none

def ofText? (text : String) : Option Address := whole (read text.toList)

/-- The address of the machine itself. -/
def loopback : Address := v4 127 0 0 1

end Address

structure Endpoint where
  host : Address
  port : UInt16
  deriving DecidableEq

namespace Endpoint

def text (e : Endpoint) : String :=
  let host :=
    match e.host with
    | .v4 a b c d => Address.dotted a b c d
    | .v6 groups => "[" ++ (Address.v6 groups).text ++ "]"
  host ++ ":" ++ toString e.port.toNat

def readPort (cs : List Char) : Option (UInt16 × List Char) :=
  (Address.number 10 cs.length 65536 true cs).map fun (n, rest) => (UInt16.ofNat n, rest)

def read (cs : List Char) : Option (Endpoint × List Char) := do
  let (host, cs) ←
    match Address.readV4 cs with
    | some ((a, b, c, d), rest) => some (Address.v4 a b c d, rest)
    | none => do
      let (groups, rest) ← Address.readV6 (← Address.behind '[' cs)
      some (Address.v6 groups, ← Address.behind ']' rest)
  let (port, cs) ← readPort (← Address.behind ':' cs)
  return (⟨host, port⟩, cs)

def ofText? (text : String) : Option Endpoint := Address.whole (read text.toList)

end Endpoint

end SnippetKernel
