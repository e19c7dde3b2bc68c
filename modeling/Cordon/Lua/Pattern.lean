import Cordon.Text.Bytes

/-!
# Patterns

Matching of bytes against patterns with classes, sets, repetitions, captures, balanced pairs and
frontiers. A match is found by trying the longest repetition first and going back.
-/

namespace Cordon.Lua.Pattern

inductive Extent where
  | unfinished
  /-- The position itself is captured. -/
  | position
  | closed (length : Nat)
  deriving DecidableEq

structure Capture where
  start : Nat
  extent : Extent

instance : Inhabited Capture := ⟨⟨0, .position⟩⟩

/-- A match: where it ends, and the captures in the order of their opening. -/
abbrev Found := Except String (Option (Nat × Array Capture))

def percent : UInt8 := 37

def isAlpha (c : UInt8) : Bool := (97 ≤ c && c ≤ 122) || (65 ≤ c && c ≤ 90)

def isDigit (c : UInt8) : Bool := 48 ≤ c && c ≤ 57

def isUpper (c : UInt8) : Bool := 65 ≤ c && c ≤ 90

def isLower (c : UInt8) : Bool := 97 ≤ c && c ≤ 122

def isCntrl (c : UInt8) : Bool := c < 32 || c = 127

def isGraph (c : UInt8) : Bool := 32 < c && c < 127

def isSpace (c : UInt8) : Bool := c = 32 || (9 ≤ c && c ≤ 13)

def isAlnum (c : UInt8) : Bool := isAlpha c || isDigit c

def isHex (c : UInt8) : Bool := isDigit c || (97 ≤ c && c ≤ 102) || (65 ≤ c && c ≤ 70)

def toLower (c : UInt8) : UInt8 := if isUpper c then c + 32 else c

def toUpper (c : UInt8) : UInt8 := if isLower c then c - 32 else c

/-- Whether a byte is in the class of this letter; a capital stands for the complement. -/
def inClass (c letter : UInt8) : Bool :=
  let r : Option Bool :=
    match (Char.ofNat (toLower letter).toNat) with
    | 'a' => some (isAlpha c)
    | 'c' => some (isCntrl c)
    | 'd' => some (isDigit c)
    | 'g' => some (isGraph c)
    | 'l' => some (isLower c)
    | 'p' => some (isGraph c && !isAlnum c)
    | 's' => some (isSpace c)
    | 'u' => some (isUpper c)
    | 'w' => some (isAlnum c)
    | 'x' => some (isHex c)
    | _ => none
  match r with
  | some b => if isUpper letter then !b else b
  | none => letter == c

/-- The end of a set, from after its opening bracket on; `first` at its first item. -/
def setEnd (pat : Bytes) : Nat → Bool → Nat → Except String Nat
  | 0, _, _ => .error "malformed pattern (missing ']')"
  | n + 1, first, p =>
    if p ≥ pat.size then .error "malformed pattern (missing ']')"
    else if pat.at0 p = 93 && !first then .ok (p + 1)
    else if pat.at0 p = percent then setEnd pat n false (p + 2)
    else setEnd pat n false (p + 1)

def itemEnd (pat : Bytes) (p : Nat) : Except String Nat :=
  let c := pat.at0 p
  if c = percent then
    if p + 1 ≥ pat.size then .error "malformed pattern (ends with '%')" else .ok (p + 2)
  else if c = 91 then
    let p := if pat.at0 (p + 1) = 94 && p + 1 < pat.size then p + 2 else p + 1
    setEnd pat (pat.size + 1) true p
  else .ok (p + 1)

/-- Whether a byte is named by the items of a set between `p` and its closing bracket `stop`. -/
def inItems (pat : Bytes) (c : UInt8) (stop : Nat) : Nat → Nat → Bool
  | 0, _ => false
  | n + 1, p =>
    if p ≥ stop then false
    else if pat.at0 p = percent then inClass c (pat.at0 (p + 1)) || inItems pat c stop n (p + 2)
    else if pat.at0 (p + 1) = 45 && p + 2 < stop then
      (pat.at0 p ≤ c && c ≤ pat.at0 (p + 2)) || inItems pat c stop n (p + 3)
    else pat.at0 p == c || inItems pat c stop n (p + 1)

/-- Whether a byte is in the set from `p` to `stop`, both brackets included. -/
def inSet (pat : Bytes) (c : UInt8) (p stop : Nat) : Bool :=
  if pat.at0 (p + 1) = 94 then !inItems pat c (stop - 1) pat.size (p + 2)
  else inItems pat c (stop - 1) pat.size (p + 1)

/-- Whether the byte at `s` matches the single item from `p` to `stop`. -/
def single (src pat : Bytes) (s p stop : Nat) : Bool :=
  if s ≥ src.size then false
  else
    let c := src.at0 s
    let i := pat.at0 p
    if i = 46 then true
    else if i = percent then inClass c (pat.at0 (p + 1))
    else if i = 91 then inSet pat c p stop
    else i == c

/-- How many bytes from `s` on match an item; `n` bounds them. -/
def runLength (src pat : Bytes) (p stop : Nat) : Nat → Nat → Nat
  | 0, _ => 0
  | n + 1, s => if single src pat s p stop then runLength src pat p stop n (s + 1) + 1 else 0

/-- Tries `rest` after `n` repetitions, then after fewer, down to none. -/
def longest (rest : Nat → Found) (s : Nat) : Nat → Found
  | 0 => rest s
  | n + 1 =>
    match rest (s + n + 1) with
    | .ok none => longest rest s n
    | r => r

/-- Tries `rest` after ever more repetitions of an item. -/
def shortest (src pat : Bytes) (rest : Nat → Found) (p stop : Nat) : Nat → Nat → Found
  | 0, _ => .ok none
  | n + 1, s =>
    match rest s with
    | .ok none =>
      if single src pat s p stop then shortest src pat rest p stop n (s + 1) else .ok none
    | r => r

/-- The end of the balanced text that begins at `s`. -/
def balanced (src : Bytes) (opener closer : UInt8) : Nat → Nat → Nat → Option Nat
  | 0, _, _ => none
  | n + 1, s, depth =>
    if s ≥ src.size then none
    else
      let c := src.at0 s
      if c = closer then
        if depth = 1 then some (s + 1) else balanced src opener closer n (s + 1) (depth - 1)
      else if c = opener then balanced src opener closer n (s + 1) (depth + 1)
      else balanced src opener closer n (s + 1) depth

/-- The last capture that is still open. -/
def lastOpen (caps : Array Capture) : Nat → Option Nat
  | 0 => none
  | n + 1 => if (caps.getD n default).extent = .unfinished then some n else lastOpen caps n

def maxCaptures : Nat := 32

def invalidIndex (i : Int) : String := "invalid capture index %" ++ toString i

/-- Matches the pattern from `p` on at `s`; fuel bounds how deep it goes. -/
def go (src pat : Bytes) : Nat → Nat → Nat → Array Capture → Found
  | 0, _, _, _ => .error "pattern too complex"
  | n + 1, s, p, caps =>
    if p ≥ pat.size then .ok (some (s, caps))
    else
      let c := pat.at0 p
      let next := pat.at0 (p + 1)
      if c = 40 then
        if caps.size ≥ maxCaptures then .error "too many captures"
        else if next = 41 && p + 1 < pat.size then
          go src pat n s (p + 2) (caps.push ⟨s, .position⟩)
        else go src pat n s (p + 1) (caps.push ⟨s, .unfinished⟩)
      else if c = 41 then
        match lastOpen caps caps.size with
        | none => .error "invalid pattern capture"
        | some i =>
          let start := (caps.getD i default).start
          go src pat n s (p + 1) (caps.setIfInBounds i ⟨start, .closed (s - start)⟩)
      else if c = 36 && p + 1 = pat.size then
        .ok (if s = src.size then some (s, caps) else none)
      else if c = percent && next = 98 && p + 1 < pat.size then
        if p + 3 ≥ pat.size then .error "malformed pattern (missing arguments to '%b')"
        else if s < src.size && src.at0 s = pat.at0 (p + 2) then
          match balanced src (pat.at0 (p + 2)) (pat.at0 (p + 3)) src.size (s + 1) 1 with
          | some s => go src pat n s (p + 4) caps
          | none => .ok none
        else .ok none
      else if c = percent && next = 102 && p + 1 < pat.size then
        if pat.at0 (p + 2) ≠ 91 then .error "missing '[' after '%f' in pattern"
        else
          match itemEnd pat (p + 2) with
          | .error e => .error e
          | .ok stop =>
            let before := if s = 0 then 0 else src.at0 (s - 1)
            if !inSet pat before (p + 2) stop && inSet pat (src.at0 s) (p + 2) stop then
              go src pat n s stop caps
            else .ok none
      else if c = percent && isDigit next && p + 1 < pat.size then
        match caps[next.toNat - 49]? with
        | some ⟨start, .closed length⟩ =>
          if next = 48 then .error (invalidIndex 0)
          else if s + length ≤ src.size && src.slice start (start + length) == src.slice s (s + length)
          then go src pat n (s + length) (p + 2) caps
          else .ok none
        | _ => .error (invalidIndex (next.toNat - 48))
      else
        match itemEnd pat p with
        | .error e => .error e
        | .ok stop =>
          let mark := if stop < pat.size then pat.at0 stop else 0
          let rest (s : Nat) : Found := go src pat n s (stop + 1) caps
          if mark = 63 then
            if single src pat s p stop then
              match rest (s + 1) with
              | .ok none => rest s
              | r => r
            else rest s
          else if mark = 43 then
            match runLength src pat p stop (src.size - s) s with
            | 0 => .ok none
            | k + 1 => longest rest (s + 1) k
          else if mark = 42 then longest rest s (runLength src pat p stop (src.size - s) s)
          else if mark = 45 then shortest src pat rest p stop (src.size - s + 1) s
          else if single src pat s p stop then go src pat n (s + 1) stop caps
          else .ok none

/-- Matches at exactly `s` the pattern from `p` on. -/
def matchAt (src pat : Bytes) (s p : Nat) : Found :=
  go src pat (2 * (src.size + pat.size) + 10) s p #[]

/-- The first match at or after `s`, if `anchored` only at `s`; `n` bounds the tries. -/
def search (src pat : Bytes) (anchored : Bool) (p : Nat) : Nat → Nat →
    Except String (Option (Nat × Nat × Array Capture))
  | 0, _ => .ok none
  | n + 1, s =>
    match matchAt src pat s p with
    | .error e => .error e
    | .ok (some (stop, caps)) => .ok (some (s, stop, caps))
    | .ok none => if anchored || s ≥ src.size then .ok none else search src pat anchored p n (s + 1)

def isAnchored (pat : Bytes) : Bool := pat.size > 0 && pat.at0 0 == 94

def isPlain (pat : Bytes) : Bool :=
  !pat.toList.any fun c => [94, 36, 42, 43, 63, 46, 40, 41, 91, 93, 37, 45].contains c

end Cordon.Lua.Pattern
