import StableSupply.Power

/-! # Instants and durations

Wall-clock instants and lengths of time, both to the nanosecond, and their texts. -/

namespace StableSupply

/-- A number of at least `width` decimal digits. -/
def padded (width n : Nat) : String :=
  let digits := toString n
  String.ofList (List.replicate (width - digits.length) '0') ++ digits

/-- A moment, to the nanosecond. -/
structure Instant where
  /-- Since the start of 1970, negative before it. -/
  nanos : Int
  deriving DecidableEq, Repr

namespace Instant

instance : LT Instant := ⟨fun a b => a.nanos < b.nanos⟩

instance : DecidableLT Instant := fun a b => inferInstanceAs (Decidable (a.nanos < b.nanos))

def ofUnix (seconds : Int) (nanos : Nat) : Instant := ⟨seconds * 1000000000 + nanos⟩

def addMillis (t : Instant) (ms : Nat) : Instant := ⟨t.nanos + ms * 1000000⟩

/-- Whole seconds since 1970, none for an earlier instant. -/
def unixSeconds (t : Instant) : UInt64 := .ofNat (t.nanos / 1000000000).toNat

/-- Seconds rounded down, and nine digits of what is left. -/
def text (t : Instant) : String :=
  toString (t.nanos / 1000000000) ++ "." ++ padded 9 (t.nanos % 1000000000).toNat

end Instant

/-- A length of time, to the nanosecond. -/
structure Duration where
  nanos : Nat
  deriving DecidableEq, Repr

namespace Duration

def ofMillis (ms : Nat) : Duration := ⟨ms * 1000000⟩

def ofSecs (s : Nat) : Duration := ⟨s * 1000000000⟩

/-- The first whole number of milliseconds that is no shorter. -/
def ceilMillis (d : Duration) : Nat := (d.nanos + 999999) / 1000000

/-- `n / 10 ^ places` in decimal, without zeros at the end of the fraction. -/
def decimal (n places : Nat) : String :=
  let fraction := (padded places (n % 10 ^ places)).toList
  let kept := (fraction.reverse.dropWhile (· = '0')).reverse
  toString (n / 10 ^ places) ++
    if n % 10 ^ places = 0 then "" else "." ++ String.ofList kept

/-- In the largest unit of which there is at least one. -/
def text (d : Duration) : String :=
  if d.nanos ≥ 1000000000 then decimal d.nanos 9 ++ "s"
  else if d.nanos ≥ 1000000 then decimal d.nanos 6 ++ "ms"
  else if d.nanos ≥ 1000 then decimal d.nanos 3 ++ "µs"
  else toString d.nanos ++ "ns"

end Duration

end StableSupply
