import Tether.Random.ChaCha
import Tether.Random.Generator

/-!
# Uniform choices

Two ways to choose from a range with the words of a `RandomStream`. A number between two bounds
comes from 52 random bits, and a draw that rounds up to the upper bound is repeated. An index
below `n` is the high half of the product of a word with `n`; a word whose low half falls
outside the zone in which all indices are equally likely is rejected and drawn again. A draw is
repeated as often as the stream has words : then the stream has come round, and a draw that was
rejected until then would be repeated for ever.
-/

namespace Tether.RandomStream

/-- After so many words of 64 bits the stream comes round : the block counter has 64 bits, and a
block has eight such words. -/
def period : Nat := 2 ^ 64 * 8

/-- A number from one up to two, from 52 bits of a word. -/
def unitNumber (w : UInt64) : Binary64 := ⟨((1023 : UInt64) <<< 52) ||| (w >>> 12)⟩

/-- The number one. -/
def one : Binary64 := ⟨0x3ff0000000000000⟩

/-- Draw a number from `low` up to `high` with a given number of tries. -/
def drawBetween (low high : Binary64) : Nat → RandomStream → Binary64 × RandomStream
  | 0, s => (low, s)
  | tries + 1, s =>
    let (w, s) := s.next
    let x := (unitNumber w - one) * (high - low) + low
    if x.less high then (x, s) else drawBetween low high tries s

/-- A number from `low` up to `high`. -/
def between (s : RandomStream) (low high : Binary64) : Binary64 × RandomStream :=
  drawBetween low high period s

/-- The largest low half that is accepted when an index below `n` is drawn : `n` moved up to
the top of the word, less one. -/
def zone (n : Nat) : Nat := n * 2 ^ (63 - Nat.log2 n) - 1

/-- Draw an index below `n` with a given number of tries. -/
def drawBelow (n : Nat) : Nat → RandomStream → Nat × RandomStream
  | 0, s => (0, s)
  | tries + 1, s =>
    let (w, s) := s.next
    let product := w.toNat * n
    if product % 2 ^ 64 ≤ zone n then (product / 2 ^ 64, s) else drawBelow n tries s

/-- An index below `n`. -/
def below (s : RandomStream) (n : Nat) : Nat × RandomStream := drawBelow n period s

theorem drawBelow_lt {n : Nat} (hn : 0 < n) (tries : Nat) (s : RandomStream) :
    (drawBelow n tries s).1 < n := by
  induction tries generalizing s with
  | zero => exact hn
  | succ tries ih =>
    unfold drawBelow
    simp only
    split
    · have hw : s.next.1.toNat < 2 ^ 64 := s.next.1.toNat_lt
      exact Nat.div_lt_of_lt_mul (Nat.mul_lt_mul_of_pos_right hw hn)
    · exact ih _

theorem below_lt {n : Nat} (hn : 0 < n) (s : RandomStream) : (s.below n).1 < n :=
  drawBelow_lt hn period s

instance : Generator RandomStream := ⟨ofSeed, between, below⟩

instance : LawfulGenerator RandomStream := ⟨below_lt⟩

end Tether.RandomStream
