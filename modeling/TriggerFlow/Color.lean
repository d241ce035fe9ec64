/-!
# Colors

A recolor action without a color of its own takes the next one of a source. A source is any type of
states that can be asked for a color again and again: a list handed out in turn, or numbers drawn at
random, **each of which is a color of twenty-four bits, written `#` and six lowercase hexadecimal
digits**.
-/

set_option autoImplicit false

namespace TriggerFlow

/-- Hands out colors. -/
class ColorSource (γ : Type) where
  next : γ → String × γ

namespace Color

/-- The color with a number, of which the lowest twenty-four bits count. -/
def ofNat (n : Nat) : String :=
  let digit (i : Nat) : Char := Nat.digitChar (n >>> (4 * i) % 16)
  String.ofList ['#', digit 5, digit 4, digit 3, digit 2, digit 1, digit 0]

/-- Written as `#` and six lowercase hexadecimal digits. -/
def isWellFormed (s : String) : Bool :=
  match s.toList with
  | '#' :: digits =>
    digits.length = 6
      && digits.all fun c => ('0' ≤ c && c ≤ '9') || ('a' ≤ c && c ≤ 'f')
  | _ => false

end Color

/-- Colors handed out in turn, the first again after the last. -/
structure Palette where
  /-- What is handed out in one turn. -/
  colors : List String
  /-- How many have been handed out. -/
  drawn : Nat
  deriving DecidableEq, Repr

namespace Palette

def ofList (colors : List String) : Palette :=
  ⟨colors, 0⟩

/-- An empty palette has nothing to hand out but black. -/
def next (p : Palette) : String × Palette :=
  (p.colors.getD (p.drawn % p.colors.length) (Color.ofNat 0), { p with drawn := p.drawn + 1 })

instance : ColorSource Palette := ⟨next⟩

end Palette

/-- Colors drawn at random. -/
structure RandomColors where
  generator : StdGen

namespace RandomColors

def ofSeed (seed : Nat) : RandomColors :=
  ⟨mkStdGen seed⟩

def next (r : RandomColors) : String × RandomColors :=
  let (n, generator) := randNat r.generator 0 0xFFFFFF
  (Color.ofNat n, ⟨generator⟩)

instance : ColorSource RandomColors := ⟨next⟩

end RandomColors

end TriggerFlow
