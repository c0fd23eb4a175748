import IncludeAtlas.Text.Blank
import IncludeAtlas.Text.Cut
import IncludeAtlas.Text.Quoted
import IncludeAtlas.Decimal.Natural
import IncludeAtlas.Decimal.Display
import IncludeAtlas.Random.Draws

/-!
# Palettes

Node colors scatter around a base color.  A palette says which color that is, how far
the channels may stray from it and how transparent a color may become.

## Main Definitions

* `Rgb`, `Rgb.spec`: a base color, and how it is specified
* `Palette`, `Palette.make`: a palette, and the check it has to pass
* `Palette.parseBase`: a base color from text
* `Palette.color`: the next random color

## Design notes

A color takes four draws, for the three channels and the opacity in this order.  A
channel is kept between 8 and 255, also where that moves the base color itself.
-/

namespace IncludeAtlas

/-- A color by its channels. -/
structure Rgb where
  red : UInt8
  green : UInt8
  blue : UInt8
  deriving DecidableEq, Repr

/-- A color as a specification: its channels with commas between them. -/
def Rgb.spec (c : Rgb) : String :=
  Natural.text c.red.toNat ++ ", " ++ Natural.text c.green.toNat ++ ", "
    ++ Natural.text c.blue.toNat

/-- A base color and the amount of random change around it. -/
structure Palette where
  base : Rgb
  /-- The greatest change of a channel, in either direction. -/
  variation : UInt32
  /-- The lower bound of the opacity. -/
  alphaMin : Float

/-- Why colors cannot be used. -/
inductive PaletteError where
  | wrongCount (spec : String) (found : Nat)
  | badComponent (spec part : String) (fault : Natural.Fault)
  | alphaOutOfRange (alpha : Float)

namespace PaletteError

/-- What is wrong with a base color. -/
def reason : PaletteError → String
  | .wrongCount _ found => s!"expected 3 components, found {Natural.text found}"
  | .badComponent _ part fault => "component " ++ Quoted.quote part ++ ": " ++ fault.message
  | .alphaOutOfRange _ => ""

/-- The wording of an error. -/
def message : PaletteError → String
  | e@(.wrongCount spec _) | e@(.badComponent spec _ _) =>
    "invalid color specification " ++ Quoted.quote spec ++ ": " ++ e.reason
  | .alphaOutOfRange alpha =>
    "color alpha minimum must be in [0, 1], got " ++ Decimal.display alpha

end PaletteError

namespace Palette

/-- The palette used where nothing else is asked for. -/
def default : Palette :=
  ⟨⟨234, 82, 77⟩, 200, 0.7⟩

/-- A palette with an opacity bound between zero and one. -/
def make (base : Rgb) (variation : UInt32) (alphaMin : Float) : Except PaletteError Palette :=
  if 0 ≤ alphaMin ∧ alphaMin ≤ 1 then .ok ⟨base, variation, alphaMin⟩
  else .error (.alphaOutOfRange alphaMin)

/-- Reads one channel of a base color. -/
def parseChannel (spec : String) (part : List Char) : Except PaletteError UInt8 :=
  match Natural.read 255 part with
  | .ok n => .ok n.toUInt8
  | .error fault => .error (.badComponent spec (String.ofList part) fault)

/-- A base color from its three channels, separated by commas and perhaps surrounded by
white space. -/
def parseBase (spec : String) : Except PaletteError Rgb :=
  match (Cut.pieces ',' spec.toList).map Blank.trim with
  | [r, g, b] => do
    let r ← parseChannel spec r
    let g ← parseChannel spec g
    let b ← parseChannel spec b
    return ⟨r, g, b⟩
  | parts => .error (.wrongCount spec parts.length)

/-- The least value of a random channel. -/
def channelMin : Int := 8

/-- The greatest value of a random channel. -/
def channelMax : Int := 255

/-- A channel moved by a draw between zero and one. -/
def jitter (p : Palette) (channel : UInt8) (draw : Float) : Int :=
  let offset := (2.0 * draw - 1.0) * p.variation.toFloat
  let value := (channel.toFloat + offset).toInt64.toInt
  max channelMin (min value channelMax)

/-- The opacity of a draw, not below the bound. -/
def alpha (p : Palette) (draw : Float) : Float :=
  if draw ≤ p.alphaMin then p.alphaMin else draw

/-- The color that four draws give. -/
def colorOf (p : Palette) (red green blue opacity : Float) : String :=
  let channel (c : UInt8) (draw : Float) := Natural.text (p.jitter c draw).toNat
  "rgba(" ++ channel p.base.red red ++ "," ++ channel p.base.green green ++ ","
    ++ channel p.base.blue blue ++ "," ++ Decimal.display (p.alpha opacity) ++ ")"

/-- The next random color. -/
def color (p : Palette) (draws : Draws) : String × Draws :=
  let (red, draws) := draws.next
  let (green, draws) := draws.next
  let (blue, draws) := draws.next
  let (opacity, draws) := draws.next
  (p.colorOf red green blue opacity, draws)

/-- As many colors as asked for, in the order they are drawn. -/
def colors (p : Palette) : Nat → Draws → List String
  | 0, _ => []
  | n + 1, draws =>
    let (c, draws) := p.color draws
    c :: p.colors n draws

end Palette

end IncludeAtlas
