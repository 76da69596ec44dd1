import ExactUnits.Registry

/-!
# The standard units

The factors are relative to the base units metre, kilogram, second, kelvin,
ampere, mole, candela, degree and bit.

## Main definitions

* `Standard.definitions` — the definitions, by what they measure.
* `Standard.aliases` — names of composite units.
* `Registry.standard` — the registry of both.
-/

namespace ExactUnits

namespace Standard

/-! ### Writing definitions -/

/-- The number that has the given digits, the last `places` of them behind the
point. -/
def decimal (digits : Int) (places : Nat) : Number := Number.scaled 10 digits (-places)

/-- A dimension by its exponents. -/
def dimensionOf (exponents : List (String × Exponent)) : Dimension := Monomial.ofList exponents

/-- A definition without an offset. -/
def define (dimension : Dimension) (name : String) (factor : Number) (symbols : List String)
    (aliases : List String) (family : PrefixFamily) : Definition :=
  { name, symbols, aliases, factor, offset := none, dimension, family }

/-! ### Dimensions -/

/-- Length. -/
def length : Dimension := .base "length"

/-- Mass. -/
def mass : Dimension := .base "mass"

/-- Time. -/
def time : Dimension := .base "time"

/-- Electric current. -/
def current : Dimension := .base "current"

/-- Amount of substance. -/
def amount : Dimension := .base "amount"

/-- Luminous intensity. -/
def luminosity : Dimension := .base "luminosity"

/-- Plane angle. -/
def angle : Dimension := .base "angle"

/-- Information. -/
def information : Dimension := .base "information"

/-- Area. -/
def area : Dimension := dimensionOf [("length", 2)]

/-- Volume. -/
def volume : Dimension := dimensionOf [("length", 3)]

/-- Speed. -/
def speed : Dimension := dimensionOf [("length", 1), ("time", -1)]

/-- Frequency. -/
def frequency : Dimension := dimensionOf [("time", -1)]

/-- Force. -/
def force : Dimension := dimensionOf [("length", 1), ("mass", 1), ("time", -2)]

/-- Energy. -/
def energy : Dimension := dimensionOf [("length", 2), ("mass", 1), ("time", -2)]

/-- Power. -/
def power : Dimension := dimensionOf [("length", 2), ("mass", 1), ("time", -3)]

/-- Pressure. -/
def pressure : Dimension := dimensionOf [("length", -1), ("mass", 1), ("time", -2)]

/-- Electric charge. -/
def charge : Dimension := dimensionOf [("current", 1), ("time", 1)]

/-- Electric potential. -/
def potential : Dimension :=
  dimensionOf [("current", -1), ("length", 2), ("mass", 1), ("time", -3)]

/-- Electric resistance. -/
def resistance : Dimension :=
  dimensionOf [("current", -2), ("length", 2), ("mass", 1), ("time", -3)]

/-! ### The definitions -/

/-- Units of length: metric, imperial and astronomical. -/
def lengthUnits : List Definition :=
  [define length "metre" 1 ["m"] ["metres"] .metric,
    define length "inch" (decimal 254 4) ["in"] ["inches"] .none,
    define length "foot" (decimal 3048 4) ["ft"] ["feet"] .none,
    define length "yard" (decimal 9144 4) ["yd"] ["yards"] .none,
    define length "mile" (decimal 1609344 3) ["mi"] ["miles"] .none,
    define length "nautical_mile" 1852 ["nmi"] ["nautical mile"] .none,
    define length "astronomical_unit" 149597870700 ["au", "AU"] ["astronomical unit"] .none,
    define length "light_year" 9460730472580800 ["ly"] ["light year", "light years"] .none]

/-- Units of mass.  The kilogram is the base unit, so the gram has the factor
1/1000. -/
def massUnits : List Definition :=
  [define mass "gram" (decimal 1 3) ["g"] ["grams"] .metric,
    define mass "tonne" 1000 ["t"] ["tonnes", "metric ton"] .none,
    define mass "pound" (decimal 45359237 8) ["lb"] ["pounds", "lbs"] .none,
    define mass "ounce" (decimal 28349523125 12) ["oz"] ["ounces"] .none,
    define mass "stone" (decimal 635029318 8) ["st"] [] .none]

/-- Units of time; the year is the Julian year. -/
def timeUnits : List Definition :=
  [define time "second" 1 ["s"] ["seconds", "sec", "secs"] .metric,
    define time "minute" 60 ["min"] ["minutes", "mins"] .none,
    define time "hour" 3600 ["h", "hr"] ["hours", "hrs"] .none,
    define time "day" 86400 ["d"] ["days"] .none,
    define time "week" 604800 ["wk"] ["weeks"] .none,
    define time "year" 31557600 ["yr"] ["years"] .none]

/-- Units of temperature, with the distance of their zeros from absolute zero. -/
def temperatureUnits : List Definition :=
  [define .temperature "kelvin" 1 ["K"] [] .metric,
    { define .temperature "celsius" 1 ["\u00b0C", "degC"] ["degree celsius", "degrees celsius"]
        .none with offset := some (decimal 27315 2) },
    { define .temperature "fahrenheit" 1 ["\u00b0F", "degF"]
        ["degree fahrenheit", "degrees fahrenheit"] .none with offset := some (decimal 45967 2) },
    { define .temperature "rankine" 1 ["\u00b0R", "degR"] [] .none with offset := some 0 }]

/-- The other base units. -/
def baseUnits : List Definition :=
  [define current "ampere" 1 ["A"] ["amperes", "amp", "amps"] .metric,
    define amount "mole" 1 ["mol"] ["moles"] .metric,
    define luminosity "candela" 1 ["cd"] [] .metric]

/-- Units of area and volume. -/
def areaAndVolumeUnits : List Definition :=
  [define area "hectare" 10000 ["ha"] ["hectares"] .none,
    define area "acre" (decimal 40468564224 7) ["ac"] ["acres"] .none,
    define volume "litre" (decimal 1 3) ["L", "l"] ["litres"] .metric,
    define volume "gallon" (decimal 3785411784 12) ["gal"] ["gallons"] .none,
    define volume "imperial_gallon" (decimal 454609 8) [] ["imperial gallon"] .none]

/-- Coherent derived units with names of their own. -/
def derivedUnits : List Definition :=
  [define force "newton" 1 ["N"] [] .metric,
    define energy "joule" 1 ["J"] [] .metric,
    define power "watt" 1 ["W"] [] .metric,
    define pressure "pascal" 1 ["Pa"] [] .metric,
    define frequency "hertz" 1 ["Hz"] [] .metric,
    define charge "coulomb" 1 ["C"] [] .metric,
    define potential "volt" 1 ["V"] [] .metric,
    define resistance "ohm" 1 ["\u03a9"] [] .metric]

/-- The pound-force in newtons. -/
def poundForce : Number := decimal 44482216152605 13

/-- The square inch in square metres. -/
def squareInch : Number := decimal 64516 8

/-- Other units of energy, power, pressure, force and speed.  Horsepower is the
mechanical one, of 550 foot-pounds a second. -/
def energyAndForceUnits : List Definition :=
  [define energy "calorie" (decimal 4184 3) ["cal"] ["calories"] .metric,
    define energy "electronvolt" (decimal 1602176634 28) ["eV"] [] .metric,
    define energy "watt_hour" 3600 ["Wh"] [] .metric,
    define power "horsepower" (decimal 74569987158227022 14) ["hp"] [] .none,
    define pressure "bar" 100000 [] [] .metric,
    define pressure "atmosphere" 101325 ["atm"] ["atmospheres"] .none,
    define pressure "pound_per_square_inch" (poundForce / squareInch) ["psi"]
      ["pound per square inch"] .none,
    define force "pound_force" poundForce ["lbf"] [] .none,
    define speed "knot" (mkRat 1852 3600) ["kn", "kt"] ["knots"] .none]

/-- Units of angle, in degrees. -/
def angleUnits : List Definition :=
  [define angle "degree" 1 ["deg", "\u00b0"] ["degrees"] .none,
    define angle "arcminute" (mkRat 1 60) ["arcmin"] ["arcminutes"] .none,
    define angle "arcsecond" (mkRat 1 3600) ["arcsec"] ["arcseconds"] .none,
    define angle "turn" 360 ["rev"] ["turns", "revolution", "revolutions"] .none]

/-- Units of information, in bits. -/
def informationUnits : List Definition :=
  [define information "bit" 1 ["b"] ["bits"] .bit,
    define information "byte" 8 ["B"] ["bytes"] .byte]

/-- All standard definitions. -/
def definitions : List Definition :=
  lengthUnits ++ massUnits ++ timeUnits ++ temperatureUnits ++ baseUnits ++ areaAndVolumeUnits
    ++ derivedUnits ++ energyAndForceUnits ++ angleUnits ++ informationUnits

/-! ### The aliases -/

/-- Names of composite units. -/
def aliases : NameMap String := .ofList
  [("kph", "kilometre/hour"), ("kmh", "km/h"), ("mph", "mile/hour"), ("fps", "ft/s"),
    ("mps", "m/s"), ("gsm", "gram/metre^2"), ("sqm", "m^2"), ("sqft", "ft^2"), ("cc", "cm^3"),
    ("rpm", "turn/minute")]

end Standard

/-- The registry of the standard units and aliases. -/
def Registry.standard : Except (Failure UnitError) Registry :=
  build Standard.definitions Standard.aliases

end ExactUnits
