import Branchwork.Number.Literal
import Branchwork.Text.Lower

/-!
# Styles

A style says how a text looks: which attributes are on or off, its colour, the colour behind it,
and where it links to. It is written as words, and two texts that ask for the same look have the
same normal form (`Style.normalName`), whatever the order and the spelling of their words. A text
that is no style is its own normal form, in lower case and without blanks around it.
-/

namespace Branchwork.Console

/-- A way in which a text can look. -/
inductive Attribute where
  | bold
  | dim
  | italic
  | underline
  | blink
  | blink2
  | reverse
  | conceal
  | strike
  | underline2
  | frame
  | encircle
  | overline
deriving DecidableEq, Repr

namespace Attribute

/-- The attributes in the order in which they are written. -/
def all : List Attribute :=
  [bold, dim, italic, underline, blink, blink2, reverse, conceal, strike, underline2, frame,
    encircle, overline]

/-- The full name of an attribute. -/
def name : Attribute → String
  | bold => "bold"
  | dim => "dim"
  | italic => "italic"
  | underline => "underline"
  | blink => "blink"
  | blink2 => "blink2"
  | reverse => "reverse"
  | conceal => "conceal"
  | strike => "strike"
  | underline2 => "underline2"
  | frame => "frame"
  | encircle => "encircle"
  | overline => "overline"

/-- The short name of an attribute. -/
def shortName? : Attribute → Option String
  | bold => some "b"
  | dim => some "d"
  | italic => some "i"
  | underline => some "u"
  | reverse => some "r"
  | conceal => some "c"
  | strike => some "s"
  | underline2 => some "uu"
  | overline => some "o"
  | _ => none

/-- The attribute of a name. -/
def ofName? (word : String) : Option Attribute :=
  all.find? fun a => a.name = word || a.shortName? = some word

end Attribute

/-- The names of the colours of a terminal. -/
def colorNames : List String :=
  [ "black", "red", "green", "yellow", "blue", "magenta", "cyan", "white", "bright_black",
    "bright_red", "bright_green", "bright_yellow", "bright_blue", "bright_magenta", "bright_cyan",
    "bright_white", "grey0", "gray0", "navy_blue", "dark_blue", "blue3", "blue1", "dark_green",
    "deep_sky_blue4", "dodger_blue3", "dodger_blue2", "green4", "spring_green4", "turquoise4",
    "deep_sky_blue3", "dodger_blue1", "green3", "spring_green3", "dark_cyan", "light_sea_green",
    "deep_sky_blue2", "deep_sky_blue1", "spring_green2", "cyan3", "dark_turquoise", "turquoise2",
    "green1", "spring_green1", "medium_spring_green", "cyan2", "cyan1", "dark_red", "deep_pink4",
    "purple4", "purple3", "blue_violet", "orange4", "grey37", "gray37", "medium_purple4",
    "slate_blue3", "royal_blue1", "chartreuse4", "dark_sea_green4", "pale_turquoise4", "steel_blue",
    "steel_blue3", "cornflower_blue", "chartreuse3", "cadet_blue", "sky_blue3", "steel_blue1",
    "pale_green3", "sea_green3", "aquamarine3", "medium_turquoise", "chartreuse2", "sea_green2",
    "sea_green1", "aquamarine1", "dark_slate_gray2", "dark_magenta", "dark_violet", "purple",
    "light_pink4", "plum4", "medium_purple3", "slate_blue1", "yellow4", "wheat4", "grey53",
    "gray53", "light_slate_grey", "light_slate_gray", "medium_purple", "light_slate_blue",
    "dark_olive_green3", "dark_sea_green", "light_sky_blue3", "sky_blue2", "dark_sea_green3",
    "dark_slate_gray3", "sky_blue1", "chartreuse1", "light_green", "pale_green1",
    "dark_slate_gray1", "red3", "medium_violet_red", "magenta3", "dark_orange3", "indian_red",
    "hot_pink3", "medium_orchid3", "medium_orchid", "medium_purple2", "dark_goldenrod",
    "light_salmon3", "rosy_brown", "grey63", "gray63", "medium_purple1", "gold3", "dark_khaki",
    "navajo_white3", "grey69", "gray69", "light_steel_blue3", "light_steel_blue", "yellow3",
    "dark_sea_green2", "light_cyan3", "light_sky_blue1", "green_yellow", "dark_olive_green2",
    "dark_sea_green1", "pale_turquoise1", "deep_pink3", "magenta2", "hot_pink2", "orchid",
    "medium_orchid1", "orange3", "light_pink3", "pink3", "plum3", "violet", "light_goldenrod3",
    "tan", "misty_rose3", "thistle3", "plum2", "khaki3", "light_goldenrod2", "light_yellow3",
    "grey84", "gray84", "light_steel_blue1", "yellow2", "dark_olive_green1", "honeydew2",
    "light_cyan1", "red1", "deep_pink2", "deep_pink1", "magenta1", "orange_red1", "indian_red1",
    "hot_pink", "dark_orange", "salmon1", "light_coral", "pale_violet_red1", "orchid2", "orchid1",
    "orange1", "sandy_brown", "light_salmon1", "light_pink1", "pink1", "plum1", "gold1",
    "navajo_white1", "misty_rose1", "thistle1", "yellow1", "light_goldenrod1", "khaki1", "wheat1",
    "cornsilk1", "grey100", "gray100", "grey3", "gray3", "grey7", "gray7", "grey11", "gray11",
    "grey15", "gray15", "grey19", "gray19", "grey23", "gray23", "grey27", "gray27", "grey30",
    "gray30", "grey35", "gray35", "grey39", "gray39", "grey42", "gray42", "grey46", "gray46",
    "grey50", "gray50", "grey54", "gray54", "grey58", "gray58", "grey62", "gray62", "grey66",
    "gray66", "grey70", "gray70", "grey74", "gray74", "grey78", "gray78", "grey82", "gray82",
    "grey85", "gray85", "grey89", "gray89", "grey93", "gray93"]

/-- What can be wrong with a text that should be a style. -/
inductive StyleProblem where
  | notAStyle
  | badNumber (text : String) (problem : Literal.IntProblem)
deriving DecidableEq, Repr

/-- A lower-case hexadecimal digit. -/
def isHexDigit (c : Char) : Bool := c.isDigit || ('a' ≤ c && c ≤ 'f')

/-- What stands between two texts. -/
def between? (front back : String) (s : List Char) : Option (List Char) :=
  let inner := s.drop front.length
  let size := inner.length - back.length
  if s.take front.length = front.toList && back.length ≤ inner.length &&
      inner.drop size = back.toList then some (inner.take size)
  else none

/-- Splits a text at its commas; `part` holds the current part, last character first. -/
def commaParts (part : List Char) : List Char → List (List Char)
  | [] => [part.reverse]
  | c :: rest =>
    if c = ',' then part.reverse :: commaParts [] rest else commaParts (c :: part) rest

/-- Reads the share of one of the three basic colours. -/
def share (text : List Char) : Except StyleProblem Int :=
  (Literal.int? 10 text).mapError (.badNumber (String.ofList text))

/-- Checks the shares of the basic colours. -/
def checkShares (text : List Char) : Except StyleProblem Unit := do
  if text.isEmpty || !text.all (fun c => c = ',' || (Text.decimalDigit? c).isSome) then
    throw .notAStyle
  match commaParts [] text with
  | [red, green, blue] =>
    let shares ← [red, green, blue].mapM share
    if shares.any (255 < ·) then throw .notAStyle
  | _ => throw .notAStyle

/-- Checks that a text in lower case is a colour. -/
def checkColor (color : String) : Except StyleProblem Unit :=
  let s := color.toList
  if color = "default" || colorNames.contains color then .ok ()
  else if s.head? = some '#' && s.length = 7 && s.tail.all isHexDigit then .ok ()
  else
    match between? "color(" ")" s, between? "rgb(" ")" s with
    | some number, _ =>
      if 1 ≤ number.length && number.length ≤ 3 && number.all Char.isDigit &&
          Literal.digitsValue number ≤ 255 then .ok ()
      else .error .notAStyle
    | none, some shares => checkShares shares
    | none, none => .error .notAStyle

/-- How a text looks. -/
structure Style where
  attributes : List (Attribute × Bool) := []
  color : Option String := none
  background : Option String := none
  link : Option String := none
deriving DecidableEq, Repr

namespace Style

/-- A style with an attribute on or off; a later word wins. -/
def switch (s : Style) (a : Attribute) (on : Bool) : Style :=
  { s with attributes := (a, on) :: s.attributes }

/-- Adds the words of a style to a style. -/
def ofWords (s : Style) : List String → Except StyleProblem Style
  | [] => .ok s
  | word :: rest =>
    let small := Text.lowerText word
    if small = "on" || small = "not" || small = "link" then
      match rest with
      | [] => .error .notAStyle
      | next :: rest =>
        if small = "on" then do
          checkColor (Text.lowerText next)
          ofWords { s with background := some (Text.lowerText next) } rest
        else if small = "not" then
          match Attribute.ofName? next with
          | some a => ofWords (s.switch a false) rest
          | none => .error .notAStyle
        else ofWords { s with link := some next } rest
    else
      match Attribute.ofName? small with
      | some a => ofWords (s.switch a true) rest
      | none => do
        checkColor small
        ofWords { s with color := some small } rest

/-- Reads a style; the word `none` alone is the style that changes nothing. -/
def parse (text : String) : Except StyleProblem Style :=
  let words := textWords text
  if words = ["none"] then .ok {} else ofWords {} words

/-- The words of a style. -/
def words (s : Style) : List String :=
  let attributes := Attribute.all.filterMap fun a =>
    (s.attributes.lookup a).map fun on => if on then a.name else "not " ++ a.name
  attributes ++ s.color.toList ++ (s.background.map ("on " ++ ·)).toList ++
    (s.link.map ("link " ++ ·)).toList

/-- The text of a style. -/
def text (s : Style) : String :=
  if s.words.isEmpty then "none" else " ".intercalate s.words

/-- The normal form of the text of a style. -/
def normalName (name : String) : Except StyleProblem String :=
  match parse name with
  | .ok s => .ok s.text
  | .error .notAStyle => .ok (Text.lowerText (trimText name))
  | .error problem => .error problem

end Style

end Branchwork.Console
