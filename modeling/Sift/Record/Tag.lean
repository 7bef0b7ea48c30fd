import Sift.Json.Shape

/-!
# Tags

The named, colored choices of select-like properties.

* `Color`: the palette;
* `Tag`: a name and a color;
* `Tag.ofJson`, `Tag.toJson`: tags in JSON, as an object or as a list of their
  two fields.
-/

namespace Sift

/-- The palette of tags. -/
inductive Color where
  | gray
  | brown
  | orange
  | yellow
  | green
  | blue
  | purple
  | pink
  | red
  | grayBackground
  | brownBackground
  | orangeBackground
  | yellowBackground
  | greenBackground
  | blueBackground
  | purpleBackground
  | pinkBackground
  | redBackground
  | default
deriving DecidableEq

namespace Color

/-- All colors but the default one. -/
def palette : List Color :=
  [gray, brown, orange, yellow, green, blue, purple, pink, red, grayBackground, brownBackground,
    orangeBackground, yellowBackground, greenBackground, blueBackground, purpleBackground,
    pinkBackground, redBackground]

/-- The name of a color. -/
def name : Color → String
  | gray => "gray"
  | brown => "brown"
  | orange => "orange"
  | yellow => "yellow"
  | green => "green"
  | blue => "blue"
  | purple => "purple"
  | pink => "pink"
  | red => "red"
  | grayBackground => "gray_background"
  | brownBackground => "brown_background"
  | orangeBackground => "orange_background"
  | yellowBackground => "yellow_background"
  | greenBackground => "green_background"
  | blueBackground => "blue_background"
  | purpleBackground => "purple_background"
  | pinkBackground => "pink_background"
  | redBackground => "red_background"
  | default => "default"

/-- The color of a name; an unknown name has the default color. -/
def ofName (s : String) : Color := (palette.find? fun c => c.name == s).getD default

theorem ofName_name (c : Color) : ofName c.name = c := by cases c <;> rfl

end Color

/-- A named, colored choice. -/
structure Tag where
  name : String
  color : Color
deriving DecidableEq

namespace Tag

open Json

/-- A tag of the default color. -/
def plain (name : String) : Tag := ⟨name, .default⟩

/-- Reads a color by its name. -/
def readColor (place : Place) (j : Json) : Except ShapeError Color :=
  (asName place j).map Color.ofName

/-- Reads a tag: an object with a name and possibly a color, or a list of
    these. -/
def ofJson (place : Place) : Json → Except ShapeError Tag
  | .object entries => do
    let color ← field? entries "color" (readColor place)
    let name ← field? entries "name" asText
    match name with
    | none => .error (.missingField "name")
    | some name => return ⟨name, color.getD .default⟩
  | .list [] => tooShort 0 "struct SelectOption" 2
  | .list [name] => do return plain (← asText name)
  | .list [name, color] => do return ⟨← asText name, ← readColor place color⟩
  | .list (name :: color :: more) => do
    let _ ← asText name
    let _ ← readColor place color
    tooLong place (2 + more.length) 2
  | j => j.unlike "struct SelectOption"

/-- How a tag is stored. -/
def toJson (t : Tag) : Json :=
  .object [("name", .text t.name), ("color", .text t.color.name)]

end Tag

end Sift
