/-! # Laying out text

A layout is a text that depends on the level of indentation it starts at: a line that begins within
it is indented by four spaces a level. -/

namespace JsxTracking.Source

/-- A text that depends on the level of indentation. -/
def Layout : Type := Nat → List Char

namespace Layout

instance : Inhabited Layout := ⟨fun _ => []⟩

instance : Append Layout := ⟨fun first second level => first level ++ second level⟩

/-- Characters that stand as they are. -/
def chars (text : List Char) : Layout :=
  fun _ => text

/-- A text that stands as it is. -/
def text (text : String) : Layout :=
  chars text.toList

instance : Coe String Layout := ⟨text⟩

/-- The end of a line and the indentation of the next. -/
def newline : Layout :=
  fun level => '\n' :: List.replicate (4 * level) ' '

/-- A layout one level deeper. -/
def deeper (layout : Layout) : Layout :=
  fun level => layout (level + 1)

/-- Layouts one after the other. -/
def concat (layouts : List Layout) : Layout :=
  fun level => layouts.flatMap (· level)

/-- Layouts with a separator between them. -/
def separated (separator : Layout) (layouts : List Layout) : Layout :=
  concat (layouts.intersperse separator)

/-- Layouts on one line with commas between them. -/
def commas (layouts : List Layout) : Layout :=
  separated (text ", ") layouts

/-- Layouts between brackets, each on a line of its own one level deeper. -/
def lines (opening closing separator : String) (layouts : List Layout) : Layout :=
  text opening ++ deeper (newline ++ separated (text separator ++ newline) layouts) ++ newline ++
    text closing

end Layout

end JsxTracking.Source
