import Mavlink.Text.Blank

/-!
# Lines of source code

Source code is a list of lines.  A level of indentation is four spaces, which an
empty line does not get.
-/

namespace Mavlink.Codegen

/-- The lines one level deeper. -/
def indent (lines : List String) : List String :=
  lines.map fun line => if line = "" then "" else "    " ++ line

/-- Lines between two others and one level deeper than these. -/
def enclosed (first : String) (lines : List String) (last : String) : List String :=
  first :: indent lines ++ [last]

/-- Lines under another and one level deeper. -/
def below (first : String) (lines : List String) : List String := first :: indent lines

/-- A text as the lines of a comment.  Each begins with the mark; a line without text
is the mark without the blanks at its end. -/
def comment (mark : String) (text : String) : List String :=
  (Text.lines text.toList).map fun line =>
    match Text.trim line with
    | [] => String.ofList (Text.trimEnd mark.toList)
    | line => mark ++ String.ofList line

/-- The text of lines. -/
def unlines (lines : List String) : String := String.join (lines.map (· ++ "\n"))

/-- The paragraphs of a comment, with a separator between each two. -/
def paragraphs (separator : String) (groups : List (List String)) : List String :=
  List.intercalate [separator] groups

end Mavlink.Codegen
