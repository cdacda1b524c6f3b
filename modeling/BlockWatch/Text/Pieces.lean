/-!
# Pieces of a text

A text cut at every separator.  There is one piece more than there are separators, so pieces may be
empty, and a text without separators is its only piece.

Lines, the segments of a path, the parts of a host and the entries of a header are such pieces.
-/

set_option autoImplicit false

namespace BlockWatch.Text

/-- The pieces of a text between the characters that separate. -/
def pieces (separates : Char → Bool) : List Char → List (List Char)
  | [] => [[]]
  | c :: rest =>
      if separates c then [] :: pieces separates rest
      else
        match pieces separates rest with
        | [] => [[c]]
        | piece :: others => (c :: piece) :: others

end BlockWatch.Text
