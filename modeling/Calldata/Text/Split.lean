/-!
# Cutting texts

Cutting a text at one character or at every occurrence of it.
-/

namespace Calldata.Text

/-- The text in front of the first `c`, and the text behind it. -/
def cut? (c : Char) : List Char → Option (List Char × List Char)
  | [] => none
  | a :: rest =>
    if a = c then some ([], rest) else (cut? c rest).map fun (front, back) => (a :: front, back)

/-- The pieces between the occurrences of `c`. There is always one. -/
def split (c : Char) : List Char → List (List Char)
  | [] => [[]]
  | a :: rest =>
    if a = c then [] :: split c rest
    else
      match split c rest with
      | [] => [[a]]
      | piece :: pieces => (a :: piece) :: pieces

end Calldata.Text
